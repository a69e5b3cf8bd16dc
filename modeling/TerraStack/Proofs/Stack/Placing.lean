import TerraStack.Proofs.FileSystem.Walk
import TerraStack.Stack.Writer

namespace TerraStack.Writer

open FileSystem

variable {fs after made : FileSystem} {location : Location} {contents : List (String × String)}

/-- A content with a name, as it waits in a directory. -/
def waiting (directory : Location) (content : String × String) : String × StagedFile :=
  (content.1, ⟨directory, content.2⟩)

/-- In a directory a content can be staged, and waits. -/
theorem stage_of_isDirectory (hdirectory : fs.isDirectory location = true) (content : String) :
    fs.stage location content =
      .ok ({ fs with staged := ⟨location, content⟩ :: fs.staged }, ⟨location, content⟩) := by
  simp [stage, isDirectory_iff.mp hdirectory]

/-- Only in a directory can it be staged. -/
theorem isDirectory_of_stage {content : String} {staging : FileSystem × StagedFile}
    (hstage : fs.stage location content = .ok staging) : fs.isDirectory location = true := by
  rw [isDirectory_iff]
  unfold stage at hstage
  split at hstage
  · cases hstage
  · assumption
  · cases hstage

/-- In a directory all contents can be staged. -/
theorem stageAll_of_isDirectory (hdirectory : fs.isDirectory location = true)
    (contents : List (String × String)) :
    ∃ staged, stageAll location contents fs =
      ({ fs with staged }, .ok (contents.map (waiting location))) := by
  induction contents generalizing fs with
  | nil => exact ⟨fs.staged, rfl⟩
  | cons content rest ih =>
    obtain ⟨name, text⟩ := content
    have hstaging : { fs with staged := ⟨location, text⟩ :: fs.staged }.isDirectory location = true :=
      hdirectory
    obtain ⟨staged, hrest⟩ := ih hstaging
    refine ⟨staged, ?_⟩
    simp only [stageAll, stage_of_isDirectory hdirectory text, hrest]
    rfl

/-- Where some content could be staged there is a directory. -/
theorem isDirectory_of_stageAll {files : List (String × StagedFile)} (hsome : contents ≠ [])
    (hstage : stageAll location contents fs = (after, .ok files)) :
    fs.isDirectory location = true := by
  cases contents with
  | nil => exact absurd rfl hsome
  | cons content rest =>
    unfold stageAll at hstage
    split at hstage
    · cases hstage
    · next hfirst => exact isDirectory_of_stage hfirst

/-- Staging leaves the tree alone. -/
theorem keeps_staged (fs : FileSystem) (staged : List StagedFile) : Keeps fs { fs with staged } :=
  ⟨rfl, fun _ entry hentry => ⟨entry, hentry, .rfl⟩⟩

/-- Put contents in a directory. -/
def place (location : Location) (contents : List (String × String)) (fs : FileSystem) : FileSystem :=
  contents.foldl (fun fs content => fs.put (location ++ [content.1]) (.text content.2)) fs

/-- All contents can go to a directory, to which a path leads. -/
def Fits (path : String) (location : Location) (contents : List (String × String))
    (fs : FileSystem) : Prop :=
  ∀ content ∈ contents, ensurePath (Path.join path content.1) = .ok () ∧
    fs.isDirectory (location ++ [content.1]) = false

/-- A name in a directory is not the root. -/
theorem ne_nil_of_concat (location : Location) (name : String) : location ++ [name] ≠ [] := by simp

/-- A file that takes a name which is no directory leaves all files files and all directories
directories. -/
theorem keeps_put_text {name : String} (text : String)
    (hfree : fs.isDirectory (location ++ [name]) = false) :
    Keeps fs (fs.put (location ++ [name]) (.text text)) := by
  refine keeps_put (ne_nil_of_concat location name) fun old hold => iff_of_false nofun ?_
  rintro rfl
  rw [isDirectory_iff.mpr hold] at hfree
  cases hfree

theorem isDirectory_put_text {name text : String} {other : Location}
    (hother : fs.isDirectory other = false) :
    (fs.put (location ++ [name]) (.text text)).isDirectory other = false := by
  unfold isDirectory at hother ⊢
  rw [entry?_put (ne_nil_of_concat location name)]
  split
  · rfl
  · exact hother

/-- Once the first content has its place, the others have places as before. -/
theorem Fits.put {path : String} {content : String × String} {rest : List (String × String)}
    (hfits : Fits path location (content :: rest) fs) :
    Fits path location rest (fs.put (location ++ [content.1]) (.text content.2)) := fun other hother =>
  have hfree := hfits other (List.mem_cons_of_mem content hother)
  ⟨hfree.1, isDirectory_put_text hfree.2⟩

/-- To put contents into their places leaves all files files and all directories directories. -/
theorem Fits.keeps {path : String} (hfits : Fits path location contents fs) :
    Keeps fs (place location contents fs) := by
  induction contents generalizing fs with
  | nil => exact .refl fs
  | cons content rest ih =>
    exact (keeps_put_text content.2 (hfits content List.mem_cons_self).2).trans (ih hfits.put)

/-- What waits makes no difference to what is placed. -/
theorem place_staged (location : Location) (contents : List (String × String)) (fs : FileSystem)
    (staged : List StagedFile) :
    place location contents { fs with staged } = { place location contents fs with staged } := by
  induction contents generalizing fs with
  | nil => rfl
  | cons content rest ih => exact ih (fs.put (location ++ [content.1]) (.text content.2))

/-- A name that is among the contents has its new text, and any other has what was there. -/
theorem entry?_place (hnodup : (contents.map Prod.fst).Nodup) (name : String) :
    FileSystem.entry? (place location contents fs) (location ++ [name]) =
      ((contents.lookup name).map Entry.text).or (fs.entry? (location ++ [name])) := by
  induction contents generalizing fs with
  | nil => rfl
  | cons content rest ih =>
    obtain ⟨first, text⟩ := content
    rw [List.map_cons, List.nodup_cons] at hnodup
    refine (ih hnodup.2).trans ?_
    rw [entry?_put (ne_nil_of_concat location first), List.lookup_cons]
    by_cases hname : name = first
    · subst hname
      have hrest : rest.lookup name = none := by
        rw [List.lookup_eq_none_iff]
        intro entry hentry
        simpa using fun heq : name = entry.1 => hnodup.1 (List.mem_map.mpr ⟨entry, hentry, heq.symm⟩)
      simp [hrest]
    · have hother : location ++ [name] ≠ location ++ [first] := by simpa using hname
      have hbeq : (name == first) = false := by simpa using hname
      rw [if_neg hother, hbeq]

/-- A file that waits gets to a name exactly if no directory has that name. -/
theorem persist_eq_ok {name : String} {file : StagedFile} :
    fs.persist file name = .ok after ↔ fs.isDirectory (file.directory ++ [name]) = false ∧
      after = (fs.discard file).put (file.directory ++ [name]) (.text file.content) := by
  unfold persist
  simp only
  split
  · next htaken => simp [htaken]
  · next hfree =>
    rw [Bool.not_eq_true] at hfree
    rw [Except.ok.injEq, eq_comm, and_iff_right hfree]

/-- In the directory of a path, the path of the name must not be too long either. -/
theorem persistIn_eq_ok {path name : String} {file : StagedFile} :
    persistIn path name file fs = .ok after ↔
      ensurePath (Path.join path name) = .ok () ∧
        fs.isDirectory (file.directory ++ [name]) = false ∧
        after = (fs.discard file).put (file.directory ++ [name]) (.text file.content) := by
  unfold persistIn
  rw [bind_eq_ok]
  constructor
  · rintro ⟨⟨⟩, hensure, hpersist⟩
    exact ⟨hensure, persist_eq_ok.mp hpersist⟩
  · rintro ⟨hensure, hpersist⟩
    exact ⟨(), hensure, persist_eq_ok.mpr hpersist⟩

theorem persistAll_cons (path name : String) (file : StagedFile) (rest : List (String × StagedFile))
    (fs : FileSystem) :
    persistAll path ((name, file) :: rest) fs = match persistIn path name file fs with
      | .ok after => persistAll path rest after
      | .error error =>
        (((name, file) :: rest).foldl (fun fs entry => fs.discard entry.2) fs, .error error) := by
  rfl

/-- Contents that have places to go to get there. -/
theorem persistAll_of_fits {path : String} (hfits : Fits path location contents fs) :
    ∃ staged, persistAll path (contents.map (waiting location)) fs =
      ({ place location contents fs with staged }, .ok ()) := by
  induction contents generalizing fs with
  | nil => exact ⟨fs.staged, rfl⟩
  | cons content rest ih =>
    obtain ⟨hensure, hfree⟩ := hfits content List.mem_cons_self
    let file : StagedFile := ⟨location, content.2⟩
    let put := (fs.discard file).put (location ++ [content.1]) (.text content.2)
    have hpersist : persistIn path content.1 file fs = .ok put :=
      persistIn_eq_ok.mpr ⟨hensure, hfree, rfl⟩
    have hrest : Fits path location rest put := hfits.put
    have hplace : place location rest put =
        { place location (content :: rest) fs with staged := fs.staged.erase file } :=
      place_staged location rest (fs.put (location ++ [content.1]) (.text content.2)) _
    obtain ⟨staged, hpersists⟩ := ih hrest
    rw [hplace] at hpersists
    refine ⟨staged, ?_⟩
    rw [List.map_cons, waiting, persistAll_cons, hpersist]
    exact hpersists

/-- Contents that got to their places had places to go to. -/
theorem fits_of_persistAll {path : String}
    (hpersist : persistAll path (contents.map (waiting location)) fs = (after, .ok ())) :
    Fits path location contents fs := by
  induction contents generalizing fs with
  | nil => exact fun _ hcontent => absurd hcontent List.not_mem_nil
  | cons content rest ih =>
    rw [List.map_cons, waiting, persistAll_cons] at hpersist
    split at hpersist
    · next hfirst =>
      obtain ⟨hensure, hfree, rfl⟩ := persistIn_eq_ok.mp hfirst
      have hrest := ih hpersist
      have hkeeps := (keeps_staged fs (fs.staged.erase ⟨location, content.2⟩)).trans
        (keeps_put_text content.2 hfree)
      intro other hother
      rcases List.mem_cons.mp hother with rfl | hmem
      · exact ⟨hensure, hfree⟩
      · -- A directory that was in the way at the start would still be in the way.
        refine ⟨(hrest other hmem).1, ?_⟩
        cases hdirectory : fs.isDirectory (location ++ [other.1]) with
        | false => rfl
        | true => exact (hkeeps.isDirectory hdirectory).symm.trans (hrest other hmem).2
    · cases hpersist

/-- There is always a file to write. -/
theorem files_ne_nil (artifacts : Artifacts) : artifacts.files ≠ [] :=
  List.cons_ne_nil _ _

/-- The files stand in one order, but some may be missing. -/
theorem map_fst_files_sublist (artifacts : Artifacts) :
    (artifacts.files.map Prod.fst).Sublist Artifacts.fileNames := by
  exact (List.filter_sublist.map Prod.fst).cons_cons "main.tf"

/-- No two files of a write have one name. -/
theorem nodup_files (artifacts : Artifacts) : (artifacts.files.map Prod.fst).Nodup :=
  (map_fst_files_sublist artifacts).nodup (by decide)

/-- The directory of the generated files has a name that paths can be made with. -/
theorem isName_generatedName : IsName generatedName where
  noSlash := by decide
  ne_empty := by decide
  ne_dot := by decide
  ne_dots := by decide
  short := by decide

theorem isName_of_mem_fileNames {name : String} (hname : name ∈ Artifacts.fileNames) :
    IsName name := by
  have hnames : ∀ name ∈ Artifacts.fileNames, '/' ∉ name.toList ∧ name ≠ "" ∧ name ≠ "." ∧
      name ≠ ".." ∧ name.utf8ByteSize ≤ nameLimit := by decide
  obtain ⟨noSlash, ne_empty, ne_dot, ne_dots, short⟩ := hnames name hname
  exact { noSlash, ne_empty, ne_dot, ne_dots, short }

section path

variable {path : String} (hhas : fs.HasDirectory path location)
include hhas

/-- Contents that have places to go to are staged, moved and waiting no longer. -/
theorem placed_of_fits (hfits : Fits path location contents fs) :
    ∃ staging files staged, stageAll location contents fs = (staging, .ok files) ∧
      persistAll path files staging = ({ place location contents fs with staged }, .ok ()) := by
  obtain ⟨waiting, hstage⟩ := stageAll_of_isDirectory hhas.isDirectory contents
  have hstaging : Fits path location contents { fs with staged := waiting } := hfits
  obtain ⟨staged, hpersist⟩ := persistAll_of_fits hstaging
  rw [place_staged] at hpersist
  exact ⟨_, _, staged, hstage, hpersist⟩

/-- Contents that have been staged and moved to their places have had places to go to. Each name
among them has its new text then, and nothing else in the tree has changed. -/
theorem fits_of_placed {staging : FileSystem} {files : List (String × StagedFile)}
    (hnodup : (contents.map Prod.fst).Nodup)
    (hstage : stageAll location contents fs = (staging, .ok files))
    (hpersist : persistAll path files staging = (after, .ok ())) :
    Fits path location contents fs ∧ Keeps fs after ∧ ∀ name, after.entry? (location ++ [name]) =
      ((contents.lookup name).map Entry.text).or (fs.entry? (location ++ [name])) := by
  -- In a directory staging cannot fail, so what it has come to is known.
  obtain ⟨waiting, hwaiting⟩ := stageAll_of_isDirectory hhas.isDirectory contents
  obtain ⟨rfl, hfiles⟩ := Prod.mk.inj (hstage.symm.trans hwaiting)
  obtain rfl := Except.ok.inj hfiles
  have hfits : Fits path location contents { fs with staged := waiting } :=
    fits_of_persistAll hpersist
  replace hfits : Fits path location contents fs := hfits
  obtain ⟨staging, files, staged, hstage', hpersist'⟩ := placed_of_fits hhas hfits
  obtain ⟨rfl, hfiles⟩ := Prod.mk.inj (hstage.symm.trans hstage')
  obtain rfl := Except.ok.inj hfiles
  obtain ⟨rfl, -⟩ := Prod.mk.inj (hpersist.symm.trans hpersist')
  exact ⟨hfits, hfits.keeps.trans (keeps_staged _ staged), entry?_place hnodup⟩

end path

variable {writer : Writer}

/-- The path of the generated files is not empty. -/
theorem generatedPath_ne_empty (writer : Writer) : writer.generatedPath ≠ "" :=
  isName_generatedName.join_ne_empty _

/-- A write into a directory in which all files have places to go to succeeds. -/
theorem write_of_fits {artifacts : Artifacts} (hhas : fs.HasDirectory writer.generatedPath location)
    (hfits : Fits writer.generatedPath location artifacts.files fs) :
    ∃ staged, writer.write artifacts fs = ({ place location artifacts.files fs with staged },
      .ok (artifacts.files.map fun file => Path.join writer.generatedPath file.1)) := by
  obtain ⟨staging, files, staged, hstage, hpersist⟩ := placed_of_fits hhas hfits
  refine ⟨staged, ?_⟩
  simp only [write, hhas.makeDirectories_eq writer.generatedPath_ne_empty, hstage, hpersist]

/-- Writing makes the directory for the generated files, and then puts them there. -/
theorem placed_of_write {artifacts : Artifacts} {paths : List String}
    (hwrite : writer.write artifacts fs = (after, .ok paths)) :
    ∃ location made, fs.makeDirectories writer.generatedPath = (made, .ok location) ∧
      made.HasDirectory writer.generatedPath location ∧
      Fits writer.generatedPath location artifacts.files made ∧ Keeps made after ∧
      ∀ name, after.entry? (location ++ [name]) =
        ((artifacts.files.lookup name).map Entry.text).or (made.entry? (location ++ [name])) := by
  unfold write at hwrite
  split at hwrite
  · cases hwrite
  · next made location hmake =>
    obtain ⟨hensure, hwalk⟩ := walk_of_makeDirectories hmake
    split at hwrite
    · cases hwrite
    · next hstage =>
      split at hwrite
      · cases hwrite
      · next hpersist =>
        obtain ⟨rfl, -⟩ := Prod.mk.inj hwrite
        have hdirectory := isDirectory_of_stageAll (files_ne_nil artifacts) hstage
        have hhas : made.HasDirectory writer.generatedPath location := ⟨hensure, hwalk, hdirectory⟩
        exact ⟨location, made, hmake, hhas,
          fits_of_placed hhas (nodup_files artifacts) hstage hpersist⟩

/-- A write that succeeds leaves all files files and all directories directories. -/
theorem keeps_of_write {artifacts : Artifacts} {paths : List String}
    (hwrite : writer.write artifacts fs = (after, .ok paths)) : Keeps fs after := by
  obtain ⟨location, made, hmake, -, -, hkeeps, -⟩ := placed_of_write hwrite
  exact (keeps_makeDirectories hmake).trans hkeeps

/-- Writing into a directory that is there puts the generated files into it and does nothing else to
the tree. -/
theorem entries_of_write {artifacts : Artifacts} {paths : List String}
    (hhas : fs.HasDirectory writer.generatedPath location)
    (hwrite : writer.write artifacts fs = (after, .ok paths)) :
    after.HasDirectory writer.generatedPath location ∧
      Fits writer.generatedPath location artifacts.files fs ∧
      ∀ name, after.entry? (location ++ [name]) =
        ((artifacts.files.lookup name).map Entry.text).or (fs.entry? (location ++ [name])) := by
  obtain ⟨place, made, hmake, -, hfits, hkeeps, hentries⟩ := placed_of_write hwrite
  obtain ⟨rfl, hplace⟩ := Prod.mk.inj
    ((hhas.makeDirectories_eq writer.generatedPath_ne_empty).symm.trans hmake)
  obtain rfl := Except.ok.inj hplace
  exact ⟨hhas.of_keeps hkeeps, hfits, hentries⟩

/-- To write where the directory was made before is to write. -/
theorem write_eq_of_made (hmake : fs.makeDirectories writer.generatedPath = (made, .ok location))
    (hhas : made.HasDirectory writer.generatedPath location) (artifacts : Artifacts) :
    writer.write artifacts fs = writer.write artifacts made := by
  simp only [write, hmake, hhas.makeDirectories_eq writer.generatedPath_ne_empty]

end TerraStack.Writer
