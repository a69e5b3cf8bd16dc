import TerraStack.Proofs.FileSystem.Making
import TerraStack.Proofs.Stack.Placing

namespace TerraStack.Writer

open FileSystem

variable {fs : FileSystem} {path : String} {location : Location} {contents : List (String × String)}

/-- What keeps a content from being moved to its name in a directory, to which a path leads. -/
def obstacle? (path : String) (location : Location) (fs : FileSystem) (content : String × String) :
    Option FileError :=
  match ensurePath (Path.join path content.1) with
  | .error error => some error
  | .ok () => if fs.isDirectory (location ++ [content.1]) then some .isDirectory else none

/-- The contents before the first that has an obstacle in its way. -/
def movable (path : String) (location : Location) (fs : FileSystem)
    (contents : List (String × String)) : List (String × String) :=
  contents.takeWhile fun content => (obstacle? path location fs content).isNone

/-- Whether all contents can be moved, and else why not. -/
def outcome (path : String) (location : Location) (fs : FileSystem)
    (contents : List (String × String)) : Except FileError Unit :=
  (contents.findSome? (obstacle? path location fs)).elim (.ok ()) .error

/-- Nothing is in the way of a content if its path is not too long and no directory has its name. -/
theorem obstacle?_eq_none_iff {content : String × String} :
    obstacle? path location fs content = none ↔
      ensurePath (Path.join path content.1) = .ok () ∧
        fs.isDirectory (location ++ [content.1]) = false := by
  unfold obstacle?
  split
  · next hensure => simp [hensure]
  · next hensure => simp [hensure]

/-- A file that waits is moved to its name unless there is an obstacle. -/
theorem persistIn_eq (path name : String) (file : StagedFile) (fs : FileSystem) :
    persistIn path name file fs =
      match obstacle? path file.directory fs (name, file.content) with
      | some error => .error error
      | none => .ok ((fs.discard file).put (file.directory ++ [name]) (.text file.content)) := by
  unfold persistIn obstacle? persist
  cases hensure : ensurePath (Path.join path name) with
  | error error => rfl
  | ok =>
    cases hdirectory : fs.isDirectory (file.directory ++ [name]) with
    | true => simp [Bind.bind, Except.bind, hdirectory]
    | false => simp [Bind.bind, Except.bind, hdirectory]

/-- All contents can be moved exactly if none has to be left. -/
theorem outcome_eq_ok_iff {path : String} {contents : List (String × String)} :
    outcome path location fs contents = .ok () ↔ movable path location fs contents = contents := by
  unfold outcome movable
  rw [List.takeWhile_eq_self_iff]
  cases hfound : contents.findSome? (obstacle? path location fs) with
  | none => simpa using List.findSome?_eq_none_iff.mp hfound
  | some error =>
    obtain ⟨content, hmem, hobstacle⟩ := List.exists_of_findSome?_eq_some hfound
    refine iff_of_false nofun fun hall => ?_
    simpa [hobstacle] using hall content hmem

/-- A file that takes its place is in nobody's way: what is no directory is none later either. -/
theorem isDirectory_put_text_eq {name text : String} (hfree : fs.isDirectory (location ++ [name]) = false)
    (other : Location) :
    (fs.put (location ++ [name]) (.text text)).isDirectory other = fs.isDirectory other := by
  unfold isDirectory
  rw [entry?_put (ne_nil_of_concat location name)]
  split
  · next hother => simpa [isDirectory, hother] using hfree.symm
  · rfl

/-- What is in the way of a content does not depend on the files that were moved before it. -/
theorem obstacle?_put_text {name text : String} (hfree : fs.isDirectory (location ++ [name]) = false) :
    obstacle? path location (fs.put (location ++ [name]) (.text text)) = obstacle? path location fs := by
  funext content
  simp only [obstacle?, isDirectory_put_text_eq hfree]

/-- A content as it waits in a directory. -/
def waitingFile (directory : Location) (content : String × String) : StagedFile :=
  ⟨directory, content.2⟩

/-- In a directory all contents can be staged, and wait as others do already. -/
theorem stageAll_eq (hdirectory : fs.isDirectory location = true) (contents : List (String × String)) :
    stageAll location contents fs =
      ({ fs with staged := (contents.map (waitingFile location)).reverse ++ fs.staged },
        .ok (contents.map (waiting location))) := by
  induction contents generalizing fs with
  | nil => rfl
  | cons content rest ih =>
    obtain ⟨name, text⟩ := content
    have hstaging : { fs with staged := ⟨location, text⟩ :: fs.staged }.isDirectory location = true :=
      hdirectory
    simp only [stageAll, stage_of_isDirectory hdirectory text, ih hstaging]
    simp [waitingFile, waiting]

/-- To drop a file that waits takes it away from those that wait. -/
theorem discard_waiting {waits others : List StagedFile} {file : StagedFile} (hfile : file ∈ waits) :
    ({ fs with staged := waits ++ others } : FileSystem).discard file =
      { fs with staged := waits.erase file ++ others } := by
  simp [FileSystem.discard, List.erase_append_left others hfile]

/-- What is named first among those that wait is one of them, and without it the others wait. -/
theorem perm_erase {waits rest : List StagedFile} {file : StagedFile}
    (hperm : waits.Perm (file :: rest)) : file ∈ waits ∧ (waits.erase file).Perm rest := by
  refine ⟨hperm.mem_iff.mpr List.mem_cons_self, ?_⟩
  simpa using hperm.erase file

/-- When all that wait are dropped, none of them waits. -/
theorem discard_all {waits others : List StagedFile}
    (hperm : waits.Perm (contents.map (waitingFile location))) :
    (contents.map (waiting location)).foldl (fun fs entry => fs.discard entry.2)
      ({ fs with staged := waits ++ others } : FileSystem) = { fs with staged := others } := by
  induction contents generalizing waits with
  | nil => rw [List.Perm.eq_nil hperm]; rfl
  | cons content rest ih =>
    obtain ⟨hfile, hrest⟩ := perm_erase hperm
    rw [List.map_cons, List.foldl_cons, waiting, ← waitingFile, discard_waiting hfile]
    exact ih hrest

/-- The files that wait are moved up to the first obstacle, and none waits any longer. -/
theorem persistAll_eq {waits others : List StagedFile}
    (hperm : waits.Perm (contents.map (waitingFile location))) :
    persistAll path (contents.map (waiting location)) { fs with staged := waits ++ others } =
      ({ place location (movable path location fs contents) fs with staged := others },
        outcome path location fs contents) := by
  induction contents generalizing fs waits with
  | nil =>
    rw [List.Perm.eq_nil hperm]
    rfl
  | cons content rest ih =>
    have hpersist := persistIn_eq path content.1 (waitingFile location content)
      { fs with staged := waits ++ others }
    have hobstacle : obstacle? path (waitingFile location content).directory
        { fs with staged := waits ++ others } (content.1, (waitingFile location content).content) =
          obstacle? path location fs content := rfl
    rw [hobstacle] at hpersist
    rw [List.map_cons, waiting, ← waitingFile, persistAll_cons, hpersist]
    unfold movable outcome
    rw [List.findSome?_cons, List.takeWhile_cons]
    cases hfirst : obstacle? path location fs content with
    | some error =>
      -- The file at hand waits still, as do those behind it.
      refine Prod.ext ?_ rfl
      have hall : waits.Perm ((content :: rest).map (waitingFile location)) := hperm
      exact discard_all hall
    | none =>
      obtain ⟨hfile, hrest⟩ := perm_erase hperm
      have hfree := (obstacle?_eq_none_iff.mp hfirst).2
      have hput : ({ fs with staged := waits ++ others } : FileSystem).discard
            (waitingFile location content) =
          { fs with staged := waits.erase (waitingFile location content) ++ others } :=
        discard_waiting hfile
      have hmoved := @ih (fs.put (location ++ [content.1]) (.text content.2)) _ hrest
      unfold movable outcome at hmoved
      rw [obstacle?_put_text hfree] at hmoved
      rw [hput]
      exact hmoved

/-- To place contents leaves alone what waits. -/
theorem staged_place (location : Location) (contents : List (String × String)) (fs : FileSystem) :
    (place location contents fs).staged = fs.staged := by
  induction contents generalizing fs with
  | nil => rfl
  | cons content rest ih => exact ih (fs.put (location ++ [content.1]) (.text content.2))

/-- Contents that are staged and moved in a directory get to their places up to the first obstacle. -/
theorem stageAll_persistAll_eq (path : String) (hdirectory : fs.isDirectory location = true)
    (contents : List (String × String)) :
    ∃ staging files, stageAll location contents fs = (staging, .ok files) ∧
      persistAll path files staging =
        (place location (movable path location fs contents) fs, outcome path location fs contents) := by
  refine ⟨_, _, stageAll_eq hdirectory contents, ?_⟩
  rw [persistAll_eq (List.reverse_perm _)]
  have hstaged := staged_place location (movable path location fs contents) fs
  rw [← hstaged]

/-- The contents of a write that get to their places. -/
def moved (path : String) (contents : List (String × String)) (fs : FileSystem) :
    List (String × String) :=
  match fs.makeDirectories path with
  | (_, .error _) => []
  | (made, .ok location) => movable path location made contents

/-- Writing the generated files makes their directory and then places those that can be moved, one
after another up to the first that has an obstacle in its way. No file waits any longer. -/
theorem write_eq (writer : Writer) (artifacts : Artifacts) (fs : FileSystem) :
    writer.write artifacts fs = match fs.makeDirectories writer.generatedPath with
      | (made, .error error) => (made, .error error)
      | (made, .ok location) =>
        (place location (movable writer.generatedPath location made artifacts.files) made,
          (outcome writer.generatedPath location made artifacts.files).map fun _ =>
            artifacts.files.map fun file => Path.join writer.generatedPath file.1) := by
  unfold write
  cases hmake : fs.makeDirectories writer.generatedPath with
  | mk made result =>
    cases result with
    | error error => rfl
    | ok location =>
      have hdirectory := isDirectory_of_makeDirectories hmake
      obtain ⟨staging, files, hstage, hpersist⟩ :=
        stageAll_persistAll_eq writer.generatedPath hdirectory artifacts.files
      simp only [hstage, hpersist]
      cases outcome writer.generatedPath location made artifacts.files <;> rfl

/-- Writing one file makes its directory and then places the file if it can be moved. -/
theorem writeOne_eq (directory name content : String) (fs : FileSystem) :
    writeOne directory name content fs = match fs.makeDirectories directory with
      | (made, .error error) => (made, .error error)
      | (made, .ok location) =>
        (place location (movable directory location made [(name, content)]) made,
          outcome directory location made [(name, content)]) := by
  unfold writeOne
  cases hmake : fs.makeDirectories directory with
  | mk made result =>
    cases result with
    | error error => rfl
    | ok location =>
      have hdirectory := isDirectory_of_makeDirectories hmake
      obtain ⟨staging, files, hstage, hpersist⟩ :=
        stageAll_persistAll_eq directory hdirectory [(name, content)]
      simp only [hstage, hpersist]

/-- All that has changed when some contents have been moved to their names in the directory of a
path: each of them can be found there, and on the way to them there are directories where nothing
was. -/
structure Places (path : String) (moved : List (String × String)) (fs after : FileSystem) : Prop where
  programs : after.programs = fs.programs
  staged : after.staged = fs.staged
  workingDirectory : after.workingDirectory = fs.workingDirectory
  placed : ∀ content ∈ moved,
    after.lookup? (Path.join path content.1) = some (.text content.2)
  entry : ∀ location, after.entry? location = fs.entry? location ∨
    (fs.entry? location = none ∧ after.entry? location = some .directory ∧
      after.IsOnWay (fs.start path) (Path.parts path) location) ∨
    ∃ content ∈ moved, after.locate (Path.join path content.1) = .ok location

/-- To place contents changes nothing but their names. -/
theorem entry?_place_of_ne {other : Location}
    (hother : ∀ content ∈ contents, other ≠ location ++ [content.1]) :
    FileSystem.entry? (place location contents fs) other = fs.entry? other := by
  induction contents generalizing fs with
  | nil => rfl
  | cons content rest ih =>
    have hrest := @ih (fs.put (location ++ [content.1]) (.text content.2))
      fun later hlater => hother later (List.mem_cons_of_mem content hlater)
    rw [entry?_put (ne_nil_of_concat location content.1),
      if_neg (hother content List.mem_cons_self)] at hrest
    exact hrest

/-- To place contents leaves the programs alone. -/
theorem programs_place (location : Location) (contents : List (String × String)) (fs : FileSystem) :
    (place location contents fs).programs = fs.programs := by
  induction contents generalizing fs with
  | nil => rfl
  | cons content rest ih => exact ih (fs.put (location ++ [content.1]) (.text content.2))

/-- The contents in front of the first obstacle have places to go to. -/
theorem fits_movable (path : String) (location : Location) (fs : FileSystem)
    (contents : List (String × String)) :
    Fits path location (movable path location fs contents) fs := fun content hmem => by
  have hnone := List.mem_takeWhile_imp hmem
  rw [Option.isNone_iff_eq_none, obstacle?_eq_none_iff] at hnone
  exact hnone

/-- Where not even the directory can be made, no content is placed. -/
theorem places_of_failure {made : FileSystem} {error : FileError}
    (hmake : fs.makeDirectories path = (made, .error error)) : Places path [] fs made where
  programs := (addsDirectories_makeDirectories hmake).programs
  staged := (addsDirectories_makeDirectories hmake).staged
  workingDirectory := (addsDirectories_makeDirectories hmake).workingDirectory
  placed := nofun
  entry location := ((addsDirectories_makeDirectories hmake).entry location).imp_right .inl

/-- Among contents with distinct names each is the one of its name. -/
theorem lookup_of_mem (hnodup : (contents.map Prod.fst).Nodup) {content : String × String}
    (hmem : content ∈ contents) : contents.lookup content.1 = some content.2 := by
  have hfound : (⟨contents, hnodup⟩ : OrderedMap String String).find? content.1 = some content.2 :=
    OrderedMap.find?_eq_some_iff.mpr hmem
  exact hfound

section made

variable {made : FileSystem} (hmake : fs.makeDirectories path = (made, .ok location))
include hmake

/-- A content that has been moved is found by the path of its directory and its name. -/
theorem locate_place_movable {content : String × String} (hname : IsName content.1)
    (hmem : content ∈ movable path location made contents) :
    FileSystem.locate (place location (movable path location made contents) made)
      (Path.join path content.1) = .ok (location ++ [content.1]) := by
  have hfits := fits_movable path location made contents
  have hhas := (hasDirectory_of_makeDirectories hmake).of_keeps hfits.keeps
  refine locate_eq_ok.mpr ⟨hname.join_ne_empty _, (hfits content hmem).1, ?_⟩
  rw [walk_join hname.noSlash, hhas.walk]
  exact follow_of_isDirectory hname hhas.isDirectory

/-- To place the contents in front of the first obstacle changes nothing else than their names say. -/
theorem places_movable (hnames : ∀ content ∈ contents, IsName content.1)
    (hnodup : (contents.map Prod.fst).Nodup) :
    Places path (movable path location made contents) fs
      (place location (movable path location made contents) made) := by
  have hadds := addsDirectories_makeDirectories hmake
  have hkeeps := (fits_movable path location made contents).keeps
  have hsublist : (movable path location made contents).Sublist contents := List.takeWhile_sublist _
  have hlocate (content : String × String) (hmem : content ∈ movable path location made contents) :=
    locate_place_movable hmake (hnames content (hsublist.mem hmem)) hmem
  refine ⟨?_, ?_, ?_, fun content hmem => ?_, fun other => ?_⟩
  · rw [programs_place, hadds.programs]
  · rw [staged_place, hadds.staged]
  · rw [hkeeps.workingDirectory, hadds.workingDirectory]
  · have hdistinct := (hsublist.map Prod.fst).nodup hnodup
    have hentry := @entry?_place made location _ hdistinct content.1
    rw [lookup_of_mem hdistinct hmem] at hentry
    simp only [lookup?, hlocate content hmem, Except.toOption, Option.bind_some]
    exact hentry
  · by_cases htarget : ∃ content ∈ movable path location made contents, other = location ++ [content.1]
    · obtain ⟨content, hmem, rfl⟩ := htarget
      exact .inr (.inr ⟨content, hmem, hlocate content hmem⟩)
    · have hsame : FileSystem.entry? (place location (movable path location made contents) made)
          other = made.entry? other :=
        entry?_place_of_ne fun content hmem heq => htarget ⟨content, hmem, heq⟩
      rw [hsame]
      rcases hadds.entry other with hold | ⟨hnone, hnew, front, hfront, hfold⟩
      · exact .inl hold
      · exact .inr (.inl ⟨hnone, hnew, front, hfront, hkeeps.foldlM hfold⟩)

end made

end TerraStack.Writer
