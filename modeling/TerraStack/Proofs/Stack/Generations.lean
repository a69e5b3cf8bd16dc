import TerraStack.Proofs.Stack.Placing

namespace TerraStack.Writer

open FileSystem

variable {fs after made : FileSystem} {location : Location} {writer : Writer}

/-- Write artifacts one after another, all of them or with an error. -/
def writeAll (writer : Writer) : List Artifacts → FileSystem → Except FileError FileSystem
  | [], fs => .ok fs
  | artifacts :: rest, fs =>
    match writer.write artifacts fs with
    | (after, .ok _) => writer.writeAll rest after
    | (_, .error error) => .error error

theorem writeAll_cons {artifacts : Artifacts} {rest : List Artifacts} :
    writer.writeAll (artifacts :: rest) fs = .ok after ↔
      ∃ middle paths, writer.write artifacts fs = (middle, .ok paths) ∧
        writer.writeAll rest middle = .ok after := by
  rw [writeAll]
  split
  · next middle paths hwrite => simp [hwrite]
  · next error hwrite => simp [hwrite]

/-- The text that the last of some generations has in a file. -/
def latestText? (generations : List Artifacts) (name : String) : Option String :=
  generations.reverse.findSome? (·.files.lookup name)

@[simp] theorem latestText?_singleton (artifacts : Artifacts) (name : String) :
    latestText? [artifacts] name = artifacts.files.lookup name := by
  simp [latestText?]

/-- Later generations come before earlier ones. -/
theorem latestText?_append (earlier later : List Artifacts) (name : String) :
    latestText? (earlier ++ later) name = (latestText? later name).or (latestText? earlier name) := by
  simp [latestText?, List.findSome?_append]

/-- The first of some generations counts where none behind it has the file. -/
theorem latestText?_cons (artifacts : Artifacts) (rest : List Artifacts) (name : String) :
    latestText? (artifacts :: rest) name =
      (latestText? rest name).or (artifacts.files.lookup name) := by
  simpa using latestText?_append [artifacts] rest name

/-- There is no text exactly if no generation has the file. -/
theorem latestText?_eq_none {generations : List Artifacts} {name : String} :
    latestText? generations name = none ↔
      ∀ artifacts ∈ generations, artifacts.files.lookup name = none := by
  simp [latestText?, List.findSome?_eq_none_iff]

/-- Each file has the text of the last generation that had it. Where none had it, what was there
before is still there: files without a content are not written, and nothing takes away what an
earlier generation wrote. -/
theorem entries_of_writeAll {generations : List Artifacts}
    (hhas : fs.HasDirectory writer.generatedPath location)
    (hwrites : writer.writeAll generations fs = .ok after) :
    after.HasDirectory writer.generatedPath location ∧ ∀ name, after.entry? (location ++ [name]) =
      ((latestText? generations name).map Entry.text).or (fs.entry? (location ++ [name])) := by
  induction generations generalizing fs with
  | nil =>
    obtain rfl := Except.ok.inj hwrites
    exact ⟨hhas, fun _ => rfl⟩
  | cons artifacts rest ih =>
    obtain ⟨middle, paths, hwrite, hrest⟩ := writeAll_cons.mp hwrites
    obtain ⟨hmiddle, -, hentry⟩ := entries_of_write hhas hwrite
    obtain ⟨hafter, hentries⟩ := ih hmiddle hrest
    refine ⟨hafter, fun name => ?_⟩
    rw [hentries, hentry, latestText?_cons]
    cases latestText? rest name <;> rfl

/-- A file that some generation has can be found by its path. -/
theorem ensure_of_writeAll {generations : List Artifacts} {name : String}
    (hhas : fs.HasDirectory writer.generatedPath location)
    (hwrites : writer.writeAll generations fs = .ok after)
    (hname : latestText? generations name ≠ none) :
    ensurePath (Path.join writer.generatedPath name) = .ok () := by
  induction generations generalizing fs with
  | nil => exact absurd rfl hname
  | cons artifacts rest ih =>
    obtain ⟨middle, paths, hwrite, hrest⟩ := writeAll_cons.mp hwrites
    obtain ⟨hmiddle, hfits, -⟩ := entries_of_write hhas hwrite
    cases hlater : latestText? rest name with
    | some text => exact ih hmiddle hrest (by simp [hlater])
    | none =>
      rw [latestText?_cons, hlater, Option.none_or] at hname
      obtain ⟨text, htext⟩ := Option.ne_none_iff_exists'.mp hname
      obtain ⟨before, behind, hfiles, -⟩ := List.lookup_eq_some_iff.mp htext
      exact (hfits (name, text) (by simp [hfiles])).1

/-- The first generation makes the directory, which might as well have been there before. -/
theorem hasDirectory_of_writeAll {generations : List Artifacts} (hsome : generations ≠ [])
    (hwrites : writer.writeAll generations fs = .ok after) :
    ∃ location made, fs.makeDirectories writer.generatedPath = (made, .ok location) ∧
      made.HasDirectory writer.generatedPath location ∧
      writer.writeAll generations made = .ok after := by
  cases generations with
  | nil => exact absurd rfl hsome
  | cons artifacts rest =>
    obtain ⟨middle, paths, hwrite, hrest⟩ := writeAll_cons.mp hwrites
    obtain ⟨location, made, hmake, hhas, -⟩ := placed_of_write hwrite
    rw [write_eq_of_made hmake hhas] at hwrite
    exact ⟨location, made, hmake, hhas, writeAll_cons.mpr ⟨middle, paths, hwrite, hrest⟩⟩

/-- None of the generated files is there when the directory for them has been made. -/
def StartsEmpty (writer : Writer) (fs : FileSystem) : Prop :=
  ∀ name ∈ Artifacts.fileNames,
    (fs.makeDirectories writer.generatedPath).1.lookup? (Path.join writer.generatedPath name) = none

/-- A directory without entries has none of the generated files. -/
theorem startsEmpty_of_listing (hwalk : fs.walk writer.directory = .ok location)
    (hdirectory : fs.isDirectory location = true) (hlisting : fs.listing location = []) :
    writer.StartsEmpty fs := by
  intro name hname
  unfold lookup?
  cases hmake : fs.makeDirectories writer.generatedPath with
  | mk made result =>
    cases hlocate : made.locate (Path.join writer.generatedPath name) with
    | error error => rfl
    | ok place =>
      have hkeeps := keeps_makeDirectories hmake
      have hisName := isName_of_mem_fileNames hname
      -- The path leads through the terraform directory, so the file is below it.
      have hplace := (locate_eq_ok.mp hlocate).2.2
      rw [walk_join hisName.noSlash, bind_eq_ok] at hplace
      obtain ⟨generated, hgenerated, hfollow⟩ := hplace
      rw [generatedPath, walk_join isName_generatedName.noSlash, hkeeps.walk hwalk] at hgenerated
      have hinside := follow_of_isDirectory isName_generatedName (hkeeps.isDirectory hdirectory)
      obtain rfl := Except.ok.inj (hinside.symm.trans hgenerated)
      have hfile := follow_of_isDirectory hisName (isDirectory_of_follow hfollow)
      obtain rfl := Except.ok.inj (hfile.symm.trans hfollow)
      have hother : location ++ [generatedName] ++ [name] ≠ location ++ [generatedName] := by simp
      have hsame := entry?_makeDirectories_join isName_generatedName hwalk hdirectory hother
      rw [← generatedPath, hmake, List.append_assoc] at hsame
      have hnone := entry?_of_listing hlisting (List.cons_ne_nil generatedName [name])
      simpa [Except.toOption] using hsame.trans hnone

/-- What is found of a file behind some generations. -/
theorem lookup?_of_writeAll {generations : List Artifacts} {name : String}
    (hhas : fs.HasDirectory writer.generatedPath location)
    (hwrites : writer.writeAll generations fs = .ok after) (hname : name ∈ Artifacts.fileNames)
    (hensure : ensurePath (Path.join writer.generatedPath name) = .ok ()) :
    after.lookup? (Path.join writer.generatedPath name) =
      ((latestText? generations name).map Entry.text).or
        (fs.lookup? (Path.join writer.generatedPath name)) := by
  have hisName := isName_of_mem_fileNames hname
  obtain ⟨hafter, hentries⟩ := entries_of_writeAll hhas hwrites
  rw [hafter.lookup?_join hisName hensure, hhas.lookup?_join hisName hensure, hentries]

/-- Where no file is in the way at first, the last of some generations could be written alone. -/
theorem fits_last_of_writeAll {earlier : List Artifacts} {last : Artifacts}
    (hhas : fs.HasDirectory writer.generatedPath location)
    (hnone : ∀ name ∈ Artifacts.fileNames, fs.lookup? (Path.join writer.generatedPath name) = none)
    (hwrites : writer.writeAll (earlier ++ [last]) fs = .ok after) :
    Fits writer.generatedPath location last.files fs := by
  intro file hfile
  have hname : file.1 ∈ Artifacts.fileNames :=
    (map_fst_files_sublist last).mem (List.mem_map_of_mem hfile)
  have hensure : ensurePath (Path.join writer.generatedPath file.1) = .ok () := by
    refine ensure_of_writeAll hhas hwrites fun hlacking => ?_
    have hlast := latestText?_eq_none.mp hlacking last (List.mem_append_right _ List.mem_cons_self)
    simpa using List.lookup_eq_none_iff.mp hlast file hfile
  have hentry := hnone file.1 hname
  rw [hhas.lookup?_join (isName_of_mem_fileNames hname) hensure] at hentry
  exact ⟨hensure, by simp [isDirectory, hentry]⟩

/-- Several generations leave what the last of them leaves alone, unless an earlier one has a file
that the last one lacks. -/
theorem writeAll_eq_alone_iff {earlier : List Artifacts} {last : Artifacts}
    (hempty : writer.StartsEmpty fs)
    (hwrites : writer.writeAll (earlier ++ [last]) fs = .ok after) :
    ∃ alone, writer.writeAll [last] fs = .ok alone ∧
      ((∀ name ∈ Artifacts.fileNames, after.lookup? (Path.join writer.generatedPath name) =
          alone.lookup? (Path.join writer.generatedPath name)) ↔
        ∀ name ∈ Artifacts.fileNames, last.files.lookup name = none →
          ∀ artifacts ∈ earlier, artifacts.files.lookup name = none) := by
  obtain ⟨location, made, hmake, hhas, hgenerations⟩ :=
    hasDirectory_of_writeAll (by simp) hwrites
  have hnone (name : String) (hname : name ∈ Artifacts.fileNames) :
      made.lookup? (Path.join writer.generatedPath name) = none := by
    have hmissing := hempty name hname
    rwa [hmake] at hmissing
  -- Both histories start from the file system in which the directory has been made.
  obtain ⟨staged, hlast⟩ := write_of_fits hhas (fits_last_of_writeAll hhas hnone hgenerations)
  have halone : writer.writeAll [last] made = .ok { place location last.files made with staged } :=
    writeAll_cons.mpr ⟨_, _, hlast, rfl⟩
  refine ⟨{ place location last.files made with staged }, ?_, ?_⟩
  · exact writeAll_cons.mpr ⟨_, _, (write_eq_of_made hmake hhas last).trans hlast, rfl⟩
  · refine forall₂_congr fun name hname => ?_
    rw [← latestText?_eq_none]
    by_cases hensure : ensurePath (Path.join writer.generatedPath name) = .ok ()
    · rw [lookup?_of_writeAll hhas hgenerations hname hensure,
        lookup?_of_writeAll hhas halone hname hensure, hnone name hname, latestText?_append,
        latestText?_singleton]
      cases last.files.lookup name <;> cases latestText? earlier name <;> simp
    · -- No generation has a file whose path is too long, so none is found either way.
      rw [lookup?_of_not_ensurePath hensure, lookup?_of_not_ensurePath hensure]
      refine iff_of_true rfl fun hlack => ?_
      refine Classical.byContradiction fun hsome => hensure (ensure_of_writeAll hhas hgenerations ?_)
      rwa [latestText?_append, latestText?_singleton, hlack, Option.none_or]

/-- A generation with a variable and an output. -/
def sizedArtifacts : Artifacts where
  main := "terraform \x7b\n\x7d\n"
  declarations := "variable \"size\" \x7b\n\x7d\n"
  outputs := "output \"id\" \x7b\n\x7d\n"

/-- A generation with nothing but the main file. -/
def bareArtifacts : Artifacts where
  main := "terraform \x7b\n\x7d\n"
  declarations := ""
  outputs := ""

/-- The writer below the working directory. -/
def localWriter : Writer where
  directory := "."

/-- The writer below the working directory finds nothing there at first. -/
theorem startsEmpty_localWriter : localWriter.StartsEmpty FileSystem.standard := by
  have hlisting : FileSystem.standard.listing ["work"] = [] := by
    simp [FileSystem.listing, FileSystem.standard, OrderedMap.ofList, OrderedMap.empty,
      OrderedMap.setEntry]
  exact startsEmpty_of_listing rfl (by decide) hlisting

/-- A generation with all files leaves nothing of one with fewer files. -/
theorem bareThenSized_eq_alone :
    localWriter.StartsEmpty FileSystem.standard ∧ ∃ after alone,
      localWriter.writeAll [bareArtifacts, sizedArtifacts] FileSystem.standard = .ok after ∧
        localWriter.writeAll [sizedArtifacts] FileSystem.standard = .ok alone ∧
        ∀ name ∈ Artifacts.fileNames, after.lookup? (Path.join localWriter.generatedPath name) =
          alone.lookup? (Path.join localWriter.generatedPath name) := by
  obtain ⟨after, hwrites⟩ : ∃ after, localWriter.writeAll ([bareArtifacts] ++ [sizedArtifacts])
      FileSystem.standard = .ok after := ⟨_, rfl⟩
  obtain ⟨alone, halone, hsame⟩ := writeAll_eq_alone_iff startsEmpty_localWriter hwrites
  exact ⟨startsEmpty_localWriter, after, alone, hwrites, halone, hsame.mpr (by decide)⟩

/-- The variable and the output of the first generation are still there after the second, which has
neither. -/
theorem sizedThenBare_keeps_files :
    localWriter.StartsEmpty FileSystem.standard ∧ ∃ after alone,
      localWriter.writeAll [sizedArtifacts, bareArtifacts] FileSystem.standard = .ok after ∧
        localWriter.writeAll [bareArtifacts] FileSystem.standard = .ok alone ∧
        after.lookup? "./generated/variables.tf" = some (.text sizedArtifacts.declarations) ∧
        after.lookup? "./generated/outputs.tf" = some (.text sizedArtifacts.outputs) ∧
        alone.lookup? "./generated/variables.tf" = none ∧
        alone.lookup? "./generated/outputs.tf" = none := by
  refine ⟨startsEmpty_localWriter, _, _, rfl, rfl, ?_, ?_, ?_, ?_⟩
  · decide
  · decide
  · decide
  · decide

end TerraStack.Writer
