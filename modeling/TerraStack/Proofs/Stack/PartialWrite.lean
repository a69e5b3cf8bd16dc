import TerraStack.Proofs.Stack.Generations
import TerraStack.Proofs.Stack.Moving

namespace TerraStack

/-- The file at a location. A directory is no file. -/
def FileSystem.fileAt? (fs : FileSystem) (location : Location) : Option Entry :=
  (fs.entry? location).filter (· ≠ .directory)

namespace Writer

open FileSystem

variable {fs after : FileSystem} {location : Location} {artifacts : Artifacts}

theorem isName_of_mem_files {file : String × String} (hmem : file ∈ artifacts.files) :
    IsName file.1 :=
  isName_of_mem_fileNames ((map_fst_files_sublist artifacts).mem (List.mem_map_of_mem hmem))

/-- Whether a write fails or not, what it changes are directories on the way and the files that are
moved before the first that cannot be. -/
theorem places_write (writer : Writer) (artifacts : Artifacts) (fs : FileSystem) :
    Places writer.generatedPath (moved writer.generatedPath artifacts.files fs) fs
      (writer.write artifacts fs).1 := by
  rw [write_eq]
  unfold moved
  cases hmake : fs.makeDirectories writer.generatedPath with
  | mk made result =>
    cases result with
    | error error => exact places_of_failure hmake
    | ok location =>
      exact places_movable hmake (fun file => isName_of_mem_files) (nodup_files artifacts)

/-- A write succeeds exactly if all of its files get to their places, and returns where they are. -/
theorem write_eq_ok_iff {writer : Writer} {paths : List String} :
    (writer.write artifacts fs).2 = .ok paths ↔
      moved writer.generatedPath artifacts.files fs = artifacts.files ∧
        paths = artifacts.files.map fun file => Path.join writer.generatedPath file.1 := by
  rw [write_eq]
  unfold moved
  cases hmake : fs.makeDirectories writer.generatedPath with
  | mk made result =>
    cases result with
    | error error => exact iff_of_false nofun fun hall => files_ne_nil artifacts hall.1.symm
    | ok location =>
      simp only
      rw [map_eq_ok, ← outcome_eq_ok_iff]
      constructor
      · rintro ⟨⟨⟩, houtcome, rfl⟩
        exact ⟨houtcome, rfl⟩
      · rintro ⟨houtcome, rfl⟩
        exact ⟨(), houtcome, rfl⟩

/-- A path by a name in a directory leads to that name there. -/
theorem eq_of_locate_join {path name : String} {place : Location} (hname : IsName name)
    (hdirectory : fs.locate path = .ok location) (hfile : fs.locate (Path.join path name) = .ok place) :
    place = location ++ [name] := by
  have hwalk := (locate_eq_ok.mp hfile).2.2
  rw [walk_join hname.noSlash, (locate_eq_ok.mp hdirectory).2.2] at hwalk
  have hfollow : fs.follow location name = .ok place := hwalk
  rw [follow_of_isDirectory hname (isDirectory_of_follow hfollow)] at hfollow
  exact (Except.ok.inj hfollow).symm

/-- What is found by a path is at the location to which the path leads. -/
theorem entry?_of_lookup? {path : String} {entry : Entry} (hlookup : fs.lookup? path = some entry) :
    ∃ location, fs.locate path = .ok location ∧ fs.entry? location = some entry := by
  unfold lookup? at hlookup
  cases hlocate : fs.locate path with
  | error error => simp [hlocate, Except.toOption] at hlookup
  | ok location => exact ⟨location, rfl, by simpa [hlocate, Except.toOption] using hlookup⟩

/-- A text at a location is a file. -/
theorem fileAt?_text {text : String} (hentry : fs.entry? location = some (.text text)) :
    fs.fileAt? location = some (.text text) := by
  simp [fileAt?, hentry]

/-- The generated files are as they were exactly if those that were moved have the text that they
had. -/
theorem Places.unchanged_iff {path : String} {moved : List (String × String)}
    (hplaces : Places path moved fs after) (hnames : ∀ file ∈ moved, file.1 ∈ Artifacts.fileNames)
    (hdirectory : after.locate path = .ok location) :
    (∀ name ∈ Artifacts.fileNames,
        after.fileAt? (location ++ [name]) = fs.fileAt? (location ++ [name])) ↔
      ∀ file ∈ moved, fs.entry? (location ++ [file.1]) = some (.text file.2) := by
  have hmoved (file : String × String) (hmem : file ∈ moved) :
      after.entry? (location ++ [file.1]) = some (.text file.2) := by
    obtain ⟨place, hlocate, hentry⟩ := entry?_of_lookup? (hplaces.placed file hmem)
    rwa [eq_of_locate_join (isName_of_mem_fileNames (hnames file hmem)) hdirectory hlocate] at hentry
  constructor
  · intro hsame file hmem
    have hfile := hsame file.1 (hnames file hmem)
    rw [fileAt?_text (hmoved file hmem)] at hfile
    exact (Option.filter_eq_some_iff.mp hfile.symm).1
  · intro hold name hname
    rcases hplaces.entry (location ++ [name]) with hsame | ⟨hnone, hnew, -⟩ | ⟨file, hmem, hlocate⟩
    · simp only [fileAt?, hsame]
    · simp [fileAt?, hnone, hnew]
    · have hplace := eq_of_locate_join (isName_of_mem_fileNames (hnames file hmem)) hdirectory hlocate
      rw [hplace, fileAt?_text (hmoved file hmem), fileAt?_text (hold file hmem)]

/-- The files that get to their places are the first ones. -/
theorem moved_isPrefix (path : String) (contents : List (String × String)) (fs : FileSystem) :
    moved path contents fs <+: contents := by
  unfold moved
  split
  · exact List.nil_prefix
  · exact List.takeWhile_prefix _

/-- A write changes nothing but that directories are made on the way and that the files before the
first obstacle take their places. It succeeds if there is no obstacle. If it fails, the generated
files are as they were exactly if those that took their places have the text that was there. -/
theorem write_unchanged_iff (writer : Writer) (artifacts : Artifacts) (fs : FileSystem) :
    moved writer.generatedPath artifacts.files fs <+: artifacts.files ∧
      Places writer.generatedPath (moved writer.generatedPath artifacts.files fs) fs
        (writer.write artifacts fs).1 ∧
      (∀ paths, (writer.write artifacts fs).2 = .ok paths ↔
        moved writer.generatedPath artifacts.files fs = artifacts.files ∧
          paths = artifacts.files.map fun file => Path.join writer.generatedPath file.1) ∧
      ∀ error, (writer.write artifacts fs).2 = .error error →
        ∀ location, (writer.write artifacts fs).1.locate writer.generatedPath = .ok location →
          ((∀ name ∈ Artifacts.fileNames, (writer.write artifacts fs).1.fileAt? (location ++ [name]) =
              fs.fileAt? (location ++ [name])) ↔
            ∀ file ∈ moved writer.generatedPath artifacts.files fs,
              fs.entry? (location ++ [file.1]) = some (.text file.2)) := by
  have hmoved := moved_isPrefix writer.generatedPath artifacts.files fs
  have hplaces := places_write writer artifacts fs
  refine ⟨hmoved, hplaces, fun _ => write_eq_ok_iff, fun error _ location hdirectory => ?_⟩
  refine hplaces.unchanged_iff (fun file hmem => ?_) hdirectory
  exact (map_fst_files_sublist artifacts).mem (List.mem_map_of_mem (hmoved.mem hmem))

/-- An old main file, and a directory in the place of the declarations. -/
def blockedFiles : FileSystem :=
  ((FileSystem.standard.put ["work", "generated"] .directory).put
    ["work", "generated", "main.tf"] (.text "# old\n")).put
    ["work", "generated", "variables.tf"] .directory

/-- The write fails at the declarations, and the main file is new all the same. -/
theorem blockedFiles_write_replaces_main :
    (localWriter.write sizedArtifacts blockedFiles).2 = .error .isDirectory ∧
      blockedFiles.lookup? "./generated/main.tf" = some (.text "# old\n") ∧
      (localWriter.write sizedArtifacts blockedFiles).1.lookup? "./generated/main.tf" =
        some (.text sizedArtifacts.main) := by
  refine ⟨?_, ?_, ?_⟩
  · decide
  · decide
  · decide

end Writer
end TerraStack
