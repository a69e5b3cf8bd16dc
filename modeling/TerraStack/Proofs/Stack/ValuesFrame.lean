import TerraStack.Proofs.Stack.Moving
import TerraStack.Proofs.Stack.ValuesFile
import TerraStack.Proofs.Tfvars.Merge

namespace TerraStack.Writer

open FileSystem

variable {fs after : FileSystem} {writer : Writer} {stack : Stack}

/-- The text that values are merged into: what is there, unless it is not kept or nothing is there. -/
def Existing (writer : Writer) (fs : FileSystem) (existing : Option String) : Prop :=
  (∃ text, writer.preserve = true ∧ fs.readText writer.tfvarsPath = .ok text ∧ existing = some text) ∨
    fs.contains writer.tfvarsPath = false ∧ existing = none

/-- There is nothing to write if neither the stack nor the text that is kept has an entry. -/
theorem render_eq_none_iff {existing : Option String} :
    Tfvars.render stack existing = none ↔ Tfvars.generatedEntries stack = [] ∧
      ∀ text, existing = some text → (Tfvars.parse text).entries = [] := by
  cases existing with
  | none =>
    have hsome := render_none_isSome stack
    rw [← Option.isNone_iff_eq_none, ← Option.not_isSome, hsome]
    simp
  | some text =>
    rw [Tfvars.render_eq]
    constructor
    · intro hnone
      have hmerged := Tfvars.merged_eq_nil_of_render ((Tfvars.render_eq stack text).trans hnone)
      refine ⟨(List.append_eq_nil_iff.mp hmerged.1).1, fun other hother => ?_⟩
      obtain rfl := Option.some.inj hother
      exact hmerged.2
    · rintro ⟨hgenerated, hread⟩
      have hkept : Tfvars.keptEntries stack text = [] := by
        simp [Tfvars.keptEntries, hread text rfl]
      rw [hgenerated, hkept, if_pos (List.append_nil [])]

/-- What can be read is there. -/
theorem contains_of_readText {path text : String} (hread : fs.readText path = .ok text) :
    fs.contains path = true :=
  contains_of_hasFile (hasFile_of_readText hread)

/-- Nothing is written if there is no entry to write, neither of the stack nor in the text that is
there. -/
theorem Existing.render_eq_none_iff {existing : Option String} (hexisting : writer.Existing fs existing) :
    Tfvars.render stack existing = none ↔ Tfvars.generatedEntries stack = [] ∧
      ((∃ text, writer.preserve = true ∧ fs.readText writer.tfvarsPath = .ok text ∧
          (Tfvars.parse text).entries = []) ∨ fs.contains writer.tfvarsPath = false) := by
  rw [Writer.render_eq_none_iff]
  refine and_congr_right fun _ => ?_
  rcases hexisting with ⟨text, hpreserve, hread, rfl⟩ | ⟨hmissing, rfl⟩
  · constructor
    · intro hempty
      exact .inl ⟨text, hpreserve, hread, hempty text rfl⟩
    · rintro (⟨other, -, hother, hempty⟩ | hmissing)
      · obtain rfl := Except.ok.inj (hread.symm.trans hother)
        intro same hsame
        exact Option.some.inj hsame ▸ hempty
      · cases hmissing.symm.trans (contains_of_readText hread)
  · exact iff_of_true nofun (.inr hmissing)

/-- To write one file puts it into its place and changes nothing else. -/
theorem places_of_writeOne {directory name content : String} (hname : IsName name)
    (hwrite : writeOne directory name content fs = (after, .ok ())) :
    Places directory [(name, content)] fs after := by
  rw [writeOne_eq] at hwrite
  split at hwrite
  · cases hwrite
  · next made location hmake =>
    obtain ⟨rfl, houtcome⟩ := Prod.mk.inj hwrite
    have hplaces : Places directory (movable directory location made [(name, content)]) fs
        (place location (movable directory location made [(name, content)]) made) :=
      places_movable hmake (by simpa using hname) (by simp)
    rwa [outcome_eq_ok_iff.mp houtcome] at hplaces ⊢

/-- Where the file cannot be written, all that has been done is to make its directory. -/
theorem eq_of_writeOne_error {directory name content : String} {error : FileError}
    (hwrite : writeOne directory name content fs = (after, .error error)) :
    (fs.makeDirectories directory).1 = after := by
  rw [writeOne_eq] at hwrite
  split at hwrite
  · next made error hmake =>
    obtain ⟨rfl, -⟩ := Prod.mk.inj hwrite
    rw [hmake]
  · next made location hmake =>
    obtain ⟨rfl, houtcome⟩ := Prod.mk.inj hwrite
    rw [hmake]
    cases hobstacle : obstacle? directory location made (name, content) with
    | none => simp [outcome, hobstacle] at houtcome
    | some error => simp [movable, hobstacle, place]

/-- Where it fails, directories on the way may have been made. -/
theorem addsDirectories_of_writeOne_error {directory name content : String} {error : FileError}
    (hwrite : writeOne directory name content fs = (after, .error error)) :
    AddsDirectories fs after (after.IsOnWay (fs.start directory) (Path.parts directory)) := by
  cases hmake : fs.makeDirectories directory with
  | mk made result =>
    have hafter := eq_of_writeOne_error hwrite
    rw [hmake] at hafter
    exact hafter ▸ addsDirectories_makeDirectories hmake

/-- Every way in which the writing of values can end. -/
inductive WritesValues (writer : Writer) (stack : Stack) (fs : FileSystem) :
    FileSystem → Except FileError (Option String) → Prop where
  | leftAlone (hpreserve : writer.preserve = false) (hthere : fs.contains writer.tfvarsPath = true) :
    WritesValues writer stack fs fs (.ok none)
  | unreadable {error : FileError} (hpreserve : writer.preserve = true)
    (hthere : fs.contains writer.tfvarsPath = true)
    (hread : fs.readText writer.tfvarsPath = .error error) :
    WritesValues writer stack fs fs (.error error)
  | nothing {existing : Option String} (hexisting : writer.Existing fs existing)
    (hrender : Tfvars.render stack existing = none) : WritesValues writer stack fs fs (.ok none)
  | failed {existing : Option String} {content : String} {after : FileSystem} {error : FileError}
    (hexisting : writer.Existing fs existing) (hrender : Tfvars.render stack existing = some content)
    (hwrite : writeOne writer.directory tfvarsName content fs = (after, .error error)) :
    WritesValues writer stack fs after (.error error)
  | written {existing : Option String} {content : String} {after : FileSystem}
    (hexisting : writer.Existing fs existing) (hrender : Tfvars.render stack existing = some content)
    (hwrite : writeOne writer.directory tfvarsName content fs = (after, .ok ())) :
    WritesValues writer stack fs after (.ok (some writer.tfvarsPath))

/-- The text to merge into is the one that is there, unless it is not to be kept. -/
theorem existing_of_existingTfvars {existing : Option String}
    (halone : ¬ (writer.preserve = false ∧ fs.contains writer.tfvarsPath = true))
    (hexisting : writer.existingTfvars fs = .ok existing) : writer.Existing fs existing := by
  unfold existingTfvars at hexisting
  split at hexisting
  · next hkept =>
    obtain ⟨text, hread, rfl⟩ := map_eq_ok.mp hexisting
    rw [Bool.and_eq_true] at hkept
    exact .inl ⟨text, hkept.1, hread, rfl⟩
  · next hnone =>
    refine .inr ⟨?_, (Except.ok.inj hexisting).symm⟩
    cases hpreserve : writer.preserve <;> simp_all

/-- The writing of values ends in one of these ways, for every writer, stack and file system. -/
theorem writesValues_writeTfvars (writer : Writer) (stack : Stack) (fs : FileSystem) :
    WritesValues writer stack fs (writer.writeTfvars stack fs).1 (writer.writeTfvars stack fs).2 := by
  unfold writeTfvars
  by_cases halone : writer.preserve = false ∧ fs.contains writer.tfvarsPath = true
  · simp only [halone, Bool.not_false, Bool.and_true, if_true]
    exact .leftAlone halone.1 halone.2
  · have hgoes : (!writer.preserve && fs.contains writer.tfvarsPath) = false := by
      cases hpreserve : writer.preserve <;> simp_all
    rw [hgoes]
    simp only [Bool.false_eq_true, if_false]
    cases hexisting : writer.existingTfvars fs with
    | error error =>
      unfold existingTfvars at hexisting
      split at hexisting
      · next hkept =>
        rw [Bool.and_eq_true] at hkept
        cases hread : fs.readText writer.tfvarsPath with
        | error other =>
          rw [hread] at hexisting
          obtain rfl := Except.error.inj hexisting
          exact .unreadable hkept.1 hkept.2 hread
        | ok text =>
          rw [hread] at hexisting
          cases hexisting
      · cases hexisting
    | ok existing =>
      have hformer := existing_of_existingTfvars halone hexisting
      simp only
      cases hrender : Tfvars.render stack existing with
      | none => exact .nothing hformer hrender
      | some content =>
        simp only
        cases hwrite : writeOne writer.directory tfvarsName content fs with
        | mk after result =>
          cases result with
          | error error => exact .failed hformer hrender hwrite
          | ok => exact .written hformer hrender hwrite

namespace WritesValues

variable {result : Except FileError (Option String)} (hends : WritesValues writer stack fs after result)
include hends

/-- Where nothing is written nothing changes. -/
theorem eq_of_none (hnone : result = .ok none) : after = fs := by
  cases hends with
  | leftAlone | nothing => rfl
  | unreadable | failed | written => cases hnone

/-- Nothing is written where the file is to be left alone, or where neither the stack nor the text
that is kept has an entry. -/
theorem result_eq_none_iff : result = .ok none ↔
    (writer.preserve = false ∧ fs.contains writer.tfvarsPath = true) ∨
      Tfvars.generatedEntries stack = [] ∧ ((∃ text, writer.preserve = true ∧
          fs.readText writer.tfvarsPath = .ok text ∧ (Tfvars.parse text).entries = []) ∨
        fs.contains writer.tfvarsPath = false) := by
  have hwrites {existing : Option String} {content : String} (hexisting : writer.Existing fs existing)
      (hrender : Tfvars.render stack existing = some content) :
      ¬ ((writer.preserve = false ∧ fs.contains writer.tfvarsPath = true) ∨
        Tfvars.generatedEntries stack = [] ∧ ((∃ text, writer.preserve = true ∧
            fs.readText writer.tfvarsPath = .ok text ∧ (Tfvars.parse text).entries = []) ∨
          fs.contains writer.tfvarsPath = false)) := by
    rw [← hexisting.render_eq_none_iff, hrender]
    rintro (⟨halone, hthere⟩ | hnone)
    · rcases hexisting with ⟨text, hpreserve, -, -⟩ | ⟨hmissing, -⟩
      · cases halone.symm.trans hpreserve
      · cases hmissing.symm.trans hthere
    · cases hnone
  cases hends with
  | leftAlone hpreserve hthere => exact iff_of_true rfl (.inl ⟨hpreserve, hthere⟩)
  | unreadable hpreserve hthere hread =>
    refine iff_of_false nofun ?_
    rintro (⟨halone, -⟩ | ⟨-, ⟨text, -, htext, -⟩ | hmissing⟩)
    · cases halone.symm.trans hpreserve
    · cases htext.symm.trans hread
    · cases hmissing.symm.trans hthere
  | nothing hexisting hrender =>
    exact iff_of_true rfl (.inr (hexisting.render_eq_none_iff.mp hrender))
  | failed hexisting hrender => exact iff_of_false nofun (hwrites hexisting hrender)
  | written hexisting hrender => exact iff_of_false nofun (hwrites hexisting hrender)

/-- A failure changes no file. Where the directory was there, it changes nothing at all. -/
theorem addsDirectories_of_error {error : FileError} (herror : result = .error error) :
    AddsDirectories fs after (after.IsOnWay (fs.start writer.directory) (Path.parts writer.directory)) ∧
      ∀ location, fs.HasDirectory writer.directory location → after = fs := by
  cases hends with
  | leftAlone | nothing | written => cases herror
  | unreadable => exact ⟨.refl fs _, fun _ _ => rfl⟩
  | failed _ _ hwrite =>
    refine ⟨addsDirectories_of_writeOne_error hwrite, fun location hhas => ?_⟩
    have hmade := eq_of_writeOne_error hwrite
    rwa [hhas.makeDirectories_fst, eq_comm] at hmade

/-- A text that is to be kept and cannot be read ends the attempt. -/
theorem unreadable_fails {error : FileError} (hpreserve : writer.preserve = true)
    (hthere : fs.contains writer.tfvarsPath = true)
    (hread : fs.readText writer.tfvarsPath = .error error) : after = fs ∧ result = .error error := by
  have hnot {existing : Option String} (hexisting : writer.Existing fs existing) : False := by
    rcases hexisting with ⟨text, -, htext, -⟩ | ⟨hmissing, -⟩
    · cases htext.symm.trans hread
    · cases hmissing.symm.trans hthere
  cases hends with
  | leftAlone halone => cases halone.symm.trans hpreserve
  | unreadable _ _ hother =>
    obtain rfl := Except.error.inj (hother.symm.trans hread)
    exact ⟨rfl, rfl⟩
  | nothing hexisting => exact (hnot hexisting).elim
  | failed hexisting => exact (hnot hexisting).elim
  | written hexisting => exact (hnot hexisting).elim

/-- The path that is returned has what is rendered, and nothing else has changed. -/
theorem places_of_some {path : String} (hpath : result = .ok (some path)) :
    path = writer.tfvarsPath ∧ ∃ existing content, writer.Existing fs existing ∧
      Tfvars.render stack existing = some content ∧
      Places writer.directory [(tfvarsName, content)] fs after := by
  cases hends with
  | leftAlone | unreadable | nothing | failed => cases hpath
  | written hexisting hrender hwrite =>
    exact ⟨(Option.some.inj (Except.ok.inj hpath)).symm, _, _, hexisting, hrender,
      places_of_writeOne isName_tfvarsName hwrite⟩

end WritesValues

/-- Where no path is returned no file changes: nothing at all if there was nothing to write or if
what is there cannot be read, and nothing but directories on the way to the file if it cannot be
written. Where a path is returned, the file there holds what is rendered, and nothing else has
changed. -/
theorem writeTfvars_frame (writer : Writer) (stack : Stack) (fs : FileSystem) :
    ((writer.writeTfvars stack fs).2 = .ok none → (writer.writeTfvars stack fs).1 = fs) ∧
    ((writer.writeTfvars stack fs).2 = .ok none ↔
      (writer.preserve = false ∧ fs.contains writer.tfvarsPath = true) ∨
        Tfvars.generatedEntries stack = [] ∧ ((∃ text, writer.preserve = true ∧
            fs.readText writer.tfvarsPath = .ok text ∧ (Tfvars.parse text).entries = []) ∨
          fs.contains writer.tfvarsPath = false)) ∧
    (∀ error, (writer.writeTfvars stack fs).2 = .error error →
      AddsDirectories fs (writer.writeTfvars stack fs).1 ((writer.writeTfvars stack fs).1.IsOnWay
        (fs.start writer.directory) (Path.parts writer.directory)) ∧
      ∀ location, fs.HasDirectory writer.directory location → (writer.writeTfvars stack fs).1 = fs) ∧
    (∀ error, writer.preserve = true → fs.contains writer.tfvarsPath = true →
      fs.readText writer.tfvarsPath = .error error → writer.writeTfvars stack fs = (fs, .error error)) ∧
    ∀ path, (writer.writeTfvars stack fs).2 = .ok (some path) →
      path = writer.tfvarsPath ∧ ∃ content,
        ((∃ text, writer.preserve = true ∧ fs.readText path = .ok text ∧
            Tfvars.render stack (some text) = some content) ∨
          fs.contains path = false ∧ Tfvars.render stack none = some content) ∧
        (writer.writeTfvars stack fs).1.lookup? path = some (.text content) ∧
        Places writer.directory [(tfvarsName, content)] fs (writer.writeTfvars stack fs).1 := by
  have hends := writesValues_writeTfvars writer stack fs
  refine ⟨hends.eq_of_none, hends.result_eq_none_iff, fun _ => hends.addsDirectories_of_error,
    fun error hpreserve hthere hread => ?_, fun path hpath => ?_⟩
  · obtain ⟨hafter, hresult⟩ := hends.unreadable_fails hpreserve hthere hread
    exact Prod.ext hafter hresult
  · obtain ⟨rfl, existing, content, hexisting, hrender, hplaces⟩ := hends.places_of_some hpath
    have hplaced := hplaces.placed _ (List.mem_singleton_self (tfvarsName, content))
    refine ⟨rfl, content, ?_, hplaced, hplaces⟩
    rcases hexisting with ⟨text, hpreserve, hread, rfl⟩ | ⟨hmissing, rfl⟩
    · exact .inl ⟨text, hpreserve, hread, hrender⟩
    · exact .inr ⟨hmissing, hrender⟩

/-- A file where the way to the terraform directory should go on. -/
def cutOffFiles : FileSystem :=
  FileSystem.standard.put ["work", "notes"] (.text "")

/-- A writer whose directory would be below that file, behind one that is missing. -/
def cutOffWriter : Writer where
  directory := "new/../notes/stack"

/-- A stack with a region. -/
def regionalValues : Stack where
  topLevel := .ofList [("region", .string "eu-west-1")]

/-- The values cannot be written, and the missing directory has been made all the same. -/
theorem cutOffWriter_makes_directory :
    (cutOffWriter.writeTfvars regionalValues cutOffFiles).2 = .error .exists ∧
      cutOffFiles.lookup? "new" = none ∧
      (cutOffWriter.writeTfvars regionalValues cutOffFiles).1.lookup? "new" = some .directory := by
  refine ⟨?_, ?_, ?_⟩
  · decide
  · decide
  · decide

end TerraStack.Writer
