import TerraStack.Proofs.Stack.Placing

namespace TerraStack

namespace FileSystem

variable {fs after : FileSystem} {path : String}

/-- Whether a file, and no directory, is where a path leads. -/
def hasFile (fs : FileSystem) (path : String) : Bool :=
  (fs.lookup? path).any (· ≠ .directory)

/-- There is a file at a path if it leads to what is no directory. -/
theorem hasFile_iff : fs.hasFile path = true ↔
    ∃ location entry, fs.locate path = .ok location ∧ fs.entry? location = some entry ∧
      entry ≠ .directory := by
  unfold hasFile lookup?
  cases hlocate : fs.locate path with
  | error error => simp [Except.toOption]
  | ok location => cases hentry : fs.entry? location <;> simp [Except.toOption, hentry]

/-- Where all files stay files, the file at a path is still there. -/
theorem Keeps.hasFile (hkeeps : Keeps fs after) (hfile : fs.hasFile path = true) :
    after.hasFile path = true := by
  obtain ⟨location, entry, hlocate, hentry, hkind⟩ := hasFile_iff.mp hfile
  obtain ⟨hsome, hensure, hwalk⟩ := locate_eq_ok.mp hlocate
  obtain ⟨new, hnew, hsame⟩ := hkeeps.kind location entry hentry
  exact hasFile_iff.mpr ⟨location, new, locate_eq_ok.mpr ⟨hsome, hensure, hkeeps.walk hwalk⟩, hnew,
    fun hdirectory => hkind (hsame.mp hdirectory)⟩

/-- Where there is a file there is something. -/
theorem contains_of_hasFile (hfile : fs.hasFile path = true) : fs.contains path = true := by
  obtain ⟨location, entry, hlocate, hentry, -⟩ := hasFile_iff.mp hfile
  simp [contains, lookup?, hlocate, hentry, Except.toOption]

/-- What can be read is a file. -/
theorem hasFile_of_readText {text : String} (hread : fs.readText path = .ok text) :
    fs.hasFile path = true := by
  obtain ⟨bytes, hbytes, -⟩ := bind_eq_ok.mp hread
  obtain ⟨location, hlocate, hentry⟩ := bind_eq_ok.mp hbytes
  cases hfound : fs.entry? location with
  | none => simp [hfound] at hentry
  | some entry =>
    refine hasFile_iff.mpr ⟨location, entry, hlocate, hfound, ?_⟩
    rintro rfl
    simp [hfound, Entry.bytes?] at hentry

end FileSystem

namespace Writer

open FileSystem

variable {fs after : FileSystem} {writer : Writer} {stack : Stack}

/-- What has been written is there. -/
theorem hasFile_of_writeOne {directory name content : String} (hname : IsName name)
    (hwrite : writeOne directory name content fs = (after, .ok ())) :
    after.hasFile (Path.join directory name) = true := by
  unfold writeOne at hwrite
  split at hwrite
  · cases hwrite
  · next made location hmake =>
    obtain ⟨hensure, hwalk⟩ := walk_of_makeDirectories hmake
    split at hwrite
    · cases hwrite
    · next hstage =>
      have hdirectory := isDirectory_of_stageAll (List.cons_ne_nil _ _) hstage
      have hhas : made.HasDirectory directory location := ⟨hensure, hwalk, hdirectory⟩
      obtain ⟨hfits, hkeeps, hentries⟩ := fits_of_placed hhas (by simp) hstage hwrite
      have hpath := (hfits (name, content) List.mem_cons_self).1
      have hentry : after.entry? (location ++ [name]) = some (.text content) := by
        simp [hentries]
      simp [hasFile, (hhas.of_keeps hkeeps).lookup?_join hname hpath, hentry]

theorem isName_tfvarsName : IsName tfvarsName where
  noSlash := by decide
  ne_empty := by decide
  ne_dot := by decide
  ne_dots := by decide
  short := by decide

/-- Without a text to keep, values are rendered exactly if the stack generates an entry. -/
theorem render_none_isSome (stack : Stack) :
    (Tfvars.render stack none).isSome = !(Tfvars.generatedEntries stack).isEmpty := by
  have hmerged : Tfvars.mergedEntries stack none = Tfvars.generatedEntries stack := by
    simp [Tfvars.mergedEntries]
  unfold Tfvars.render
  rw [hmerged]
  cases Tfvars.generatedEntries stack <;> rfl

/-- Where nothing was, there is a file if the stack generates an entry. -/
theorem hasFile_of_writeTfvars_of_missing {written : Option String}
    (hcontains : fs.contains writer.tfvarsPath = false)
    (hwrite : writer.writeTfvars stack fs = (after, .ok written)) :
    after.hasFile writer.tfvarsPath = !(Tfvars.generatedEntries stack).isEmpty := by
  have hexisting : writer.existingTfvars fs = .ok none := by simp [existingTfvars, hcontains]
  rw [← render_none_isSome]
  simp only [writeTfvars, hcontains, Bool.and_false, Bool.false_eq_true, if_false, hexisting] at hwrite
  cases hrender : Tfvars.render stack none with
  | none =>
    simp only [hrender] at hwrite
    obtain ⟨rfl, -⟩ := Prod.mk.inj hwrite
    cases hfile : fs.hasFile writer.tfvarsPath with
    | false => rfl
    | true => exact absurd (contains_of_hasFile hfile) (by simp [hcontains])
  | some content =>
    simp only [hrender] at hwrite
    split at hwrite
    · cases hwrite
    · next hone =>
      obtain ⟨rfl, -⟩ := Prod.mk.inj hwrite
      exact hasFile_of_writeOne isName_tfvarsName hone

/-- A file that was there is there still, and a directory does not become one. -/
theorem hasFile_of_writeTfvars_of_there {written : Option String}
    (hcontains : fs.contains writer.tfvarsPath = true)
    (hwrite : writer.writeTfvars stack fs = (after, .ok written)) :
    after.hasFile writer.tfvarsPath = fs.hasFile writer.tfvarsPath := by
  unfold writeTfvars at hwrite
  rw [hcontains, Bool.and_true] at hwrite
  cases hpreserve : writer.preserve with
  | false =>
    rw [hpreserve] at hwrite
    obtain ⟨rfl, -⟩ := Prod.mk.inj hwrite
    rfl
  | true =>
    simp only [hpreserve, Bool.not_true, Bool.false_eq_true, if_false] at hwrite
    split at hwrite
    · cases hwrite
    · next existing hexisting =>
      -- The text could be read, so what is there is a file.
      simp only [existingTfvars, hpreserve, hcontains, Bool.and_self, if_true] at hexisting
      obtain ⟨text, hread, -⟩ := map_eq_ok.mp hexisting
      have hfile := hasFile_of_readText hread
      rw [hfile]
      split at hwrite
      · obtain ⟨rfl, -⟩ := Prod.mk.inj hwrite
        exact hfile
      · split at hwrite
        · cases hwrite
        · next hone =>
          obtain ⟨rfl, -⟩ := Prod.mk.inj hwrite
          exact hasFile_of_writeOne isName_tfvarsName hone

/-- The file is there behind the writing of values if it was there before, or if nothing was in its
place and the stack generates an entry. -/
theorem hasFile_of_writeTfvars {written : Option String}
    (hwrite : writer.writeTfvars stack fs = (after, .ok written)) :
    after.hasFile writer.tfvarsPath = (fs.hasFile writer.tfvarsPath ||
      !fs.contains writer.tfvarsPath && !(Tfvars.generatedEntries stack).isEmpty) := by
  cases hcontains : fs.contains writer.tfvarsPath with
  | false =>
    have hfile : fs.hasFile writer.tfvarsPath = false :=
      Bool.eq_false_iff.mpr fun hfile => absurd (contains_of_hasFile hfile) (by simp [hcontains])
    rw [hasFile_of_writeTfvars_of_missing hcontains hwrite, hfile]
    rfl
  | true =>
    rw [hasFile_of_writeTfvars_of_there hcontains hwrite, Bool.not_true, Bool.false_and, Bool.or_false]

end Writer
end TerraStack
