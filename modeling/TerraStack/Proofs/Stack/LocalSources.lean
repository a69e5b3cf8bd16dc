import TerraStack.Proofs.Path.Place
import TerraStack.Stack.Writer

namespace TerraStack

variable {address : String} {writer : Writer}

/-- An address is the way to a directory. -/
def IsLocal (address : String) : Prop :=
  ∃ rest, address = "./" ++ rest ∨ address = "../" ++ rest

/-- The source that is made of an address. -/
inductive Addressed (address : String) : Source → Prop where
  | below {rest : String} (haddress : address = "./" ++ rest) :
      Addressed address ⟨.directory, "../" ++ rest⟩
  | above {rest : String} (haddress : address = "../" ++ rest) :
      Addressed address ⟨.directory, "../" ++ address⟩
  | elsewhere {kind : SourceKind} (hkind : kind ≠ .directory) (hother : ¬ IsLocal address) :
      Addressed address ⟨kind, address⟩

/-- Every address makes a source of one of these kinds. -/
theorem addressed_ofAddress (address : String) : Addressed address (.ofAddress address) := by
  unfold Source.ofAddress
  split
  · next rest hrest => exact .below (Text.eq_append_of_afterStart? hrest)
  · next hnotBelow =>
    split
    · next habove =>
      obtain ⟨rest, hrest⟩ := Text.startsWith_iff.mp habove
      exact .above hrest
    · next hnotAbove =>
      have hother : ¬ IsLocal address := by
        rintro ⟨rest, hbelow | habove⟩
        · have hstarts : Text.startsWith "./" address = true := Text.startsWith_iff.mpr ⟨rest, hbelow⟩
          rw [Text.startsWith, hnotBelow] at hstarts
          cases hstarts
        · exact hnotAbove (Text.startsWith_iff.mpr ⟨rest, habove⟩)
      -- The other kinds differ in nothing but their names.
      split
      · exact .elsewhere (by decide) hother
      · split
        · exact .elsewhere (by decide) hother
        · exact .elsewhere (by decide) hother

theorem parts_below (rest : String) : Path.parts ("./" ++ rest) = "." :: Path.parts rest := by
  simp [Path.parts, Path.splitSlashes]

theorem parts_above (rest : String) : Path.parts ("../" ++ rest) = ".." :: Path.parts rest := by
  simp [Path.parts, Path.splitSlashes]

theorem isAbsolute_below (rest : String) : Path.isAbsolute ("./" ++ rest) = false := by
  simp [Path.isAbsolute]

theorem isAbsolute_above (rest : String) : Path.isAbsolute ("../" ++ rest) = false := by
  simp [Path.isAbsolute]

/-- One step up from the generated files is where their directory was made. -/
theorem parent_place_generatedPath (writer : Writer) :
    (Path.place writer.generatedPath).parent = Path.place writer.directory := by
  have hrelative : Path.isAbsolute generatedName = false := by decide
  have hparts : Path.parts generatedName = [generatedName] := by decide
  rw [Writer.generatedPath, Path.place_join hrelative, hparts, List.foldl_cons, List.foldl_nil]
  exact Path.Place.parent_follow_name (by decide) (by decide)

/-- What is read one step up from the generated files is read where their directory was made. -/
theorem place_join_above (writer : Writer) (rest : String) :
    Path.place (Path.join writer.generatedPath ("../" ++ rest)) =
      (Path.parts rest).foldl Path.Place.follow (Path.place writer.directory) := by
  rw [Path.place_join (isAbsolute_above rest), parts_above, List.foldl_cons, Path.Place.follow_dots,
    parent_place_generatedPath]

/-- What becomes of an address in the generated files. The stack file names a directory by the way
from where it lies itself, and the generated files by the way from their own directory, which is one
step further down. -/
structure Relocates (address : String) (source : Source) : Prop where
  directory_iff : source.kind = .directory ↔ IsLocal address
  leadsUp : IsLocal address → ∃ rest, source.address = "../" ++ rest
  place_eq : IsLocal address → ∀ writer : Writer,
    Path.place (Path.join writer.generatedPath source.address) =
      Path.place (Path.join writer.directory address)
  address_eq : ¬ IsLocal address → source.address = address

/-- From the directory of the generated files, a way down from the stack file starts one step
further up. -/
theorem relocates_below (rest : String) : Relocates ("./" ++ rest) ⟨.directory, "../" ++ rest⟩ where
  directory_iff := iff_of_true rfl ⟨rest, .inl rfl⟩
  leadsUp _ := ⟨rest, rfl⟩
  place_eq _ writer := by
    rw [place_join_above, Path.place_join (isAbsolute_below rest), parts_below, List.foldl_cons,
      Path.Place.follow_dot]
  address_eq hother := absurd ⟨rest, .inl rfl⟩ hother

theorem relocates_above (rest : String) :
    Relocates ("../" ++ rest) ⟨.directory, "../" ++ ("../" ++ rest)⟩ where
  directory_iff := iff_of_true rfl ⟨rest, .inr rfl⟩
  leadsUp _ := ⟨_, rfl⟩
  place_eq _ writer := by rw [place_join_above, Path.place_join (isAbsolute_above rest)]
  address_eq hother := absurd ⟨rest, .inr rfl⟩ hother

/-- The source of a module keeps its place: from the generated files the way to a directory leads
where it led from the stack file, and what is no such way stays as it is. -/
theorem ofAddress_relocates (address : String) : Relocates address (.ofAddress address) := by
  have haddressed := addressed_ofAddress address
  generalize Source.ofAddress address = source at haddressed
  cases haddressed with
  | @below rest haddress =>
    subst haddress
    exact relocates_below rest
  | @above rest haddress =>
    subst haddress
    exact relocates_above rest
  | elsewhere hkind hother =>
    exact {
      directory_iff := iff_of_false hkind hother
      leadsUp := fun hlocal => absurd hlocal hother
      place_eq := fun hlocal => absurd hlocal hother
      address_eq := fun _ => rfl }

example : Path.place (Path.join "live/generated" (Source.ofAddress "..//../vpc/.").address) =
    ⟨.above 1, ["vpc"]⟩ := by
  decide

end TerraStack
