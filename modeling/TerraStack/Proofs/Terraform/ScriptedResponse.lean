import Mathlib.Data.List.Induction
import TerraStack.Terraform.Script

namespace TerraStack.Text

variable {first second text : String}

/-- Of two texts with which a third one starts, one starts with the other. -/
theorem append_of_startsWith (hfirst : startsWith first text = true)
    (hsecond : startsWith second text = true) :
    (∃ rest, second = first ++ rest) ∨ ∃ rest, first = second ++ rest := by
  obtain ⟨behind, rfl⟩ := startsWith_iff.mp hfirst
  obtain ⟨other, hother⟩ := startsWith_iff.mp hsecond
  have hchars : first.toList ++ behind.toList = second.toList ++ other.toList := by
    rw [← String.toList_append, hother, String.toList_append]
  rcases List.append_eq_append_iff.mp hchars with ⟨rest, hrest, -⟩ | ⟨rest, hrest, -⟩
  · refine .inl ⟨.ofList rest, ?_⟩
    rw [← String.toList_inj, hrest, String.toList_append, String.toList_ofList]
  · refine .inr ⟨.ofList rest, ?_⟩
    rw [← String.toList_inj, hrest, String.toList_append, String.toList_ofList]

/-- What adds nothing to the size of a text is empty. -/
theorem eq_empty_of_size_append {rest : String}
    (hsize : (text ++ rest).utf8ByteSize = text.utf8ByteSize) : rest = "" := by
  rw [String.utf8ByteSize_append] at hsize
  exact String.utf8ByteSize_eq_zero_iff.mp (by omega)

/-- Beginnings of one command line are the same if their sizes are. -/
theorem eq_of_startsWith (hfirst : startsWith first text = true) (hsecond : startsWith second text = true)
    (hsize : first.utf8ByteSize = second.utf8ByteSize) : first = second := by
  rcases append_of_startsWith hfirst hsecond with ⟨rest, rfl⟩ | ⟨rest, rfl⟩
  · rw [eq_empty_of_size_append hsize.symm, String.append_empty]
  · rw [eq_empty_of_size_append hsize, String.append_empty]

/-- Two texts with which a third one starts are as long in characters as in bytes, compared with
each other. -/
theorem length_le_iff_of_startsWith (hfirst : startsWith first text = true)
    (hsecond : startsWith second text = true) :
    first.length ≤ second.length ↔ first.utf8ByteSize ≤ second.utf8ByteSize := by
  rcases append_of_startsWith hfirst hsecond with ⟨rest, rfl⟩ | ⟨rest, rfl⟩
  · simp [String.utf8ByteSize_append]
  · rw [String.length_append, String.utf8ByteSize_append]
    have hlength : rest.length = 0 ↔ rest.utf8ByteSize = 0 := by
      rw [String.length_eq_zero_iff, String.utf8ByteSize_eq_zero_iff]
    omega

end TerraStack.Text

namespace TerraStack.Terraform.Script

variable {responses : List (String × Response)} {commandLine beginning : String}
  {entry next : String × Response}

/-- The entry whose response a command line gets: the command line starts with its beginning, no
longer beginning fits, and no later entry has the same. Beginnings that fit are beginnings of each
other, so they are told apart by their sizes. -/
structure Picked (responses : List (String × Response)) (commandLine : String)
    (entry : String × Response) : Prop where
  fits : Text.startsWith entry.1 commandLine = true
  longest : ∀ other ∈ responses, Text.startsWith other.1 commandLine = true →
    other.1.utf8ByteSize ≤ entry.1.utf8ByteSize
  latest : ∃ earlier later, responses = earlier ++ entry :: later ∧ ∀ other ∈ later, other.1 ≠ entry.1

/-- The entry that is found for a command line. -/
def best? (responses : List (String × Response)) (commandLine : String) : Option (String × Response) :=
  (responses.filter fun entry => Text.startsWith entry.1 commandLine).foldl better none

/-- A script gives the response of the entry that it finds, or else an empty success. -/
theorem responseTo_eq (script : Script) (commandLine : String) :
    script.responseTo commandLine =
      ((best? script.responses commandLine).map Prod.snd).getD (.success "") := rfl

/-- An entry that does not fit changes nothing. -/
theorem best?_append_of_misfit (hmisfit : Text.startsWith next.1 commandLine = false) :
    best? (responses ++ [next]) commandLine = best? responses commandLine := by
  simp [best?, List.filter_append, hmisfit]

/-- An entry that fits is compared with the best one before it. -/
theorem best?_append_of_fit (hfits : Text.startsWith next.1 commandLine = true) :
    best? (responses ++ [next]) commandLine = better (best? responses commandLine) next := by
  simp [best?, List.filter_append, hfits]

namespace Picked

/-- What is picked is an entry of the script. -/
theorem mem (hpicked : Picked responses commandLine entry) : entry ∈ responses := by
  obtain ⟨earlier, later, rfl, -⟩ := hpicked.latest
  exact List.mem_append_right _ List.mem_cons_self

/-- No two entries are picked. -/
theorem unique {other : String × Response} (hpicked : Picked responses commandLine entry)
    (hother : Picked responses commandLine other) : other = entry := by
  have hsize := Nat.le_antisymm (hpicked.longest other hother.mem hother.fits)
    (hother.longest entry hpicked.mem hpicked.fits)
  have hbeginning : other.1 = entry.1 := Text.eq_of_startsWith hother.fits hpicked.fits hsize
  obtain ⟨earlier, later, hresponses, hlatest⟩ := hpicked.latest
  obtain ⟨earlier', later', hresponses', hlatest'⟩ := hother.latest
  -- If one stood before the other, a later entry would have the same beginning.
  rcases List.append_eq_append_iff.mp (hresponses.symm.trans hresponses') with
    ⟨between, -, hbetween⟩ | ⟨between, -, hbetween⟩
  · cases between with
    | nil => exact (List.cons.inj hbetween).1.symm
    | cons first between =>
      have hmem : other ∈ later := by
        rw [(List.cons.inj hbetween).2]
        exact List.mem_append_right _ List.mem_cons_self
      exact absurd hbeginning (hlatest other hmem)
  · cases between with
    | nil => exact (List.cons.inj hbetween).1
    | cons first between =>
      have hmem : entry ∈ later' := by
        rw [(List.cons.inj hbetween).2]
        exact List.mem_append_right _ List.mem_cons_self
      exact absurd hbeginning.symm (hlatest' entry hmem)

/-- An entry stays picked behind which one comes that does not fit or is shorter. -/
theorem append (hpicked : Picked responses commandLine entry)
    (hnext : Text.startsWith next.1 commandLine = true → next.1.utf8ByteSize < entry.1.utf8ByteSize) :
    Picked (responses ++ [next]) commandLine entry where
  fits := hpicked.fits
  longest other hother hfits := by
    rcases List.mem_append.mp hother with hearlier | hlast
    · exact hpicked.longest other hearlier hfits
    · obtain rfl := List.mem_singleton.mp hlast
      exact Nat.le_of_lt (hnext hfits)
  latest := by
    obtain ⟨earlier, later, rfl, hlatest⟩ := hpicked.latest
    refine ⟨earlier, later ++ [next], by simp, fun other hother hsame => ?_⟩
    rcases List.mem_append.mp hother with hlater | hlast
    · exact hlatest other hlater hsame
    · obtain rfl := List.mem_singleton.mp hlast
      have hshorter := hnext (hsame ▸ hpicked.fits)
      rw [hsame] at hshorter
      exact Nat.lt_irrefl _ hshorter

/-- The last entry is picked if it fits and no longer beginning does. -/
theorem last (hfits : Text.startsWith next.1 commandLine = true)
    (hlongest : ∀ other ∈ responses, Text.startsWith other.1 commandLine = true →
      other.1.utf8ByteSize ≤ next.1.utf8ByteSize) : Picked (responses ++ [next]) commandLine next where
  fits := hfits
  longest other hother hotherFits := by
    rcases List.mem_append.mp hother with hearlier | hlast
    · exact hlongest other hearlier hotherFits
    · obtain rfl := List.mem_singleton.mp hlast
      exact Nat.le_refl _
  latest := ⟨responses, [], rfl, nofun⟩

end Picked

/-- What is found is picked, and nothing is found only if nothing fits. -/
theorem best?_spec (responses : List (String × Response)) (commandLine : String) :
    match best? responses commandLine with
    | some entry => Picked responses commandLine entry
    | none => ∀ entry ∈ responses, Text.startsWith entry.1 commandLine = false := by
  -- The induction is on the last entry, which is the one that is compared last.
  induction responses using List.reverseRecOn with
  | nil => exact nofun
  | append_singleton responses next ih =>
    cases hfits : Text.startsWith next.1 commandLine with
    | false =>
      rw [best?_append_of_misfit hfits]
      cases hbest : best? responses commandLine with
      | none =>
        rw [hbest] at ih
        rintro entry hentry
        rcases List.mem_append.mp hentry with hearlier | hlast
        · exact ih entry hearlier
        · rwa [List.mem_singleton.mp hlast]
      | some known =>
        rw [hbest] at ih
        exact ih.append fun hnext => absurd (hfits.symm.trans hnext) nofun
    | true =>
      rw [best?_append_of_fit hfits]
      cases hbest : best? responses commandLine with
      | none =>
        rw [hbest] at ih
        refine .last hfits fun other hother hotherFits => ?_
        exact absurd ((ih other hother).symm.trans hotherFits) nofun
      | some known =>
        rw [hbest] at ih
        have hsize := Text.length_le_iff_of_startsWith ih.fits hfits
        unfold better
        dsimp only
        by_cases hlonger : known.1.length ≤ next.1.length
        · rw [if_pos hlonger]
          refine .last hfits fun other hother hotherFits => ?_
          exact Nat.le_trans (ih.longest other hother hotherFits) (hsize.mp hlonger)
        · rw [if_neg hlonger]
          exact ih.append fun _ => Nat.lt_of_not_le fun hle => hlonger (hsize.mpr hle)

/-- What is found is what is picked. -/
theorem best?_eq_some_iff :
    best? responses commandLine = some entry ↔ Picked responses commandLine entry := by
  have hspec := best?_spec responses commandLine
  cases hbest : best? responses commandLine with
  | none =>
    rw [hbest] at hspec
    refine iff_of_false nofun fun hpicked => ?_
    exact absurd ((hspec entry hpicked.mem).symm.trans hpicked.fits) nofun
  | some known =>
    rw [hbest] at hspec
    refine ⟨fun hsame => Option.some.inj hsame ▸ hspec, fun hpicked => ?_⟩
    rw [hpicked.unique hspec]

/-- Nothing is found exactly if nothing fits. -/
theorem best?_eq_none_iff :
    best? responses commandLine = none ↔
      ∀ entry ∈ responses, Text.startsWith entry.1 commandLine = false := by
  have hspec := best?_spec responses commandLine
  cases hbest : best? responses commandLine with
  | none =>
    rw [hbest] at hspec
    exact iff_of_true rfl hspec
  | some known =>
    rw [hbest] at hspec
    refine iff_of_false nofun fun hmisfits => ?_
    exact absurd ((hmisfits known hspec.mem).symm.trans hspec.fits) nofun

/-- A beginning takes a command line over: the command line starts with it, and its response so far
was not one for a longer beginning. -/
def TakesOver (responses : List (String × Response)) (beginning commandLine : String) : Prop :=
  Text.startsWith beginning commandLine = true ∧
    ∀ entry, Picked responses commandLine entry → entry.1.utf8ByteSize ≤ beginning.utf8ByteSize

/-- An entry that takes a command line over is found for it. -/
theorem best?_of_takesOver (htakes : TakesOver responses beginning commandLine) (response : Response) :
    best? (responses ++ [(beginning, response)]) commandLine = some (beginning, response) := by
  refine best?_eq_some_iff.mpr (.last htakes.1 fun other hother hfits => ?_)
  cases hbest : best? responses commandLine with
  | none => exact absurd ((best?_eq_none_iff.mp hbest other hother).symm.trans hfits) nofun
  | some known =>
    have hpicked := best?_eq_some_iff.mp hbest
    exact Nat.le_trans (hpicked.longest other hother hfits) (htakes.2 known hpicked)

/-- For any other command line the best entry is the one it was. -/
theorem best?_of_not_takesOver (hstays : ¬ TakesOver responses beginning commandLine)
    (response : Response) :
    best? (responses ++ [(beginning, response)]) commandLine = best? responses commandLine := by
  by_cases hfits : Text.startsWith beginning commandLine = true
  · obtain ⟨known, hstays⟩ := not_forall.mp (not_and.mp hstays hfits)
    obtain ⟨hpicked, hlonger⟩ := Classical.not_imp.mp hstays
    rw [best?_eq_some_iff.mpr hpicked]
    exact best?_eq_some_iff.mpr (hpicked.append fun _ => Nat.lt_of_not_le hlonger)
  · exact best?_append_of_misfit (by simpa using hfits)

/-- A command line gets the response of the one entry that is picked for it, and an empty success if
no beginning fits. A response that is added becomes the response of the command lines that its
beginning takes over, and changes nothing for the others. -/
theorem responseTo_longest (script : Script) (commandLine : String) :
    (∀ entry, Picked script.responses commandLine entry → script.responseTo commandLine = entry.2) ∧
    ((∃ entry, Picked script.responses commandLine entry) ∨
      (∀ entry ∈ script.responses, Text.startsWith entry.1 commandLine = false) ∧
        script.responseTo commandLine = .success "") ∧
    ∀ beginning response,
      (TakesOver script.responses beginning commandLine →
        (script.respond beginning response).responseTo commandLine = response) ∧
      (¬ TakesOver script.responses beginning commandLine →
        (script.respond beginning response).responseTo commandLine = script.responseTo commandLine) := by
  refine ⟨fun entry hpicked => ?_, ?_, fun beginning response => ⟨fun htakes => ?_, fun hstays => ?_⟩⟩
  · rw [responseTo_eq, best?_eq_some_iff.mpr hpicked]
    rfl
  · cases hbest : best? script.responses commandLine with
    | some entry => exact .inl ⟨entry, best?_eq_some_iff.mp hbest⟩
    | none =>
      refine .inr ⟨best?_eq_none_iff.mp hbest, ?_⟩
      rw [responseTo_eq, hbest]
      rfl
  · have hbest := best?_of_takesOver htakes response
    rw [responseTo_eq]
    change ((best? (script.responses ++ [(beginning, response)]) commandLine).map Prod.snd).getD _ = _
    rw [hbest]
    rfl
  · have hbest := best?_of_not_takesOver hstays response
    rw [responseTo_eq, responseTo_eq]
    change ((best? (script.responses ++ [(beginning, response)]) commandLine).map Prod.snd).getD _ = _
    rw [hbest]

end TerraStack.Terraform.Script
