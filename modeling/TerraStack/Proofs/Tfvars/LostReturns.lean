import TerraStack.Proofs.Tfvars.Stored

namespace TerraStack.Tfvars

open Text (lineChars)

/-- How many carriage returns there are in the texts of some entries, those with given names apart. -/
def returnsBeside (names : List String) (entries : List (String × String)) : Nat :=
  ((entries.filter fun entry => entry.1 ∉ names).flatMap fun entry =>
    (entryText entry).toList).count '\r'

/-- How many carriage returns have been read: those of the entries that do not have given names, and
those of the entry that is open. -/
def Reading.returnsBeside (names : List String) (reading : Reading) : Nat :=
  Tfvars.returnsBeside names reading.entries.entries +
    (reading.open?.map fun entry => entry.text.count '\r').getD 0

/-- The carriage returns of an entry count unless it has one of the names. -/
theorem returnsBeside_cons (names : List String) (entry : String × String)
    (rest : List (String × String)) : returnsBeside names (entry :: rest) =
      (if entry.1 ∈ names then 0 else (entryText entry).toList.count '\r') +
        returnsBeside names rest := by
  unfold returnsBeside
  by_cases hname : entry.1 ∈ names <;> simp [hname, List.count_append]

/-- An entry that is stored takes the place of the one with its name, so its carriage returns are
all that can be added. -/
theorem returnsBeside_setEntry_le (names : List String) (name value : String)
    (entries : List (String × String)) :
    returnsBeside names (OrderedMap.setEntry name value entries) ≤
      returnsBeside names entries + (entryText (name, value)).toList.count '\r' := by
  induction entries with
  | nil =>
    rw [OrderedMap.setEntry, returnsBeside_cons]
    split <;> simp [returnsBeside]
  | cons entry rest ih =>
    unfold OrderedMap.setEntry
    split
    · rw [returnsBeside_cons, returnsBeside_cons]
      dsimp only
      split <;> omega
    · rw [returnsBeside_cons, returnsBeside_cons]
      omega

namespace Reading

variable (names : List String) (reading : Reading)

/-- An entry that is kept brings its own carriage returns at most. -/
theorem returnsBeside_keep_le (entry : OpenEntry) : (reading.keep entry).returnsBeside names ≤
    Tfvars.returnsBeside names reading.entries.entries + entry.text.count '\r' := by
  have htext : (entryText (.ofList entry.name, .ofList entry.value)).toList = entry.text := by
    simp [entryText, OpenEntry.text]
  unfold keep
  split
  · have hstored := returnsBeside_setEntry_le names (.ofList entry.name) (.ofList entry.value)
      reading.entries.entries
    rw [htext] at hstored
    exact hstored
  · exact Nat.le_refl _

/-- A line brings no more carriage returns than it has. -/
theorem returnsBeside_addLine_le (line : List Char) : (reading.addLine line).returnsBeside names ≤
    reading.returnsBeside names + line.count '\r' := by
  unfold addLine
  split
  · next entry hopen =>
    have hkeep := returnsBeside_keep_le names reading (entry.addLine line)
    rw [OpenEntry.text_addLine, List.count_append, List.count_cons_of_ne (by decide)] at hkeep
    have hreading : reading.returnsBeside names = Tfvars.returnsBeside names reading.entries.entries +
        entry.text.count '\r' := by
      simp [returnsBeside, hopen]
    omega
  · next hopen =>
    split
    · next entry hbegin =>
      have hkeep := returnsBeside_keep_le names reading entry
      have hparts := (sublist_of_begin hbegin).count_le '\r'
      have htext : entry.text.count '\r' = (entry.name ++ entry.value).count '\r' := by
        simp [OpenEntry.text, List.count_append]
      have hreading : reading.returnsBeside names =
          Tfvars.returnsBeside names reading.entries.entries := by
        simp [returnsBeside, hopen]
      omega
    · exact Nat.le_add_right _ _

/-- Lines bring no more carriage returns than they have together. -/
theorem returnsBeside_foldl_le (lines : List (List Char)) :
    (lines.foldl addLine reading).returnsBeside names ≤
      reading.returnsBeside names + lines.flatten.count '\r' := by
  induction lines generalizing reading with
  | nil => exact Nat.le_refl _
  | cons line lines ih =>
    have hline := returnsBeside_addLine_le names reading line
    have hlines := ih (reading.addLine line)
    rw [List.foldl_cons, List.flatten_cons, List.count_append]
    omega

end Reading

/-- The text of entries has the carriage returns of each of them. -/
theorem count_return_entriesText (entries : List (String × String)) :
    (entriesText entries).toList.count '\r' =
      (entries.flatMap fun entry => (entryText entry).toList).count '\r' := by
  induction entries with
  | nil => rfl
  | cons entry rest ih =>
    rw [List.flatMap_cons, List.count_append, ← ih]
    by_cases hrest : rest = []
    · subst hrest
      rfl
    · rw [toList_entriesText_cons entry hrest, List.count_append, List.count_cons_of_ne (by decide)]

end TerraStack.Tfvars
