namespace TerraStack.Text

/-- What follows the characters `start` at the start of a text, if it starts with them. -/
def afterStart? : List Char → List Char → Option (List Char)
  | [], cs => some cs
  | _ :: _, [] => none
  | a :: start, c :: cs => if a = c then afterStart? start cs else none

/-- What stands before `ending` at the end of a text, if it ends so. -/
def beforeEnd? (ending text : String) : Option String :=
  (afterStart? ending.toList.reverse text.toList.reverse).map fun cs => .ofList cs.reverse

/-- Whether a text starts with another. -/
def startsWith (start text : String) : Bool :=
  (afterStart? start.toList text.toList).isSome

/-- Whether a text ends with another. -/
def endsWith (ending text : String) : Bool :=
  (beforeEnd? ending text).isSome

/-- What follows a beginning is the rest that makes up the text with it. -/
theorem afterStart?_eq_some_iff {start cs rest : List Char} :
    afterStart? start cs = some rest ↔ cs = start ++ rest := by
  induction start generalizing cs with
  | nil => simp [afterStart?]
  | cons a start ih =>
    cases cs with
    | nil => simp [afterStart?]
    | cons c cs =>
      by_cases h : a = c
      · simp [afterStart?, h, ih]
      · simp [afterStart?, h, Ne.symm h]

/-- The start of a string is what stands in front of some rest. -/
theorem eq_append_of_afterStart? {start text : String} {rest : List Char}
    (hrest : afterStart? start.toList text.toList = some rest) : text = start ++ .ofList rest := by
  rw [← String.toList_inj, afterStart?_eq_some_iff.mp hrest, String.toList_append, String.toList_ofList]

/-- A text starts with its beginnings, each of which some rest completes. -/
theorem startsWith_iff {start text : String} :
    startsWith start text = true ↔ ∃ rest, text = start ++ rest := by
  unfold startsWith
  rw [Option.isSome_iff_exists]
  constructor
  · rintro ⟨cs, hcs⟩
    exact ⟨.ofList cs, eq_append_of_afterStart? hcs⟩
  · rintro ⟨rest, rfl⟩
    exact ⟨rest.toList, afterStart?_eq_some_iff.mpr String.toList_append⟩

/-- What stands before an ending that was put at the end is the text. -/
theorem beforeEnd?_append (text ending : String) : beforeEnd? ending (text ++ ending) = some text := by
  unfold beforeEnd?
  rw [String.toList_append, List.reverse_append, afterStart?_eq_some_iff.mpr rfl, Option.map_some,
    List.reverse_reverse, String.ofList_toList]

/-- What stands before an ending makes up the text with it. -/
theorem beforeEnd?_eq_some_iff {ending text front : String} :
    beforeEnd? ending text = some front ↔ text = front ++ ending := by
  constructor
  · intro hfront
    obtain ⟨cs, hcs, rfl⟩ := Option.map_eq_some_iff.mp hfront
    have hchars := congrArg List.reverse (afterStart?_eq_some_iff.mp hcs)
    rw [List.reverse_reverse, List.reverse_append, List.reverse_reverse] at hchars
    rw [← String.toList_inj, hchars, String.toList_append, String.toList_ofList]
  · rintro rfl
    exact beforeEnd?_append front ending

/-- A text ends with its endings, in front of each of which something stands. -/
theorem endsWith_iff {ending text : String} :
    endsWith ending text = true ↔ ∃ front, text = front ++ ending := by
  unfold endsWith
  rw [Option.isSome_iff_exists]
  exact exists_congr fun _ => beforeEnd?_eq_some_iff

end TerraStack.Text
