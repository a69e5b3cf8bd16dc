import TerraStack.Hcl.Value
import TerraStack.Text.Blank

namespace TerraStack.Hcl

/-- A letter or a digit of any script. Beyond ASCII nothing but white space is excluded. -/
def isLetterOrDigit (c : Char) : Bool :=
  c.isAlphanum || (127 < c.toNat && !Text.isBlank c)

/-- Whether a text consists of letters, digits and some other characters. -/
def isWordOver (others : List Char) (text : String) : Bool :=
  text.toList.all fun c => isLetterOrDigit c || others.contains c

/-- Whether a text between quotes ends with the second quote and on the same line. -/
def needsNoEscape (text : String) : Bool :=
  text.toList.all fun c => !(['"', '\\', '\n', '\r'].contains c)

namespace Value

mutual

/-- Whether the strings of a value need no escapes, and its references and names are words. The
literal of a plain value holds no character by which a reader could be misled: what is not quoted is
made of words. -/
def isPlain : Value → Bool
  | .string text => if isReference text then isWordOver ['_', '.'] text else needsNoEscape text
  | .list items => arePlain items
  | .map entries => havePlainEntries entries
  | .null | .bool _ | .integer _ | .float _ => true

/-- Whether all of some values are plain. -/
def arePlain : List Value → Bool
  | [] => true
  | item :: rest => item.isPlain && arePlain rest

/-- Whether the names of all entries are words and their values are plain. -/
def havePlainEntries : List (String × Value) → Bool
  | [] => true
  | (name, value) :: rest =>
    isWordOver ['_', '-', '.'] name && value.isPlain && havePlainEntries rest

end

end Value

/-- The characters of words, numbers and references. -/
def isWordChar (c : Char) : Bool :=
  isLetterOrDigit c || ['_', '-', '.'].contains c

/-- The characters that mean something to a reader of values, and white space. -/
def meaningfulChars : List Char :=
  ['"', '\\', '#', '/', '=', '<', '\x7b', '\x7d', '[', ']', '(', ')'] ++ Text.blanks

/-- No character of a word means anything to a reader. -/
theorem not_mem_meaningfulChars {c : Char} (hc : isWordChar c = true) : c ∉ meaningfulChars := by
  intro hmem
  have hnone : (meaningfulChars.all fun c => !isWordChar c) = true := by decide
  simpa [hc] using List.all_eq_true.mp hnone c hmem

/-- Text without characters that mean something to a reader. -/
def IsBare (text : List Char) : Prop :=
  ∀ c ∈ text, c ∉ meaningfulChars

instance (text : List Char) : Decidable (IsBare text) :=
  decidable_of_iff (text.all (fun c => decide (c ∉ meaningfulChars)) = true) (by simp [IsBare])

/-- Words are bare text. -/
theorem isBare_of_word {text : List Char} (htext : ∀ c ∈ text, isWordChar c = true) : IsBare text :=
  fun c hc => not_mem_meaningfulChars (htext c hc)

theorem isWordChar_of_isDigit {c : Char} (hc : c.isDigit = true) : isWordChar c = true := by
  simp [isWordChar, isLetterOrDigit, Char.isAlphanum, hc]

/-- A text over some of the marks that words may have consists of characters of words. -/
theorem isWordChar_of_isWordOver {others : List Char} (hothers : others ⊆ ['_', '-', '.'])
    {text : String} (htext : isWordOver others text = true) {c : Char} (hc : c ∈ text.toList) :
    isWordChar c = true := by
  have hword := List.all_eq_true.mp htext c hc
  rw [Bool.or_eq_true] at hword
  unfold isWordChar
  rw [Bool.or_eq_true]
  exact hword.imp_right fun hother => by
    rw [List.contains_iff_mem] at hother ⊢
    exact hothers hother

theorem toList_quote (text : String) : (quote text).toList = '"' :: (text.toList ++ ['"']) := by
  simp [quote]

/-- A reference starts as one of the four namespaces does. -/
theorem head?_of_isReference {text : String} (htext : isReference text = true) :
    ∃ c ∈ ['v', 'l', 'd', 'm'], text.toList.head? = some c := by
  obtain ⟨start, hstart, hbegins⟩ := List.any_eq_true.mp htext
  obtain ⟨rest, hrest⟩ := Option.isSome_iff_exists.mp hbegins
  rw [Text.afterStart?_eq_some_iff] at hrest
  have hletters : ∀ start ∈ referencePrefixes, ∃ c ∈ ['v', 'l', 'd', 'm'],
      start.toList.head? = some c := by
    simp only [referencePrefixes, List.forall_mem_cons]
    exact ⟨⟨'v', by decide, rfl⟩, ⟨'l', by decide, rfl⟩, ⟨'d', by decide, rfl⟩, ⟨'m', by decide, rfl⟩,
      nofun⟩
  obtain ⟨c, hc, hhead⟩ := hletters start hstart
  refine ⟨c, hc, ?_⟩
  rw [hrest, List.head?_append, hhead]
  rfl

theorem ne_nil_of_isReference {text : String} (htext : isReference text = true) :
    text.toList ≠ [] := by
  obtain ⟨c, -, hhead⟩ := head?_of_isReference htext
  intro hnil
  simp [hnil] at hhead

/-- Text that is not empty and has word characters only. -/
structure IsWord (text : List Char) : Prop where
  ne_nil : text ≠ []
  all : ∀ c ∈ text, isWordChar c = true

theorem isWord_of_all {text : List Char} (hnil : text ≠ []) (hall : text.all isWordChar = true) :
    IsWord text :=
  ⟨hnil, List.all_eq_true.mp hall⟩

/-- A word with more characters of words is a word. -/
theorem IsWord.append {text more : List Char} (htext : IsWord text)
    (hmore : ∀ c ∈ more, isWordChar c = true) : IsWord (text ++ more) where
  ne_nil := by simp [htext.ne_nil]
  all c hc := (List.mem_append.mp hc).elim (htext.all c) (hmore c)

theorem isWord_natToString (n : Nat) : IsWord (toString n).toList := by
  rw [Nat.toString_eq_ofList_toDigits, String.toList_ofList]
  exact ⟨Nat.toDigits_ne_nil,
    fun c hc => isWordChar_of_isDigit (Nat.isDigit_of_mem_toDigits (by decide) (by decide) hc)⟩

/-- The text of an integer is a word, with its sign or without. -/
theorem isWord_intToString (n : Int) : IsWord (toString n).toList := by
  cases n with
  | ofNat n => exact isWord_natToString n
  | negSucc n =>
    have htext : (toString (Int.negSucc n)).toList = ['-'] ++ (toString (n + 1)).toList := by
      simp [toString, Int.repr]
    have hsign : IsWord ['-'] := isWord_of_all nofun (by decide)
    rw [htext]
    exact hsign.append (isWord_natToString (n + 1)).all

open Decimal

theorem isWordChar_of_mem_zeros {count : Nat} {c : Char} (hc : c ∈ (zeros count).toList) :
    isWordChar c = true := by
  rw [zeros, String.toList_ofList] at hc
  obtain ⟨-, rfl⟩ := List.mem_replicate.mp hc
  decide

/-- Digits with a point are a word, wherever the point is. -/
theorem isWord_positional {digits : String} (hdigits : IsWord digits.toList) (point : Int) :
    IsWord (positional numberLayout digits point).toList := by
  have hunmarked : numberLayout.marksWhole = false := rfl
  unfold positional
  simp only [hunmarked, Bool.false_eq_true, if_false, String.append_empty]
  split
  · rw [String.toList_append]
    exact hdigits.append fun _ => isWordChar_of_mem_zeros
  · split
    · rw [String.toList_append, String.toList_append, String.toList_ofList, List.append_assoc]
      refine ⟨by simp, fun c hc => ?_⟩
      rcases List.mem_append.mp hc with htake | hrest
      · exact hdigits.all c (List.mem_of_mem_take htake)
      · rcases List.mem_append.mp hrest with hpoint | hdrop
        · obtain rfl := List.mem_singleton.mp hpoint
          decide
        · rw [String.toList_ofList] at hdrop
          exact hdigits.all c (List.mem_of_mem_drop hdrop)
    · have hstart : IsWord "0.".toList := isWord_of_all (by decide) (by decide)
      rw [String.toList_append, String.toList_append]
      exact (hstart.append fun _ => isWordChar_of_mem_zeros).append hdigits.all

/-- The text of a number is a word. -/
theorem isWord_write (x : Float) : IsWord (numberLayout.write x).toList := by
  have hsign {negative : Bool} {text : String} (htext : IsWord text.toList) :
      IsWord ((if negative then "-" else "") ++ text).toList := by
    have hminus : IsWord "-".toList := isWord_of_all (by decide) (by decide)
    cases negative with
    | false => simpa using htext
    | true => simpa using hminus.append htext.all
  unfold Layout.write
  simp only
  split
  · exact isWord_of_all (by decide) (by decide)
  · exact hsign (isWord_of_all (by decide) (by decide))
  · exact hsign (isWord_of_all (by decide) (by decide))
  · exact hsign (isWord_positional (isWord_natToString _) _)

end TerraStack.Hcl
