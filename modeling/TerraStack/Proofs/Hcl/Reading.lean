import Mathlib.Data.List.Basic
import Mathlib.Data.List.TakeDrop
import TerraStack.Proofs.Hcl.Spelling

namespace TerraStack.Hcl

/-- Whether a string has no quote in it and, where it is a reference, is a word. Strings are written
without escapes and references without quotes, so no other string could be told from its literal. -/
def isLegibleString (text : String) : Bool :=
  if isReference text then isWordOver ['_', '.'] text else !text.toList.contains '"'

namespace Value

mutual

/-- Whether the strings of a value are legible and its names are words. A float is not legible:
whole ones have the literals of integers. -/
def isLegible : Value → Bool
  | .null | .bool _ | .integer _ => true
  | .float _ => false
  | .string text => isLegibleString text
  | .list items => areLegible items
  | .map entries => haveLegibleEntries entries

/-- Whether all of some values are legible. -/
def areLegible : List Value → Bool
  | [] => true
  | item :: rest => item.isLegible && areLegible rest

/-- Whether the names of all entries are words and their values are legible. -/
def haveLegibleEntries : List (String × Value) → Bool
  | [] => true
  | (name, value) :: rest => isWordOver ['_', '-'] name && value.isLegible && haveLegibleEntries rest

end

end Value

/-- The integer that is written with some characters. -/
def integerOf : List Char → Int
  | '-' :: digits => -Nat.ofDigitChars 10 digits 0
  | digits => Nat.ofDigitChars 10 digits 0

/-- The value of which a word is the literal. -/
def Value.ofWord (word : String) : Value :=
  if isReference word then .string word
  else if word = "null" then .null
  else if word = "true" then .bool true
  else if word = "false" then .bool false
  else .integer (integerOf word.toList)

/-- Read a word. -/
def readWord (cs : List Char) : Option (Value × List Char) :=
  match cs.takeWhile isWordChar with
  | [] => none
  | word => some (.ofWord (.ofList word), cs.dropWhile isWordChar)

/-- Read a string of which the first quote has been read. -/
def readString (cs : List Char) : Option (Value × List Char) :=
  match cs.dropWhile (· != '"') with
  | [] => none
  | _ :: rest => some (.string (.ofList (cs.takeWhile (· != '"'))), rest)

mutual

/-- Read a value at the start of a text. What follows the value is left. -/
def readValue : Nat → List Char → Option (Value × List Char)
  | 0, _ | _, [] => none
  | fuel + 1, c :: cs =>
    if c = '"' then readString cs
    else if c = '[' then (readList fuel cs).map fun (items, rest) => (.list items, rest)
    else if c = '\x7b' then (readMap fuel cs).map fun (entries, rest) => (.map entries, rest)
    else readWord (c :: cs)

/-- Read a list of which the first bracket has been read. -/
def readList : Nat → List Char → Option (List Value × List Char)
  | 0, _ => none
  | fuel + 1, cs =>
    match Text.afterStart? "]".toList cs with
    | some rest => some ([], rest)
    | none => do
      let (item, cs) ← readValue fuel cs
      let (items, rest) ← readItems fuel cs
      return (item :: items, rest)

/-- Read items, each behind a comma, and the bracket behind them. -/
def readItems : Nat → List Char → Option (List Value × List Char)
  | 0, _ => none
  | fuel + 1, cs =>
    match Text.afterStart? "]".toList cs with
    | some rest => some ([], rest)
    | none => do
      let cs ← Text.afterStart? ", ".toList cs
      let (item, cs) ← readValue fuel cs
      let (items, rest) ← readItems fuel cs
      return (item :: items, rest)

/-- Read a map of which the first brace has been read. One without entries has an empty line. -/
def readMap : Nat → List Char → Option (List (String × Value) × List Char)
  | 0, _ => none
  | fuel + 1, cs =>
    match Text.afterStart? "\n  \n\x7d".toList cs with
    | some rest => some ([], rest)
    | none => readEntries fuel cs

/-- Read entries, each on a line of its own, and the brace behind them. -/
def readEntries : Nat → List Char → Option (List (String × Value) × List Char)
  | 0, _ => none
  | fuel + 1, cs =>
    match Text.afterStart? "\n\x7d".toList cs with
    | some rest => some ([], rest)
    | none => do
      let cs ← Text.afterStart? "\n  ".toList cs
      let name := String.ofList (cs.takeWhile isWordChar)
      let cs ← Text.afterStart? " = ".toList (cs.dropWhile isWordChar)
      let (value, cs) ← readValue fuel cs
      let (entries, rest) ← readEntries fuel cs
      return ((name, value) :: entries, rest)

end

/-- The value of which a text is the literal. A literal says itself where it ends: a string at its
second quote, a word before the first character that is none of a word, a list or a map at its own
bracket. A reader reads at least one character before it turns to another, so it has steps enough. -/
def Value.read? (text : String) : Option Value :=
  match readValue (text.toList.length + 1) text.toList with
  | some (value, []) => some value
  | _ => none

/-- A text does not go on with the word that stands before it. -/
def EndsWord (rest : List Char) : Prop :=
  ∀ c, rest.head? = some c → isWordChar c = false

theorem endsWord_cons {c : Char} (hc : isWordChar c = false) (rest : List Char) :
    EndsWord (c :: rest) := by
  intro other hother
  cases hother
  exact hc

section span

variable {p : Char → Bool} {part rest : List Char} (hpart : ∀ c ∈ part, p c = true)
  (hrest : ∀ c, rest.head? = some c → p c = false)
include hpart hrest

/-- Characters with a property are taken up to the first one without it, whatever comes behind. -/
theorem takeWhile_append_of_head : (part ++ rest).takeWhile p = part := by
  rw [List.takeWhile_append_of_pos hpart]
  cases rest with
  | nil => simp
  | cons c rest => simp [hrest c rfl]

theorem dropWhile_append_of_head : (part ++ rest).dropWhile p = rest := by
  rw [List.dropWhile_append_of_pos hpart]
  cases rest with
  | nil => rfl
  | cons c rest => simp [hrest c rfl]

end span

theorem head?_natToString (n : Nat) : ∃ c, (toString n).toList.head? = some c ∧ c.isDigit = true := by
  rw [Nat.toString_eq_ofList_toDigits, String.toList_ofList]
  have hhead := List.head?_eq_some_head (Nat.toDigits_ne_nil (b := 10) (n := n))
  refine ⟨_, hhead, ?_⟩
  exact Nat.isDigit_of_mem_toDigits (by decide) (by decide) (List.head_mem _)

/-- An integer starts with a digit or with its sign. -/
theorem head?_intToString (n : Int) :
    ∃ c, (toString n).toList.head? = some c ∧ (c = '-' ∨ c.isDigit = true) := by
  cases n with
  | ofNat n =>
    obtain ⟨c, hhead, hdigit⟩ := head?_natToString n
    exact ⟨c, hhead, .inr hdigit⟩
  | negSucc n =>
    refine ⟨'-', ?_, .inl rfl⟩
    simp [toString, Int.repr]

/-- No number starts with a letter. -/
theorem intToString_ne_of_head {n : Int} {text : String} {c : Char} (htext : text.toList.head? = some c)
    (hsign : c ≠ '-') (hdigit : c.isDigit = false) : toString n ≠ text := by
  intro heq
  obtain ⟨first, hhead, hfirst⟩ := head?_intToString n
  rw [heq, htext] at hhead
  cases hhead
  rcases hfirst with rfl | hfirst
  · exact hsign rfl
  · simp [hdigit] at hfirst

/-- An integer is read from its own digits. -/
theorem integerOf_intToString (n : Int) : integerOf (toString n).toList = n := by
  cases n with
  | ofNat n =>
    have hdigits : (toString (Int.ofNat n)).toList = Nat.toDigits 10 n := by
      simp [toString, Int.repr, Nat.repr]
    obtain ⟨c, hhead, hc⟩ := head?_natToString n
    rw [Nat.toString_eq_ofList_toDigits, String.toList_ofList] at hhead
    rw [hdigits]
    unfold integerOf
    split
    · next heq =>
      rw [heq] at hhead
      cases hhead
      simp at hc
    · rw [Nat.ofDigitChars_ten_toDigits]
      rfl
  | negSucc n =>
    have hdigits : (toString (Int.negSucc n)).toList = '-' :: Nat.toDigits 10 (n + 1) := by
      simp [toString, Int.repr, Nat.repr]
    rw [hdigits, integerOf, Nat.ofDigitChars_ten_toDigits]
    omega

/-- The word of an integer is no keyword and no reference, but that integer. -/
theorem ofWord_intToString (n : Int) : Value.ofWord (toString n) = .integer n := by
  have hreference : isReference (toString n) = false := by
    rw [Bool.eq_false_iff]
    intro htext
    obtain ⟨c, hc, hhead⟩ := head?_of_isReference htext
    have hletters : ∀ c ∈ ['v', 'l', 'd', 'm'], c ≠ '-' ∧ c.isDigit = false :=
      List.forall_iff_forall_mem.mp (by decide)
    obtain ⟨hsign, hdigit⟩ := hletters c hc
    exact intToString_ne_of_head hhead hsign hdigit rfl
  have hnull : toString n ≠ "null" := intToString_ne_of_head (c := 'n') rfl (by decide) (by decide)
  have htrue : toString n ≠ "true" := intToString_ne_of_head (c := 't') rfl (by decide) (by decide)
  have hfalse : toString n ≠ "false" := intToString_ne_of_head (c := 'f') rfl (by decide) (by decide)
  unfold Value.ofWord
  rw [hreference, if_neg Bool.false_ne_true, if_neg hnull, if_neg htrue, if_neg hfalse,
    integerOf_intToString]

/-- A word is read whole, and nothing behind it. -/
theorem readWord_append {word : String} (hword : IsWord word.toList) {rest : List Char}
    (hrest : EndsWord rest) : readWord (word.toList ++ rest) = some (.ofWord word, rest) := by
  unfold readWord
  rw [takeWhile_append_of_head hword.all hrest, dropWhile_append_of_head hword.all hrest]
  split
  · next hnil => exact absurd hnil hword.ne_nil
  · rw [String.ofList_toList]

/-- A string without quotes is read up to the quote behind it. -/
theorem readString_append {text : String} (htext : '"' ∉ text.toList) (rest : List Char) :
    readString (text.toList ++ '"' :: rest) = some (.string text, rest) := by
  have hinside : ∀ c ∈ text.toList, (c != '"') = true := by
    intro c hc
    have hne : c ≠ '"' := fun heq => htext (heq ▸ hc)
    simpa using hne
  have hstop : ∀ c, ('"' :: rest).head? = some c → (c != '"') = false := by
    intro c hc
    cases hc
    rfl
  unfold readString
  rw [dropWhile_append_of_head hinside hstop, takeWhile_append_of_head hinside hstop]
  simp

/-- A value that is spelled as a word is read from it. -/
theorem readValue_word {word : String} (hword : IsWord word.toList) {fuel : Nat} (hfuel : 0 < fuel)
    {rest : List Char} (hrest : EndsWord rest) :
    readValue fuel (word.toList ++ rest) = some (.ofWord word, rest) := by
  have hread := readWord_append hword hrest
  have hchars := hword.all
  obtain ⟨fuel, rfl⟩ : ∃ less, fuel = less + 1 := ⟨fuel - 1, by omega⟩
  cases htext : word.toList with
  | nil => exact absurd htext hword.ne_nil
  | cons c cs =>
    rw [htext, List.cons_append] at hread
    have hc : c ∉ meaningfulChars := not_mem_meaningfulChars (hchars c (htext ▸ List.mem_cons_self))
    have hsign (sign : Char) (hsign : sign ∈ meaningfulChars) : c ≠ sign := fun heq => hc (heq ▸ hsign)
    have hquote := hsign '"' (by decide)
    have hbracket := hsign '[' (by decide)
    have hbrace := hsign '\x7b' (by decide)
    rw [List.cons_append, readValue, if_neg hquote, if_neg hbracket, if_neg hbrace, hread]

/-- A legible string is read from its literal, be it a reference or quoted. -/
theorem readValue_string {text : String} (htext : isLegibleString text = true) {fuel : Nat}
    (hfuel : 0 < fuel) {rest : List Char} (hrest : EndsWord rest) :
    readValue fuel ((Value.formatString text).toList ++ rest) = some (.string text, rest) := by
  unfold isLegibleString at htext
  unfold Value.formatString
  cases hreference : isReference text with
  | true =>
    have hword : IsWord text.toList := by
      refine ⟨ne_nil_of_isReference hreference, ?_⟩
      intro c hc
      rw [if_pos hreference] at htext
      exact isWordChar_of_isWordOver (by decide) htext hc
    have hvalue : Value.ofWord text = .string text := by
      unfold Value.ofWord
      rw [if_pos hreference]
    rw [if_pos rfl, readValue_word hword hfuel hrest, hvalue]
  | false =>
    have hquote : '"' ∉ text.toList := by
      rw [hreference] at htext
      simpa using htext
    obtain ⟨fuel, rfl⟩ : ∃ less, fuel = less + 1 := ⟨fuel - 1, by omega⟩
    have hliteral : (quote text).toList ++ rest = '"' :: (text.toList ++ '"' :: rest) := by
      simp [quote]
    rw [if_neg Bool.false_ne_true, hliteral, readValue, if_pos rfl, readString_append hquote]

/-- Texts one after another, with a separator in front of each. -/
def behindEach (separator : String) (parts : List String) : List Char :=
  parts.flatMap fun part => separator.toList ++ part.toList

theorem toList_join_cons (separator part : String) (rest : List String) :
    (Text.join separator (part :: rest)).toList = part.toList ++ behindEach separator rest := by
  induction rest generalizing part with
  | nil => simp [behindEach]
  | cons next rest ih =>
    rw [Text.join_cons_cons, String.toList_append, String.toList_append, ih]
    simp [behindEach]

theorem behindEach_cons (separator part : String) (rest : List String) :
    behindEach separator (part :: rest) =
      separator.toList ++ part.toList ++ behindEach separator rest :=
  rfl

/-- A word ends at a separator that starts with none of its characters, or else where the text
behind the list ends it. -/
theorem endsWord_behindEach {separator : String} {c : Char}
    (hseparator : separator.toList.head? = some c) (hc : isWordChar c = false) (parts : List String)
    {rest : List Char} (hrest : EndsWord rest) : EndsWord (behindEach separator parts ++ rest) := by
  cases parts with
  | nil => exact hrest
  | cons part parts =>
    intro other hother
    simp only [behindEach, List.flatMap_cons, List.append_assoc, List.head?_append, hseparator] at hother
    cases hother
    exact hc

/-- A value is not read where there is only a bracket. -/
theorem readValue_bracket (fuel : Nat) (rest : List Char) : readValue fuel (']' :: rest) = none := by
  cases fuel with
  | zero => rfl
  | succ fuel =>
    have hword : isWordChar ']' = false := by decide
    simp [readValue, readWord, hword]

/-- A list is its first item and the items behind commas. -/
theorem readList_cons {fuel : Nat} {text more rest : List Char} {item : Value} {items : List Value}
    (hitem : readValue fuel (text ++ more) = some (item, more))
    (hitems : readItems fuel more = some (items, rest)) :
    readList (fuel + 1) (text ++ more) = some (item :: items, rest) := by
  unfold readList
  split
  · next after hafter =>
    rw [Text.afterStart?_eq_some_iff.mp hafter] at hitem
    cases (readValue_bracket fuel after).symm.trans hitem
  · simp [hitem, hitems]

theorem readItems_cons {fuel : Nat} {text more rest : List Char} {item : Value} {items : List Value}
    (hitem : readValue fuel (text ++ more) = some (item, more))
    (hitems : readItems fuel more = some (items, rest)) :
    readItems (fuel + 1) (", ".toList ++ text ++ more) = some (item :: items, rest) := by
  simp [readItems, Text.afterStart?, hitem, hitems]

/-- The first entry stands where a map without entries has its empty line. -/
theorem readMap_of_readEntries {fuel : Nat} {text rest : List Char} {entries : List (String × Value)}
    (hentries : readEntries fuel text = some (entries, rest))
    (hsome : ¬ "\n  \n\x7d".toList <+: text) : readMap (fuel + 1) text = some (entries, rest) := by
  unfold readMap
  split
  · next after hafter => exact absurd ⟨after, (Text.afterStart?_eq_some_iff.mp hafter).symm⟩ hsome
  · exact hentries

/-- No entry looks like the empty line of a map without entries, for its name is not empty. -/
theorem no_empty_line_before_entry {name : String} (hname : isWordOver ['_', '-'] name = true)
    (text : List Char) :
    ¬ "\n  \n\x7d".toList <+: "\n  ".toList ++ (name.toList ++ (" = ".toList ++ text)) := by
  have hline : "\n  \n\x7d".toList = "\n  ".toList ++ ['\n', '\x7d'] := by decide
  rw [hline, List.prefix_append_right_inj]
  intro hprefix
  cases hchars : name.toList with
  | nil => simp [hchars] at hprefix
  | cons c cs =>
    have hc : isWordChar c = true :=
      isWordChar_of_isWordOver (by decide) hname (hchars ▸ List.mem_cons_self)
    rw [hchars, List.cons_append, List.cons_prefix_cons] at hprefix
    rw [← hprefix.1] at hc
    exact absurd hc (by decide)

/-- An entry is read with its name and its value, and then the others. -/
theorem readEntries_cons {fuel : Nat} {name : String} {text more rest : List Char} {value : Value}
    {entries : List (String × Value)} (hname : isWordOver ['_', '-'] name = true)
    (hvalue : readValue fuel (text ++ more) = some (value, more))
    (hentries : readEntries fuel more = some (entries, rest)) :
    readEntries (fuel + 1) ("\n  ".toList ++ (name.toList ++ (" = ".toList ++ text)) ++ more) =
      some ((name, value) :: entries, rest) := by
  have hword : ∀ c ∈ name.toList, isWordChar c = true :=
    fun c => isWordChar_of_isWordOver (by decide) hname
  have hstop : EndsWord (' ' :: '=' :: ' ' :: (text ++ more)) := endsWord_cons (by decide) _
  have htake := takeWhile_append_of_head hword hstop
  have hdrop := dropWhile_append_of_head hword hstop
  simp [readEntries, Text.afterStart?, htake, hdrop, hvalue, hentries]

/-- The literal of a list that is not empty, character by character. -/
theorem toList_formatList (first : String) (others : List String) :
    ("[" ++ Text.join ", " (first :: others) ++ "]").toList =
      '[' :: (first.toList ++ (behindEach ", " others ++ [']'])) := by
  rw [String.toList_append, String.toList_append, toList_join_cons]
  simp

/-- The literal of a map that is not empty: each entry stands behind the start of a line. -/
theorem toList_formatMap (first : String) (others : List String) :
    ("\x7b\n  " ++ Text.join "\n  " (first :: others) ++ "\n\x7d").toList =
      '\x7b' :: (behindEach "\n  " (first :: others) ++ ['\n', '\x7d']) := by
  rw [String.toList_append, String.toList_append, toList_join_cons]
  simp [behindEach]

/-- A bracket starts a list. -/
theorem readValue_list {fuel : Nat} {text rest : List Char} {items : List Value}
    (hlist : readList fuel text = some (items, rest)) :
    readValue (fuel + 1) ('[' :: text) = some (.list items, rest) := by
  simp [readValue, hlist]

theorem readValue_map {fuel : Nat} {text rest : List Char} {entries : List (String × Value)}
    (hmap : readMap fuel text = some (entries, rest)) :
    readValue (fuel + 1) ('\x7b' :: text) = some (.map entries, rest) := by
  simp [readValue, hmap]

mutual

/-- A legible value is read from its literal, whatever stands behind it. -/
theorem readValue_format : ∀ {value : Value} (fuel : Nat) (rest : List Char),
    value.isLegible = true → value.format.toList.length < fuel → EndsWord rest →
      readValue fuel (value.format.toList ++ rest) = some (value, rest)
  | .null, fuel, rest, _, hfuel, hrest => by
    have hword : IsWord "null".toList := isWord_of_all (by decide) (by decide)
    exact readValue_word hword (Nat.zero_lt_of_lt hfuel) hrest
  | .bool true, fuel, rest, _, hfuel, hrest => by
    have hword : IsWord "true".toList := isWord_of_all (by decide) (by decide)
    exact readValue_word hword (Nat.zero_lt_of_lt hfuel) hrest
  | .bool false, fuel, rest, _, hfuel, hrest => by
    have hword : IsWord "false".toList := isWord_of_all (by decide) (by decide)
    exact readValue_word hword (Nat.zero_lt_of_lt hfuel) hrest
  | .integer n, fuel, rest, _, hfuel, hrest => by
    have hread := readValue_word (isWord_intToString n) (Nat.zero_lt_of_lt hfuel) hrest
    rwa [ofWord_intToString] at hread
  | .string text, fuel, rest, hlegible, hfuel, hrest =>
    readValue_string hlegible (Nat.zero_lt_of_lt hfuel) hrest
  | .list [], fuel, rest, _, hfuel, hrest => by
    have hlength : ("[" ++ Text.join ", " [] ++ "]").toList.length < fuel := hfuel
    rw [Text.join_nil] at hlength
    obtain ⟨fuel, rfl⟩ : ∃ less, fuel = less + 2 := ⟨fuel - 2, by simp at hlength; omega⟩
    have hlist : readList (fuel + 1) (']' :: rest) = some ([], rest) := by
      simp [readList, Text.afterStart?]
    exact readValue_list hlist
  | .list (first :: others), fuel, rest, hlegible, hfuel, hrest => by
    rw [Value.isLegible, Value.areLegible, Bool.and_eq_true] at hlegible
    rw [Value.format, Value.formatAll, toList_formatList] at hfuel ⊢
    simp only [List.length_cons, List.length_append, List.length_nil] at hfuel
    obtain ⟨fuel, rfl⟩ : ∃ less, fuel = less + 2 := ⟨fuel - 2, by omega⟩
    have hends : EndsWord (behindEach ", " (Value.formatAll others) ++ ']' :: rest) :=
      endsWord_behindEach rfl (by decide) _ (endsWord_cons (by decide) rest)
    have hfirst := readValue_format fuel _ hlegible.1 (by omega) hends
    have hothers := readItems_formatAll fuel rest hlegible.2 (by omega)
    have hlist := readValue_list (readList_cons hfirst hothers)
    simpa using hlist
  | .map [], fuel, rest, _, hfuel, hrest => by
    have hlength : ("\x7b\n  " ++ Text.join "\n  " [] ++ "\n\x7d").toList.length < fuel := hfuel
    rw [Text.join_nil] at hlength
    obtain ⟨fuel, rfl⟩ : ∃ less, fuel = less + 2 := ⟨fuel - 2, by simp at hlength; omega⟩
    have hmap : readMap (fuel + 1) ("\n  \n\x7d".toList ++ rest) = some ([], rest) := by
      simp [readMap, Text.afterStart?]
    exact readValue_map hmap
  | .map (first :: others), fuel, rest, hlegible, hfuel, hrest => by
    obtain ⟨name, value⟩ := first
    rw [Value.isLegible] at hlegible
    rw [Value.format, Value.formatEntries, toList_formatMap] at hfuel ⊢
    simp only [List.length_cons, List.length_append, List.length_nil] at hfuel
    obtain ⟨fuel, rfl⟩ : ∃ less, fuel = less + 2 := ⟨fuel - 2, by omega⟩
    have hentries := readEntries_formatEntries fuel rest hlegible
      (by rw [Value.formatEntries]; omega)
    have hname := hlegible
    rw [Value.haveLegibleEntries, Bool.and_eq_true, Bool.and_eq_true] at hname
    have hmap := readValue_map (readMap_of_readEntries hentries (by
      have hfresh := no_empty_line_before_entry hname.1.1 (value.format.toList ++
        (behindEach "\n  " (Value.formatEntries others) ++ '\n' :: '\x7d' :: rest))
      simpa [Value.formatEntries, behindEach_cons] using hfresh))
    simpa [Value.formatEntries] using hmap

/-- Legible items behind the first one are read from their literals up to the bracket of the list. -/
theorem readItems_formatAll : ∀ {items : List Value} (fuel : Nat) (rest : List Char),
    Value.areLegible items = true → (behindEach ", " (Value.formatAll items)).length < fuel →
      readItems fuel (behindEach ", " (Value.formatAll items) ++ ']' :: rest) = some (items, rest)
  | [], fuel, rest, _, hfuel => by
    obtain ⟨fuel, rfl⟩ : ∃ less, fuel = less + 1 := ⟨fuel - 1, by omega⟩
    simp [readItems, behindEach, Value.formatAll, Text.afterStart?]
  | item :: others, fuel, rest, hlegible, hfuel => by
    rw [Value.areLegible, Bool.and_eq_true] at hlegible
    rw [Value.formatAll, behindEach_cons] at hfuel ⊢
    have hcomma : ", ".toList.length = 2 := rfl
    simp only [List.length_append] at hfuel
    obtain ⟨fuel, rfl⟩ : ∃ less, fuel = less + 1 := ⟨fuel - 1, by omega⟩
    have hends : EndsWord (behindEach ", " (Value.formatAll others) ++ ']' :: rest) :=
      endsWord_behindEach rfl (by decide) _ (endsWord_cons (by decide) rest)
    have hitem := readValue_format fuel _ hlegible.1 (by omega) hends
    have hothers := readItems_formatAll fuel rest hlegible.2 (by omega)
    rw [List.append_assoc]
    exact readItems_cons hitem hothers

/-- Legible entries are read from their lines up to the brace of the map. -/
theorem readEntries_formatEntries : ∀ {entries : List (String × Value)} (fuel : Nat)
    (rest : List Char), Value.haveLegibleEntries entries = true →
      (behindEach "\n  " (Value.formatEntries entries)).length < fuel →
        readEntries fuel (behindEach "\n  " (Value.formatEntries entries) ++ '\n' :: '\x7d' :: rest) =
          some (entries, rest)
  | [], fuel, rest, _, hfuel => by
    obtain ⟨fuel, rfl⟩ : ∃ less, fuel = less + 1 := ⟨fuel - 1, by omega⟩
    simp [readEntries, behindEach, Value.formatEntries, Text.afterStart?]
  | (name, value) :: others, fuel, rest, hlegible, hfuel => by
    rw [Value.haveLegibleEntries, Bool.and_eq_true, Bool.and_eq_true] at hlegible
    rw [Value.formatEntries, behindEach_cons] at hfuel ⊢
    have hindent : "\n  ".toList.length = 3 := rfl
    simp only [List.length_append, String.toList_append] at hfuel
    obtain ⟨fuel, rfl⟩ : ∃ less, fuel = less + 1 := ⟨fuel - 1, by omega⟩
    have hends : EndsWord
        (behindEach "\n  " (Value.formatEntries others) ++ '\n' :: '\x7d' :: rest) :=
      endsWord_behindEach rfl (by decide) _ (endsWord_cons (by decide) _)
    have hvalue := readValue_format fuel _ hlegible.1.2 (by omega) hends
    have hothers := readEntries_formatEntries fuel rest hlegible.2 (by omega)
    have hentries := readEntries_cons hlegible.1.1 hvalue hothers
    simpa using hentries

end

/-- A legible value can be read from its literal, so no other has the same literal. -/
theorem format_tells_value {value : Value} (hlegible : value.isLegible = true) :
    Value.read? value.format = some value ∧
      ∀ other : Value, other.isLegible = true → other.format = value.format → other = value := by
  have hread (value : Value) (hlegible : value.isLegible = true) :
      Value.read? value.format = some value := by
    have hvalue := readValue_format _ [] hlegible (Nat.lt_succ_self _) nofun
    rw [List.append_nil] at hvalue
    rw [Value.read?, hvalue]
  refine ⟨hread value hlegible, ?_⟩
  intro other hother hformat
  have hvalue := hread value hlegible
  have hsame := hread other hother
  rw [hformat, hvalue] at hsame
  exact (Option.some.inj hsame).symm

/-- A list in which a string looks like the end of a map, and empty collections stand beside words. -/
def intricateValue : Value :=
  .list [
    .map [("a-1", .string "1\n\x7d, [2]"), ("b", .list [.map [], .list []])],
    .string "var.b", .integer (-7), .integer 18446744073709551615, .null, .bool true, .string ""]

/-- The string ends at its quote and nothing else does, so the list is read as it was. -/
theorem intricateValue_told : intricateValue.isLegible = true ∧
    intricateValue.format = "[\x7b\n  a-1 = \"1\n\x7d, [2]\"\n  b = [\x7b\n  \n\x7d, []]\n\x7d, " ++
      "var.b, -7, 18446744073709551615, null, true, \"\"]" ∧
    Value.read? intricateValue.format = some intricateValue ∧
    ∀ other : Value, other.isLegible = true → other.format = intricateValue.format →
      other = intricateValue := by
  have hlegible : intricateValue.isLegible = true := by decide
  obtain ⟨hread, hsame⟩ := format_tells_value hlegible
  exact ⟨hlegible, by decide, hread, hsame⟩

end TerraStack.Hcl
