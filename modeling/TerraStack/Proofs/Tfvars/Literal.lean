import Mathlib.Data.List.Basic
import TerraStack.Proofs.Hcl.Spelling
import TerraStack.Proofs.Tfvars.Depth

namespace TerraStack.Tfvars

open Hcl (IsBare IsWord Value)

/-- A text within brackets that leaves the depth as it is. -/
structure IsInner (text : List Char) : Prop where
  depth : ∀ depth, 0 < depth → depthAfter .code depth text = some depth
  noReturn : '\r' ∉ text

theorem IsInner.nil : IsInner [] := ⟨fun _ _ => rfl, List.not_mem_nil⟩

/-- Two such texts together are one. -/
theorem IsInner.append {text more : List Char} (htext : IsInner text) (hmore : IsInner more) :
    IsInner (text ++ more) where
  depth depth hpositive := by
    rw [depthAfter_append (htext.depth depth hpositive), hmore.depth depth hpositive]
  noReturn hmem := (List.mem_append.mp hmem).elim htext.noReturn hmore.noReturn

/-- What can be a value can stand within brackets. -/
theorem IsBalanced.isInner {text : List Char} (htext : IsBalanced text) : IsInner text :=
  ⟨fun depth hpositive => htext.depth depth (Int.le_of_lt hpositive), htext.noReturn⟩

/-- A character that neither ends a line nor starts a string or a comment counts by its weight. -/
theorem depthAfter_cons {c : Char} (hc : c ∉ ['\n', '"', '#', '/']) (depth : Int) (rest : List Char) :
    depthAfter .code depth (c :: rest) = depthAfter .code (depth + bracketWeight c) rest := by
  simp only [List.mem_cons, List.not_mem_nil, not_or, or_false] at hc
  obtain ⟨hfeed, hquote, hhash, hslash⟩ := hc
  simp [depthAfter, hfeed, hquote, hhash, hslash]

/-- Characters that end no line, start nothing and have no weight change nothing. -/
theorem depthAfter_weightless {text : List Char}
    (htext : ∀ c ∈ text, c ∉ ['\n', '"', '#', '/'] ∧ bracketWeight c = 0) (depth : Int) :
    depthAfter .code depth text = some depth := by
  induction text with
  | nil => rfl
  | cons c rest ih =>
    obtain ⟨hc, hweight⟩ := htext c List.mem_cons_self
    rw [depthAfter_cons hc, hweight, Int.add_zero]
    exact ih fun other hother => htext other (List.mem_cons_of_mem c hother)

/-- What has no weight leaves the depth as it is. -/
theorem isInner_of_weightless {text : List Char}
    (htext : ∀ c ∈ text, c ∉ ['\n', '"', '#', '/'] ∧ bracketWeight c = 0) (hreturn : '\r' ∉ text) :
    IsInner text :=
  ⟨fun depth _ => depthAfter_weightless htext depth, hreturn⟩

theorem isInner_comma : IsInner ", ".toList :=
  isInner_of_weightless (List.forall_iff_forall_mem.mp (by decide)) (by decide)

theorem isInner_equal : IsInner " = ".toList :=
  isInner_of_weightless (List.forall_iff_forall_mem.mp (by decide)) (by decide)

/-- Within brackets a line may end. -/
theorem isInner_feed : IsInner ['\n'] :=
  ⟨fun depth hpositive => by rw [depthAfter, if_pos rfl, if_pos hpositive, depthAfter], by decide⟩

theorem isInner_indent : IsInner "\n  ".toList :=
  isInner_feed.append
    (isInner_of_weightless (List.forall_iff_forall_mem.mp (by decide)) (by decide))

/-- A character without a meaning has no weight either. -/
theorem weightless_of_bare {c : Char} (hc : c ∉ Hcl.meaningfulChars) :
    c ∉ ['\n', '"', '#', '/'] ∧ bracketWeight c = 0 := by
  constructor
  · have hsubset : ['\n', '"', '#', '/'] ⊆ Hcl.meaningfulChars := by decide
    exact fun hsign => hc (hsubset hsign)
  · have hsubset : ['\x7b', '[', '(', '\x7d', ']', ')'] ⊆ Hcl.meaningfulChars := by decide
    have hbracket : ∀ bracket ∈ ['\x7b', '[', '(', '\x7d', ']', ')'], ¬ c = bracket :=
      fun bracket hmem heq => hc (heq ▸ hsubset hmem)
    simp [bracketWeight, isOpening, isClosing, hbracket]

/-- White space within a line has no weight. -/
theorem weightless_of_blank {c : Char} (hc : Text.isBlank c = true) (hfeed : c ≠ '\n') :
    c ∉ ['\n', '"', '#', '/'] ∧ bracketWeight c = 0 := by
  have hblank : ∀ sign ∈ ['"', '#', '/'], Text.isBlank sign = false :=
    List.forall_iff_forall_mem.mp (by decide)
  refine ⟨fun hmem => ?_, bracketWeight_of_isBlank hc⟩
  rcases List.mem_cons.mp hmem with rfl | hsign
  · exact hfeed rfl
  · exact ne_of_isBlank hc (hblank c hsign) rfl

section bare

variable {text : List Char} (htext : IsBare text)
include htext

/-- A character that means something to the reader is not in bare text. -/
theorem not_mem_of_meaningful {c : Char} (hc : c ∈ Hcl.meaningfulChars) : c ∉ text :=
  fun hmem => htext c hmem hc

/-- Bare text is a line. -/
theorem isLine_of_bare : Text.IsLine text :=
  ⟨not_mem_of_meaningful htext (by decide), not_mem_of_meaningful htext (by decide)⟩

/-- Bare text does not change the depth. -/
theorem depthAfter_bare (depth : Int) : depthAfter .code depth text = some depth :=
  depthAfter_weightless (fun c hmem => weightless_of_bare (htext c hmem)) depth

/-- Bare text can stand within brackets. -/
theorem isInner_of_bare : IsInner text :=
  ⟨fun depth _ => depthAfter_bare htext depth, (isLine_of_bare htext).noReturn⟩

/-- No character of bare text is white space or starts a heredoc. -/
theorem isBlank_of_bare {c : Char} (hc : c ∈ text) : Text.isBlank c = false ∧ c ≠ '<' := by
  have hmeaning := htext c hc
  constructor
  · rw [Bool.eq_false_iff]
    exact fun hblank => hmeaning (List.mem_append_right _ (List.contains_iff_mem.mp hblank))
  · rintro rfl
    exact hmeaning (by decide)

/-- Words, numbers among them, are read as they are written. -/
theorem isBalanced_of_bare (hne : text ≠ []) : IsBalanced text where
  depth depth _ := depthAfter_bare htext depth
  opensFirstLine := .inl (isLine_of_bare htext).noFeed
  noReturn := (isLine_of_bare htext).noReturn
  head := by
    have hhead := List.head?_eq_some_head hne
    exact ⟨_, hhead, isBlank_of_bare htext (List.head_mem hne)⟩
  last := by
    have hlast := List.getLast?_eq_some_getLast hne
    exact ⟨_, hlast, (isBlank_of_bare htext (List.getLast_mem hne)).1⟩

/-- A bare text can be a name. -/
theorem isName_of_bare : IsName text := by
  have hhead (sign : Char) (rest : List Char) (hsign : sign ∈ Hcl.meaningfulChars) :
      ¬ sign :: rest <+: text := fun hstart =>
    not_mem_of_meaningful htext hsign (hstart.subset List.mem_cons_self)
  exact {
    noFeed := (isLine_of_bare htext).noFeed
    isTrimmed := {
      head := fun c hc => (isBlank_of_bare htext (List.mem_of_mem_head? hc)).1
      last := fun c hc => (isBlank_of_bare htext (List.mem_of_mem_getLast? hc)).1 }
    noEqual := not_mem_of_meaningful htext (by decide)
    noHash := hhead '#' [] (by decide)
    noSlashes := hhead '/' ['/'] (by decide) }

end bare

/-- A word is read as a whole. -/
theorem isBalanced_of_isWord {text : List Char} (htext : IsWord text) : IsBalanced text :=
  isBalanced_of_bare (Hcl.isBare_of_word htext.all) htext.ne_nil

/-- A string that needs no escapes ends with its second quote. -/
theorem depthAfter_string {text : List Char}
    (htext : text.all (fun c => !(['"', '\\', '\n', '\r'].contains c)) = true) (depth : Int) :
    depthAfter .string depth (text ++ ['"']) = some depth := by
  induction text with
  | nil => rfl
  | cons c rest ih =>
    rw [List.all_cons, Bool.and_eq_true] at htext
    have hc : c ∉ ['"', '\\', '\n', '\r'] := by simpa using htext.1
    simp only [List.mem_cons, List.not_mem_nil, not_or, or_false] at hc
    obtain ⟨hquote, hescape, hfeed, -⟩ := hc
    rw [List.cons_append, depthAfter, if_neg hfeed, if_neg hescape, if_neg hquote]
    exact ih htext.2

theorem isBalanced_quote {text : String} (htext : Hcl.needsNoEscape text = true) :
    IsBalanced (Hcl.quote text).toList := by
  have hnone (c : Char) (hc : c ∈ ['"', '\\', '\n', '\r']) : c ∉ text.toList := fun hmem => by
    have hplain := List.all_eq_true.mp htext c hmem
    rw [List.contains_iff_mem.mpr hc] at hplain
    cases hplain
  rw [Hcl.toList_quote]
  refine ⟨fun depth _ => ?_, .inl ?_, ?_, ⟨_, rfl, by decide, by decide⟩, '"', ?_, by decide⟩
  · exact depthAfter_string htext depth
  · simpa using hnone '\n' (by decide)
  · simpa using hnone '\r' (by decide)
  · rw [← List.cons_append, List.getLast?_concat]

/-- Brackets around a text within. -/
theorem isBalanced_brackets {opening closing : Char} {body : List Char} (hbody : IsInner body)
    (hfirst : OpensFirstLine (opening :: (body ++ [closing])))
    (hopening : opening ∈ ['\x7b', '[']) (hclosing : closing ∈ ['\x7d', ']']) :
    IsBalanced (opening :: (body ++ [closing])) := by
  have hopens : ∀ c ∈ ['\x7b', '['], c ∉ ['\n', '"', '#', '/'] ∧ bracketWeight c = 1 ∧ c ≠ '\r' ∧
      Text.isBlank c = false ∧ c ≠ '<' := List.forall_iff_forall_mem.mp (by decide)
  have hcloses : ∀ c ∈ ['\x7d', ']'], c ∉ ['\n', '"', '#', '/'] ∧ bracketWeight c = -1 ∧ c ≠ '\r' ∧
      Text.isBlank c = false := List.forall_iff_forall_mem.mp (by decide)
  obtain ⟨hsign, hweight, hreturn, hblank, hheredoc⟩ := hopens opening hopening
  obtain ⟨hsign', hweight', hreturn', hblank'⟩ := hcloses closing hclosing
  refine ⟨fun depth hdepth => ?_, hfirst, ?_, ⟨opening, rfl, hblank, hheredoc⟩, closing, ?_, hblank'⟩
  · rw [depthAfter_cons hsign, hweight, depthAfter_append (hbody.depth _ (by omega)),
      depthAfter_cons hsign', hweight', depthAfter]
    exact congrArg some (by omega)
  · rw [List.mem_cons, List.mem_append, List.mem_singleton, not_or, not_or]
    exact ⟨hreturn.symm, hbody.noReturn, hreturn'.symm⟩
  · rw [← List.cons_append, List.getLast?_concat]

/-- A list of what can stand within brackets is read as a whole, if its first line ends with a
bracket or is the last. -/
theorem isBalanced_list {body : List Char} (hbody : IsInner body) (hopens : OpensFirstLine body) :
    IsBalanced ('[' :: (body ++ [']'])) := by
  have hfirst : OpensFirstLine (['['] ++ (body ++ [']'])) :=
    .append (.inl (by decide)) (hopens.append (.inl (by decide)))
  exact isBalanced_brackets hbody hfirst (by decide) (by decide)

theorem isBalanced_map {body : List Char} (hbody : IsInner body) :
    IsBalanced ('\x7b' :: (("\n  ".toList ++ body ++ ['\n']) ++ ['\x7d'])) :=
  isBalanced_brackets ((isInner_indent.append hbody).append isInner_feed)
    (.inr ⟨[], _, List.not_mem_nil, rfl⟩) (by decide) (by decide)

/-- The literal of a float is read as a whole. -/
theorem isBalanced_formatFloat (x : Float) : IsBalanced (Value.formatFloat x).toList := by
  have hword := Hcl.isWord_write x
  unfold Value.formatFloat
  simp only
  split
  · exact isBalanced_of_isWord hword
  · refine isBalanced_quote (List.all_eq_true.mpr fun c hc => ?_)
    rw [Bool.not_eq_true', ← Bool.not_eq_true, List.contains_iff_mem]
    have hsubset : ['"', '\\', '\n', '\r'] ⊆ Hcl.meaningfulChars := by decide
    exact fun hmem => Hcl.not_mem_meaningfulChars (hword.all c hc) (hsubset hmem)

theorem isBalanced_formatString {text : String} (htext : (Value.string text).isPlain = true) :
    IsBalanced (Value.formatString text).toList := by
  unfold Value.isPlain at htext
  unfold Value.formatString
  split at htext
  · next hreference =>
    rw [if_pos hreference]
    exact isBalanced_of_isWord ⟨Hcl.ne_nil_of_isReference hreference,
      fun c => Hcl.isWordChar_of_isWordOver (by decide) htext⟩
  · next hliteral =>
    rw [if_neg hliteral]
    exact isBalanced_quote htext

mutual

/-- The literal of a plain value is read as a whole: it opens all its brackets before it closes the
last, however deep its lists and maps are nested. -/
theorem isBalanced_format : ∀ {value : Value}, value.isPlain = true → IsBalanced value.format.toList
  | .null, _ => isBalanced_of_isWord (Hcl.isWord_of_all (by decide) (by decide))
  | .bool true, _ => isBalanced_of_isWord (Hcl.isWord_of_all (by decide) (by decide))
  | .bool false, _ => isBalanced_of_isWord (Hcl.isWord_of_all (by decide) (by decide))
  | .integer value, _ => isBalanced_of_isWord (Hcl.isWord_intToString value)
  | .float value, _ => isBalanced_formatFloat value
  | .string _, hplain => isBalanced_formatString hplain
  | .list items, hplain => by
    have hitems : ∀ part ∈ Value.formatAll items, IsBalanced part.toList :=
      isBalanced_formatAll hplain
    have hinner := Text.toList_join_of_append .nil (fun _ _ => .append) isInner_comma
      fun part hpart => (hitems part hpart).isInner
    have hopens := Text.toList_join_of_append (.inl List.not_mem_nil) (fun _ _ => .append)
      (.inl (by decide : '\n' ∉ ", ".toList)) fun part hpart => (hitems part hpart).opensFirstLine
    simpa [Value.format] using isBalanced_list hinner hopens
  | .map entries, hplain => by
    have hentries : ∀ part ∈ Value.formatEntries entries, IsInner part.toList :=
      isInner_formatEntries hplain
    have hinner := Text.toList_join_of_append .nil (fun _ _ => .append) isInner_indent hentries
    simpa [Value.format] using isBalanced_map hinner

theorem isBalanced_formatAll : ∀ {items : List Value}, Value.arePlain items = true →
    ∀ part ∈ Value.formatAll items, IsBalanced part.toList
  | [], _, _, hpart => absurd hpart List.not_mem_nil
  | item :: rest, hplain, part, hpart => by
    rw [Value.arePlain, Bool.and_eq_true] at hplain
    rcases List.mem_cons.mp hpart with rfl | hrest
    · exact isBalanced_format hplain.1
    · exact isBalanced_formatAll hplain.2 part hrest

/-- The lines of plain entries can stand within brackets. -/
theorem isInner_formatEntries : ∀ {entries : List (String × Value)},
    Value.havePlainEntries entries = true → ∀ part ∈ Value.formatEntries entries, IsInner part.toList
  | [], _, _, hpart => absurd hpart List.not_mem_nil
  | (name, value) :: rest, hplain, part, hpart => by
    rw [Value.havePlainEntries, Bool.and_eq_true, Bool.and_eq_true] at hplain
    rcases List.mem_cons.mp hpart with rfl | hrest
    · have hname := isInner_of_bare (Hcl.isBare_of_word fun c =>
        Hcl.isWordChar_of_isWordOver (by decide) hplain.1.1)
      rw [String.toList_append, String.toList_append]
      exact (hname.append isInner_equal).append (isBalanced_format hplain.1.2).isInner
    · exact isInner_formatEntries hplain.2 part hrest

end

end TerraStack.Tfvars
