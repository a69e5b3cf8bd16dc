import TerraStack.Tfvars.Bracket

namespace TerraStack.Tfvars

/-- What follows a string, from behind the quote that opens it on, if the string ends. -/
def afterString? : List Char → Option (List Char)
  | [] => none
  | '\\' :: _ :: rest => afterString? rest
  | c :: rest => if c = '"' then some rest else afterString? rest

theorem isSuffix_of_afterString? {text behind : List Char} (hbehind : afterString? text = some behind) :
    behind <:+ text := by
  fun_induction afterString? text with
  | case1 => cases hbehind
  | case2 c rest ih =>
    have hrest := ih hbehind
    exact (hrest.trans (List.suffix_cons c rest)).trans (List.suffix_cons _ _)
  | case3 rest =>
    obtain rfl := Option.some.inj hbehind
    exact List.suffix_cons _ _
  | case4 c rest _ _ ih => exact (ih hbehind).trans (List.suffix_cons c rest)

/-- A part of a line: a character outside of all strings, or a string. -/
inductive Piece where
  | code (c : Char)
  | string (isClosed : Bool)
  deriving Repr, DecidableEq

/-- The parts of a line. A string without an end takes all that is left. -/
def pieces : List Char → List Piece
  | [] => []
  | c :: rest =>
    if c = '"' then
      match _hbehind : afterString? rest with
      | some behind => .string true :: pieces behind
      | none => [.string false]
    else .code c :: pieces rest
termination_by line => line.length
decreasing_by
  · have hsuffix := isSuffix_of_afterString? _hbehind
    exact Nat.lt_succ_of_le hsuffix.length_le
  · exact Nat.lt_succ_self _

/-- What the first pass leaves of a part. -/
def Piece.blanked : Piece → Char
  | .code c => c
  | .string _ => ' '

/-- The first of two passes over a line: it puts one blank in the place of each string. -/
def withoutStrings (line : List Char) : List Char :=
  (pieces line).map Piece.blanked

/-- The second pass: what stands before the first mark of a comment. -/
def beforeComment : List Char → List Char
  | [] => []
  | c :: rest =>
    if c = '#' || (c = '/' && rest.head? = some '/') then [] else c :: beforeComment rest

/-- The opening less the closing brackets of a text. -/
def balance (text : List Char) : Int :=
  text.countP isOpening - text.countP isClosing

/-- A line that ends neither in a string nor in a comment. -/
structure EndsInCode (line : List Char) : Prop where
  closed : .string false ∉ pieces line
  uncommented : beforeComment (withoutStrings line) = withoutStrings line

@[simp] theorem pieces_nil : pieces [] = [] := by
  rw [pieces]

theorem pieces_code {c : Char} (hquote : c ≠ '"') (rest : List Char) :
    pieces (c :: rest) = .code c :: pieces rest := by
  rw [pieces, if_neg hquote]

theorem pieces_string (rest : List Char) :
    pieces ('"' :: rest) =
      (afterString? rest).elim [.string false] fun behind => .string true :: pieces behind := by
  rw [pieces, if_pos rfl]
  split
  · next hbehind => rw [hbehind, Option.elim_some]
  · next hbehind => rw [hbehind, Option.elim_none]

theorem withoutStrings_code {c : Char} (hquote : c ≠ '"') (rest : List Char) :
    withoutStrings (c :: rest) = c :: withoutStrings rest := by
  unfold withoutStrings
  rw [pieces_code hquote]
  rfl

/-- The first pass leaves a blank for a string. -/
theorem withoutStrings_string (rest : List Char) :
    withoutStrings ('"' :: rest) = ' ' :: (afterString? rest).elim [] withoutStrings := by
  unfold withoutStrings
  rw [pieces_string]
  cases afterString? rest <;> rfl

/-- A slash in front is a slash in front of what the first pass leaves. -/
theorem head?_withoutStrings_iff {line : List Char} :
    (withoutStrings line).head? = some '/' ↔ line.head? = some '/' := by
  cases line with
  | nil => simp [withoutStrings]
  | cons c rest =>
    by_cases hquote : c = '"'
    · subst hquote
      simp [withoutStrings_string]
    · simp [withoutStrings_code hquote]

theorem balance_append (text more : List Char) : balance (text ++ more) = balance text + balance more := by
  simp only [balance, List.countP_append]
  omega

/-- No bracket both opens and closes. -/
theorem isClosing_of_isOpening {c : Char} (hopening : isOpening c = true) : isClosing c = false := by
  simp only [isOpening, Bool.or_eq_true, decide_eq_true_iff] at hopening
  rcases hopening with (rfl | rfl) | rfl <;> rfl

theorem balance_cons (c : Char) (text : List Char) :
    balance (c :: text) = bracketWeight c + balance text := by
  have hsingle : balance [c] = bracketWeight c := by
    unfold balance bracketWeight
    by_cases hopening : isOpening c = true
    · simp [hopening, isClosing_of_isOpening hopening]
    · by_cases hclosing : isClosing c = true
      · simp [hopening, hclosing]
      · simp [hopening, hclosing]
  rw [← List.singleton_append, balance_append, hsingle]

/-- In a string nothing counts up to its end. -/
theorem depthFrom_string (text : List Char) :
    depthFrom .string text = (afterString? text).elim 0 (depthFrom .code) := by
  fun_induction afterString? text with
  | case1 => rfl
  | case2 c rest ih => simpa [depthFrom] using ih
  | case3 => simp [depthFrom]
  | case4 c rest hescape hquote ih =>
    by_cases hbackslash : c = '\\'
    · subst hbackslash
      cases rest with
      | nil => rfl
      | cons next rest => exact absurd rfl (hescape next rest rfl)
    · simpa [depthFrom, hbackslash, hquote] using ih

/-- The brackets that count are those that the two passes leave. -/
theorem depthFrom_code (line : List Char) :
    depthFrom .code line = balance (beforeComment (withoutStrings line)) := by
  fun_induction pieces line with
  | case1 => simp [depthFrom, withoutStrings, beforeComment, balance]
  | case2 rest behind hbehind ih =>
    have hblank : beforeComment (' ' :: withoutStrings behind) =
        ' ' :: beforeComment (withoutStrings behind) := rfl
    have hweight : bracketWeight ' ' = 0 := rfl
    rw [withoutStrings_string, hbehind, Option.elim_some, hblank, balance_cons, hweight, Int.zero_add, ← ih]
    simp [depthFrom, depthFrom_string, hbehind]
  | case3 rest hbehind =>
    have hblank : balance (beforeComment [' ']) = 0 := rfl
    rw [withoutStrings_string, hbehind, Option.elim_none, hblank]
    simp [depthFrom, depthFrom_string, hbehind]
  | case4 c rest hquote ih =>
    rw [withoutStrings_code hquote, depthFrom, if_neg hquote, beforeComment]
    simp only [head?_withoutStrings_iff]
    split
    · rfl
    · rw [balance_cons, ih]

/-- A string that ends does so whatever follows. -/
theorem afterString?_append {text behind : List Char} (hbehind : afterString? text = some behind)
    (more : List Char) : afterString? (text ++ more) = some (behind ++ more) := by
  fun_induction afterString? text with
  | case1 => cases hbehind
  | case2 c rest ih => exact ih hbehind
  | case3 rest =>
    obtain rfl := Option.some.inj hbehind
    simp [afterString?]
  | case4 c rest hescape hquote ih =>
    have hbackslash : c ≠ '\\' := by
      rintro rfl
      cases rest with
      | nil => cases hbehind
      | cons next rest => exact hescape next rest rfl rfl
    simpa [afterString?, hbackslash, hquote] using ih hbehind

/-- A line that does not end in a string has its parts, whatever follows. -/
theorem pieces_append {line : List Char} (hclosed : .string false ∉ pieces line) (more : List Char) :
    pieces (line ++ more) = pieces line ++ pieces more := by
  fun_induction pieces line with
  | case1 => rfl
  | case2 rest behind hbehind ih =>
    have hrest : .string false ∉ pieces behind := fun hmem => hclosed (List.mem_cons_of_mem _ hmem)
    rw [List.cons_append, pieces_string, afterString?_append hbehind, Option.elim_some, ih hrest,
      List.cons_append]
  | case3 rest hbehind => exact absurd List.mem_cons_self hclosed
  | case4 c rest hquote ih =>
    have hrest : .string false ∉ pieces rest := fun hmem => hclosed (List.mem_cons_of_mem _ hmem)
    rw [List.cons_append, pieces_code hquote, ih hrest, List.cons_append]

/-- A line that does not end in a string is left as it is, whatever follows. -/
theorem withoutStrings_append {line : List Char} (hclosed : .string false ∉ pieces line)
    (more : List Char) : withoutStrings (line ++ more) = withoutStrings line ++ withoutStrings more := by
  unfold withoutStrings
  rw [pieces_append hclosed, List.map_append]

/-- The first pass leaves something of everything. -/
theorem withoutStrings_eq_nil_iff {line : List Char} : withoutStrings line = [] ↔ line = [] := by
  cases line with
  | nil => simp [withoutStrings]
  | cons c rest =>
    by_cases hquote : c = '"'
    · subst hquote
      simp [withoutStrings_string]
    · simp [withoutStrings_code hquote]

/-- A slash at the end of what the first pass leaves is one at the end of the line. -/
theorem getLast?_of_withoutStrings {line : List Char}
    (hslash : (withoutStrings line).getLast? = some '/') : line.getLast? = some '/' := by
  fun_induction pieces line with
  | case1 => simp [withoutStrings] at hslash
  | case2 rest behind hbehind ih =>
    rw [withoutStrings_string, hbehind, Option.elim_some, List.getLast?_cons] at hslash
    obtain ⟨front, rfl⟩ := isSuffix_of_afterString? hbehind
    cases hlast : (withoutStrings behind).getLast? with
    | none => simp [hlast] at hslash
    | some last =>
      have hbehindLast : behind.getLast? = some '/' := ih (by simpa [hlast] using hslash)
      simp [List.getLast?_cons, List.getLast?_append, hbehindLast]
  | case3 rest hbehind =>
    rw [withoutStrings_string, hbehind, Option.elim_none] at hslash
    cases hslash
  | case4 c rest hquote ih =>
    rw [withoutStrings_code hquote, List.getLast?_cons] at hslash
    cases hlast : (withoutStrings rest).getLast? with
    | none =>
      have hrest : rest = [] := withoutStrings_eq_nil_iff.mp (List.getLast?_eq_none_iff.mp hlast)
      subst hrest
      simpa [withoutStrings] using hslash
    | some last =>
      have hrestLast : rest.getLast? = some '/' := ih (by simpa [hlast] using hslash)
      simp [List.getLast?_cons, hrestLast]

/-- No mark of a comment lies across the seam of two texts unless two slashes meet there. -/
theorem beforeComment_append {text more : List Char} (huncommented : beforeComment text = text)
    (hseam : ¬ (text.getLast? = some '/' ∧ more.head? = some '/')) :
    beforeComment (text ++ more) = text ++ beforeComment more := by
  induction text with
  | nil => rfl
  | cons c rest ih =>
    rw [beforeComment] at huncommented
    split at huncommented
    · cases huncommented
    · next hmark =>
      have hrest : beforeComment rest = rest := (List.cons.inj huncommented).2
      have hstill : ¬ (c = '#' || (c = '/' && (rest ++ more).head? = some '/')) = true := by
        cases rest with
        | nil => simpa using ⟨by simpa using hmark, by simpa using hseam⟩
        | cons next rest => simpa using hmark
      have hseamRest : ¬ (rest.getLast? = some '/' ∧ more.head? = some '/') := by
        rintro ⟨hlast, hhead⟩
        exact hseam ⟨by simp [List.getLast?_cons, hlast], hhead⟩
      rw [List.cons_append, beforeComment, if_neg hstill, ih hrest hseamRest, List.cons_append]

/-- The brackets of a line that count are those outside of strings and before the comment. Those of
a line that ends neither in a string nor in a comment are counted apart from what follows, unless
two slashes meet at the seam. -/
theorem bracketDepth_eq_balance (line : List Char) :
    bracketDepth line = balance (beforeComment (withoutStrings line)) ∧
    ∀ more, EndsInCode line → ¬ (line.getLast? = some '/' ∧ more.head? = some '/') →
      bracketDepth (line ++ more) = bracketDepth line + bracketDepth more := by
  refine ⟨depthFrom_code line, fun more hline hseam => ?_⟩
  have hslashes : ¬ ((withoutStrings line).getLast? = some '/' ∧ (withoutStrings more).head? = some '/') :=
    fun hmeet => hseam ⟨getLast?_of_withoutStrings hmeet.1, head?_withoutStrings_iff.mp hmeet.2⟩
  unfold bracketDepth
  rw [depthFrom_code, depthFrom_code, depthFrom_code, withoutStrings_append hline.closed,
    beforeComment_append hline.uncommented hslashes, balance_append, hline.uncommented]

/-- A line with a bracket and the mark of a comment in a string, and with a slash at its end. -/
def pathLine : List Char := "\x7b a = \"\\\"\x7d#\" /".toList

/-- A text with a bracket behind the mark of a comment. -/
def pathRest : List Char := " [ // (".toList

/-- The line ends in code, and it and the text behind it have a bracket each. -/
theorem pathLine_countedApart : EndsInCode pathLine ∧
    ¬ (pathLine.getLast? = some '/' ∧ pathRest.head? = some '/') ∧
    bracketDepth (pathLine ++ pathRest) = bracketDepth pathLine + bracketDepth pathRest ∧
    bracketDepth pathLine = 1 ∧ bracketDepth pathRest = 1 := by
  have hpieces : pieces pathLine = "\x7b a = ".toList.map Piece.code ++
      [.string true, .code ' ', .code '/'] := by cbv
  have hends : EndsInCode pathLine := by
    refine ⟨?_, ?_⟩
    · rw [hpieces]
      decide
    · rw [withoutStrings, hpieces]
      decide
  have hseam : ¬ (pathLine.getLast? = some '/' ∧ pathRest.head? = some '/') := by decide
  exact ⟨hends, hseam, (bracketDepth_eq_balance pathLine).2 pathRest hends hseam, by decide, by decide⟩

end TerraStack.Tfvars
