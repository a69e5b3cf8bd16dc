import TerraStack.Proofs.Tfvars.Extent

namespace TerraStack.Tfvars

/-- The depth behind a text that starts in some place at some depth. There is none if a line ends in
a string or at a depth at which a value would end, nor if there may be a comment. -/
def depthAfter : Place → Int → List Char → Option Int
  | .code, depth, [] => some depth
  | .string, _, [] => none
  | .escape, _, [] => none
  | .code, depth, c :: rest =>
    if c = '\n' then if 0 < depth then depthAfter .code depth rest else none
    else if c = '"' then depthAfter .string depth rest
    else if c = '#' || c = '/' then none
    else depthAfter .code (depth + bracketWeight c) rest
  | .string, depth, c :: rest =>
    if c = '\n' then none
    else depthAfter (if c = '\\' then .escape else if c = '"' then .code else .string) depth rest
  | .escape, depth, c :: rest => if c = '\n' then none else depthAfter .string depth rest

theorem depthAfter_append {place : Place} {depth behind : Int} {text : List Char}
    (htext : depthAfter place depth text = some behind) (more : List Char) :
    depthAfter place depth (text ++ more) = depthAfter .code behind more := by
  induction text generalizing place depth with
  | nil =>
    cases place with
    | code => rw [← Option.some.inj htext, List.nil_append]
    | string | escape => cases htext
  | cons c rest ih =>
    cases place with
    | code =>
      simp only [depthAfter] at htext
      simp only [List.cons_append, depthAfter]
      split at htext
      · next hfeed =>
        split at htext
        · next hpositive => rw [if_pos hfeed, if_pos hpositive, ih htext]
        · cases htext
      · next hfeed =>
        rw [if_neg hfeed]
        split at htext
        · next hquote => rw [if_pos hquote, ih htext]
        · next hquote =>
          rw [if_neg hquote]
          split at htext
          · cases htext
          · next hcomment => rw [if_neg hcomment, ih htext]
    | string | escape =>
      simp only [depthAfter] at htext
      simp only [List.cons_append, depthAfter]
      split at htext
      · cases htext
      · next hfeed => rw [if_neg hfeed, ih htext]

/-- Where no comment can be, the depth is the one that brackets are followed to. -/
theorem behind?_of_depthAfter {place : Place} {depth behind : Int} {text : List Char}
    (htext : depthAfter place depth text = some behind) :
    behind? text (.within place, depth) = some (.within .code, behind) := by
  induction text generalizing place depth with
  | nil =>
    cases place with
    | code => rw [behind?_nil, Option.some.inj htext]
    | string => cases htext
    | escape => cases htext
  | cons c rest ih =>
    rw [behind?_cons]
    by_cases hfeed : c = '\n'
    · subst hfeed
      cases place with
      | code =>
        rw [depthAfter, if_pos rfl] at htext
        split at htext
        · next hpositive => rw [step?_feed, if_pos hpositive, Option.bind_some, ih htext]
        · cases htext
      | string => cases htext
      | escape => cases htext
    · have hstep : step? (.within place, depth) c = some (stepInLine depth c (.within place)) :=
        if_neg hfeed
      rw [hstep, Option.bind_some]
      cases place with
      | code =>
        rw [depthAfter, if_neg hfeed] at htext
        by_cases hquote : c = '"'
        · rw [if_pos hquote] at htext
          rw [stepInLine, stepInCode, if_pos hquote, ih htext]
        · rw [if_neg hquote] at htext
          split at htext
          · cases htext
          · next hcomment =>
            rw [Bool.or_eq_true, decide_eq_true_iff, decide_eq_true_iff, not_or] at hcomment
            rw [stepInLine, stepInCode, if_neg hquote, if_neg hcomment.1, if_neg hcomment.2, ih htext]
      | string =>
        rw [depthAfter, if_neg hfeed] at htext
        exact ih htext
      | escape =>
        rw [depthAfter, if_neg hfeed] at htext
        exact ih htext

/-- A text that opens a bracket at the end of its first line, unless that is all of it. -/
def OpensFirstLine (text : List Char) : Prop :=
  '\n' ∉ text ∨ ∃ line rest, '\n' ∉ line ∧ text = line ++ '\x7b' :: '\n' :: rest

theorem OpensFirstLine.append {text more : List Char} (htext : OpensFirstLine text)
    (hmore : OpensFirstLine more) : OpensFirstLine (text ++ more) := by
  rcases htext with htext | ⟨line, rest, hline, rfl⟩
  · rcases hmore with hmore | ⟨line, rest, hline, rfl⟩
    · exact .inl fun hmem => (List.mem_append.mp hmem).elim htext hmore
    · refine .inr ⟨text ++ line, rest, ?_, by simp⟩
      exact fun hmem => (List.mem_append.mp hmem).elim htext hline
  · exact .inr ⟨line, rest ++ more, hline, by simp⟩

/-- What a value has to be like to be read as a whole: its brackets are balanced with its last line
and not before, and neither white space nor a heredoc is at its start. -/
structure IsBalanced (text : List Char) : Prop where
  depth : ∀ depth, 0 ≤ depth → depthAfter .code depth text = some depth
  opensFirstLine : OpensFirstLine text
  noReturn : '\r' ∉ text
  head : ∃ c, text.head? = some c ∧ Text.isBlank c = false ∧ c ≠ '<'
  last : ∃ c, text.getLast? = some c ∧ Text.isBlank c = false

/-- Where the first line ends with a bracket or is the last, no white space is trimmed off it. -/
theorem IsBalanced.trimFirst_eq {text : List Char} (htext : IsBalanced text) : trimFirst text = text := by
  rcases htext.opensFirstLine with hline | ⟨line, rest, hline, rfl⟩
  · obtain ⟨c, hlast, hblank⟩ := htext.last
    rw [trimFirst_of_line hline]
    exact Text.trimEnd_of_last fun d hd => Option.some.inj (hlast.symm.trans hd) ▸ hblank
  · have hsplit : line ++ '\x7b' :: '\n' :: rest = (line ++ ['\x7b']) ++ '\n' :: rest := by simp
    have hbrace : Text.isBlank '\x7b' = false := by decide
    rw [hsplit, trimFirst_append_feed (by simpa using hline), Text.trimEnd_append_cons hbrace]
    rfl

/-- An entry with a balanced value is read as it is written. -/
theorem IsBalanced.isStored {name value : List Char} (hvalue : IsBalanced value) (hname : IsName name) :
    IsStored (.ofList name, .ofList value) := by
  obtain ⟨c, hhead, hblank, hc⟩ := hvalue.head
  have hbehind := behind?_of_depthAfter (hvalue.depth 0 (Int.le_refl 0))
  have hstored := isStored_of_closesAt hname hhead hblank hc (closesAt_of_behind? hbehind)
  rwa [hvalue.trimFirst_eq] at hstored

end TerraStack.Tfvars
