import TerraStack.Text.Blank
import TerraStack.Text.Lines

namespace TerraStack.Text

/-- The first line of a text and what follows its end, if anything does. -/
theorem eq_or_exists_feed (text : List Char) :
    '\n' ∉ text ∨ ∃ line rest, '\n' ∉ line ∧ text = line ++ '\n' :: rest := by
  by_cases hfeed : '\n' ∈ text
  · obtain ⟨line, rest, rfl, hline⟩ := List.eq_append_cons_of_mem hfeed
    exact .inr ⟨line, rest, hline, rfl⟩
  · exact .inl hfeed

/-- A line without the carriage return at its end. -/
def withoutReturn (line : List Char) : List Char :=
  (dropReturn line.reverse).reverse

/-- Without carriage returns there is none to lose. -/
theorem withoutReturn_of_not_mem {line : List Char} (hline : '\r' ∉ line) : withoutReturn line = line := by
  unfold withoutReturn
  rw [dropReturn_of_not_mem (by simpa using hline), List.reverse_reverse]

/-- A carriage return at the end is lost. -/
theorem withoutReturn_concat (line : List Char) : withoutReturn (line ++ ['\r']) = line := by
  simp [withoutReturn, dropReturn]

theorem mem_withoutReturn {line : List Char} {c : Char} (hc : c ∈ withoutReturn line) : c ∈ line :=
  List.mem_reverse.mp (mem_dropReturn (List.mem_reverse.mp hc))

/-- A line loses a carriage return at its end, or nothing. -/
theorem eq_or_eq_concat_return (line : List Char) :
    withoutReturn line = line ∨ line = withoutReturn line ++ ['\r'] := by
  unfold withoutReturn dropReturn
  split
  · next rest hreverse =>
    have hline := congrArg List.reverse hreverse
    rw [List.reverse_reverse, List.reverse_cons] at hline
    exact .inr hline
  · exact .inl (List.reverse_reverse line)

/-- A line is trimmed to the same text whether or not the carriage return is taken for its end. -/
theorem trimChars_withoutReturn (line : List Char) : trimChars (withoutReturn line) = trimChars line := by
  rcases eq_or_eq_concat_return line with hkept | hdropped
  · rw [hkept]
  · have htrimmed := trimChars_concat_of_blank (c := '\r') (by decide) (withoutReturn line)
    rw [← hdropped] at htrimmed
    exact htrimmed.symm

/-- A line that has ended, in front of a text. -/
theorem lineChars_append_feed_of_not_mem {line : List Char} (hline : '\n' ∉ line) (rest : List Char) :
    lineChars (line ++ '\n' :: rest) = withoutReturn line :: lineChars rest := by
  unfold withoutReturn
  rw [lineChars, linesFrom_append_feed hline, List.append_nil]

/-- A text without line feeds is one line, unless it is empty. -/
theorem lineChars_of_not_mem {line : List Char} (hline : '\n' ∉ line) :
    lineChars line = if line = [] then [] else [line] := by
  rw [lineChars, linesFrom_of_not_mem hline]
  simp

/-- No line has a line feed. -/
theorem noFeed_of_mem_lineChars {text line : List Char} (hline : line ∈ lineChars text) :
    '\n' ∉ line := by
  rcases eq_or_exists_feed text with hfeed | ⟨first, rest, hfeed, rfl⟩
  · rw [lineChars_of_not_mem hfeed] at hline
    split at hline
    · cases hline
    · obtain rfl := List.mem_singleton.mp hline
      exact hfeed
  · rw [lineChars_append_feed_of_not_mem hfeed] at hline
    rcases List.mem_cons.mp hline with rfl | hrest
    · exact fun hmem => hfeed (mem_withoutReturn hmem)
    · exact noFeed_of_mem_lineChars hrest
termination_by text.length

/-- A line loses its last character only if that is the carriage return of a line end. -/
theorem withoutReturn_of_not_infix {line rest : List Char}
    (hreturn : ¬ ['\r', '\n'] <:+: line ++ '\n' :: rest) : withoutReturn line = line := by
  refine (eq_or_eq_concat_return line).resolve_right fun hdropped => hreturn ?_
  exact ⟨withoutReturn line, rest, by rw [hdropped, withoutReturn_concat]; simp⟩

/-- The lines of a text whose last line has ended are no other lines. That line loses a carriage
return at its end. -/
theorem exists_last_line (text : List Char) : ∃ before last,
    lineChars text = before ++ (if last = [] then [] else [last]) ∧
    lineChars (text ++ ['\n']) = before ++ [withoutReturn last] := by
  rcases eq_or_exists_feed text with hline | ⟨line, rest, hline, rfl⟩
  · exact ⟨[], text, lineChars_of_not_mem hline, lineChars_append_feed_of_not_mem hline []⟩
  · obtain ⟨before, last, hopen, hended⟩ := exists_last_line rest
    refine ⟨withoutReturn line :: before, last, ?_, ?_⟩
    · rw [lineChars_append_feed_of_not_mem hline, hopen, List.cons_append]
    · rw [List.append_assoc, List.cons_append, lineChars_append_feed_of_not_mem hline, hended,
        List.cons_append]
termination_by text.length

/-- The lines of a text behind a line end are read behind the lines before it. -/
theorem lineChars_append_cons_feed (text more : List Char) :
    lineChars (text ++ '\n' :: more) = lineChars (text ++ ['\n']) ++ lineChars more := by
  rcases eq_or_exists_feed text with hline | ⟨line, rest, hline, rfl⟩
  · rw [lineChars_append_feed_of_not_mem hline, lineChars_append_feed_of_not_mem hline, List.cons_append]
    rfl
  · rw [List.append_assoc, List.append_assoc, List.cons_append, List.cons_append,
      lineChars_append_feed_of_not_mem hline, lineChars_append_feed_of_not_mem hline, List.cons_append,
      lineChars_append_cons_feed rest more]
termination_by text.length

/-- The first piece of a text ends at its first line feed. -/
theorem splitOn_append_feed {line : List Char} (hline : '\n' ∉ line) (rest : List Char) :
    (line ++ '\n' :: rest).splitOn '\n' = line :: rest.splitOn '\n' := by
  have hall : ∀ c ∈ line, (c == '\n') = false := by
    intro c hc
    rw [beq_eq_false_iff_ne]
    exact fun heq => hline (heq ▸ hc)
  rw [List.splitOn_eq_splitOnP, List.splitOn_eq_splitOnP]
  exact List.splitOnP_append_cons_of_forall_mem hall '\n' (beq_self_eq_true '\n') rest

/-- A text is taken apart at its first line feed in one way only. -/
theorem append_feed_inj {line other rest more : List Char} (hline : '\n' ∉ line) (hother : '\n' ∉ other)
    (htext : line ++ '\n' :: rest = other ++ '\n' :: more) : line = other ∧ rest = more := by
  have hpieces := congrArg (List.splitOn '\n') htext
  rw [splitOn_append_feed hline, splitOn_append_feed hother] at hpieces
  have hsame : line = other := (List.cons.inj hpieces).1
  rw [hsame] at htext
  exact ⟨hsame, (List.cons.inj (List.append_cancel_left htext)).2⟩

/-- A carriage return in front of a line feed is in the end of the first line, or behind that line. -/
theorem return_of_infix {line rest : List Char} (hline : '\n' ∉ line)
    (hreturn : ['\r', '\n'] <:+: line ++ '\n' :: rest) :
    line = withoutReturn line ++ ['\r'] ∨ ['\r', '\n'] <:+: rest := by
  obtain ⟨front, back, hsplit⟩ := hreturn
  rcases eq_or_exists_feed front with hfront | ⟨first, others, hfirst, rfl⟩
  · have hends : '\n' ∉ front ++ ['\r'] := by simpa using hfront
    obtain ⟨rfl, -⟩ := append_feed_inj hends hline (by simpa using hsplit)
    rw [withoutReturn_concat]
    exact .inl rfl
  · have hrest : first ++ '\n' :: (others ++ ['\r', '\n'] ++ back) = line ++ '\n' :: rest := by
      simpa using hsplit
    obtain ⟨-, rfl⟩ := append_feed_inj hfirst hline hrest
    exact .inr ⟨others, back, rfl⟩

/-- What is left of a line is part of it. -/
theorem withoutReturn_sublist (line : List Char) : (withoutReturn line).Sublist line := by
  rcases eq_or_eq_concat_return line with hkept | hdropped
  · simp only [hkept, List.Sublist.refl]
  · have hsublist := List.sublist_append_left (withoutReturn line) ['\r']
    rwa [← hdropped] at hsublist

/-- The lines of a text, one behind the other, are the text but for some line ends. -/
theorem flatten_lineChars_sublist (text : List Char) : (lineChars text).flatten.Sublist text := by
  rcases eq_or_exists_feed text with hline | ⟨line, rest, hline, rfl⟩
  · rw [lineChars_of_not_mem hline]
    split <;> simp
  · rw [lineChars_append_feed_of_not_mem hline, List.flatten_cons]
    exact (withoutReturn_sublist line).append (.cons _ (flatten_lineChars_sublist rest))
termination_by text.length

/-- A carriage return in front of a line feed is in no line, so the lines have fewer of them. -/
theorem count_flatten_lineChars_lt {text : List Char} (hreturn : ['\r', '\n'] <:+: text) :
    (lineChars text).flatten.count '\r' < text.count '\r' := by
  rcases eq_or_exists_feed text with hline | ⟨line, rest, hline, rfl⟩
  · exact absurd (hreturn.subset (List.mem_cons_of_mem _ List.mem_cons_self)) hline
  · rw [lineChars_append_feed_of_not_mem hline, List.flatten_cons, List.count_append,
      List.count_append, List.count_cons_of_ne (by decide)]
    rcases return_of_infix hline hreturn with hends | hbehind
    · have hline := congrArg (List.count '\r') hends
      have hrest := (flatten_lineChars_sublist rest).count_le '\r'
      rw [List.count_append, List.count_singleton_self] at hline
      omega
    · have hfirst := (withoutReturn_sublist line).count_le '\r'
      have hrest := count_flatten_lineChars_lt hbehind
      omega
termination_by text.length

/-- The lines of a text and the pieces between its line feeds differ by carriage returns at their
ends and by an empty piece at the end of the text. Where these do not count, there are as many lines
as pieces. -/
theorem countP_lineChars {p : List Char → Bool} (hempty : p [] = false)
    (hreturn : ∀ line, p (withoutReturn line) = p line) (text : List Char) :
    (lineChars text).countP p = (text.splitOn '\n').countP p := by
  rcases eq_or_exists_feed text with hline | ⟨line, rest, hline, rfl⟩
  · rw [lineChars_of_not_mem hline, List.splitOn_eq_singleton hline]
    split
    · next hnothing => simp [hnothing, hempty]
    · rfl
  · rw [lineChars_append_feed_of_not_mem hline, splitOn_append_feed hline, List.countP_cons,
      List.countP_cons, hreturn, countP_lineChars hempty hreturn rest]
termination_by text.length

/-- What is said of a line without regard to its end, and not of an empty one, is true of some line
exactly if it is true of some piece between line feeds. -/
theorem exists_mem_lineChars_iff {P : List Char → Prop} (hempty : ¬ P [])
    (hreturn : ∀ line, P (withoutReturn line) ↔ P line) (text : List Char) :
    (∃ line ∈ lineChars text, P line) ↔ ∃ piece ∈ text.splitOn '\n', P piece := by
  classical
  have hcount := countP_lineChars (p := fun line => decide (P line)) (by simpa using hempty)
    (by simpa using hreturn) text
  have hlines := List.countP_pos_iff (p := fun line => decide (P line)) (l := lineChars text)
  have hpieces := List.countP_pos_iff (p := fun line => decide (P line)) (l := text.splitOn '\n')
  simp only [decide_eq_true_eq] at hlines hpieces
  rw [← hlines, ← hpieces, hcount]

/-- A text with some line end in the place of every line feed. -/
def endLines (lineEnd text : List Char) : List Char :=
  text.flatMap fun c => if c = '\n' then lineEnd else [c]

/-- A text without line feeds has no line ends to write. -/
theorem endLines_of_not_mem {line : List Char} (hline : '\n' ∉ line) (lineEnd : List Char) :
    endLines lineEnd line = line := by
  induction line with
  | nil => rfl
  | cons c rest ih =>
    rw [List.mem_cons, not_or] at hline
    have hrest := ih hline.2
    unfold endLines at hrest ⊢
    rw [List.flatMap_cons, if_neg (Ne.symm hline.1), hrest, List.singleton_append]

/-- The first line end is written behind the first line. -/
theorem endLines_append_feed {line : List Char} (hline : '\n' ∉ line) (lineEnd rest : List Char) :
    endLines lineEnd (line ++ '\n' :: rest) = line ++ (lineEnd ++ endLines lineEnd rest) := by
  have hkept := endLines_of_not_mem hline lineEnd
  unfold endLines at hkept ⊢
  rw [List.flatMap_append, hkept, List.flatMap_cons, if_pos rfl]

/-- Lines are the same whichever way they end. -/
theorem lineChars_endLines {text : List Char} (htext : '\r' ∉ text) {lineEnd : List Char}
    (hend : lineEnd ∈ [['\n'], ['\r', '\n']]) : lineChars (endLines lineEnd text) = lineChars text := by
  rcases eq_or_exists_feed text with hline | ⟨line, rest, hline, rfl⟩
  · rw [endLines_of_not_mem hline]
  · rw [List.mem_append, List.mem_cons, not_or, not_or] at htext
    have hrest : lineChars (endLines lineEnd rest) = lineChars rest :=
      lineChars_endLines htext.2.2 hend
    rw [endLines_append_feed hline, lineChars_append_feed_of_not_mem hline,
      withoutReturn_of_not_mem htext.1, ← hrest]
    simp only [List.mem_cons, List.not_mem_nil, or_false] at hend
    rcases hend with rfl | rfl
    · rw [List.singleton_append, lineChars_append_feed_of_not_mem hline,
        withoutReturn_of_not_mem htext.1]
    · have hsplit : line ++ (['\r', '\n'] ++ endLines ['\r', '\n'] rest) =
          (line ++ ['\r']) ++ '\n' :: endLines ['\r', '\n'] rest := by simp
      have hreturn : '\n' ∉ line ++ ['\r'] := by simpa using hline
      rw [hsplit, lineChars_append_feed_of_not_mem hreturn, withoutReturn_concat]
termination_by text.length

end TerraStack.Text
