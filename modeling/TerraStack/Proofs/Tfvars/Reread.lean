import Mathlib.Data.List.TakeWhile
import TerraStack.Proofs.Text.LineEnds
import TerraStack.Tfvars.Merge

namespace TerraStack.Tfvars

open Text (IsTrimmed lineChars)

/-- The entry that a name and the first line of its value begin. -/
def OpenEntry.begin (name value : List Char) : OpenEntry :=
  ⟨name, value, bracketDepth value, heredocMarker? value⟩

/-- The text of an entry. -/
def OpenEntry.text (entry : OpenEntry) : List Char :=
  entry.name ++ ' ' :: '=' :: ' ' :: entry.value

/-- What can be the name of an entry: it has no equal sign, and it does not start like a comment. -/
structure IsName (name : List Char) : Prop where
  noFeed : '\n' ∉ name
  isTrimmed : IsTrimmed name
  noEqual : '=' ∉ name
  noHash : ¬ ['#'] <+: name
  noSlashes : ¬ ['/', '/'] <+: name

/-- An entry that was read line by line, and that was not complete before its last line. -/
inductive ReadByLine : OpenEntry → Prop where
  | begin {name value : List Char} (hname : IsName name) (hvalue : '\n' ∉ value)
      (htrimmed : IsTrimmed value) : ReadByLine (.begin name value)
  | addLine {entry : OpenEntry} {line : List Char} (hreadByLine : ReadByLine entry)
      (hopen : entry.isComplete = false) (hline : '\n' ∉ line) : ReadByLine (entry.addLine line)

@[simp] theorem OpenEntry.name_begin (name value : List Char) :
    (OpenEntry.begin name value).name = name := rfl

@[simp] theorem OpenEntry.value_begin (name value : List Char) :
    (OpenEntry.begin name value).value = value := rfl

@[simp] theorem OpenEntry.name_addLine (entry : OpenEntry) (line : List Char) :
    (entry.addLine line).name = entry.name := by
  unfold addLine
  split
  · split <;> rfl
  · rfl

@[simp] theorem OpenEntry.value_addLine (entry : OpenEntry) (line : List Char) :
    (entry.addLine line).value = entry.value ++ '\n' :: line := by
  unfold addLine
  split
  · split <;> rfl
  · rfl

theorem OpenEntry.text_addLine (entry : OpenEntry) (line : List Char) :
    (entry.addLine line).text = entry.text ++ '\n' :: line := by
  simp [text]

/-- An empty line completes nothing: it balances no brackets, and a marker is never empty. -/
theorem OpenEntry.isComplete_addLine_nil {entry : OpenEntry} (hmarker : entry.marker ≠ some [])
    (hopen : entry.isComplete = false) : (entry.addLine []).isComplete = false := by
  cases hmark : entry.marker with
  | none => simpa [addLine, hmark, isComplete, bracketDepth, depthFrom] using hopen
  | some marker =>
    have hne : ¬ [] = marker := fun heq => hmarker (heq ▸ hmark)
    simp [addLine, hmark, isComplete, Text.trimChars, Text.trimEnd, Text.trimStart, hne]

/-- A line says nothing if it is empty or a comment. -/
theorem isSilent_iff {line : List Char} :
    isSilent line = true ↔ line = [] ∨ ['#'] <+: line ∨ ['/', '/'] <+: line := by
  have hstart (start : List Char) : (Text.afterStart? start line).isSome = true ↔ start <+: line := by
    simp only [Option.isSome_iff_exists, Text.afterStart?_eq_some_iff, List.IsPrefix,
      eq_comm (a := line)]
  unfold isSilent
  rw [Bool.or_eq_true, Bool.or_eq_true, List.isEmpty_iff, hstart, hstart, or_assoc]

/-- A line is split at its first equal sign. -/
theorem splitEqual?_append_equal {before : List Char} (hbefore : '=' ∉ before) (after : List Char) :
    splitEqual? (before ++ '=' :: after) = some (before, after) := by
  have hall : ∀ c ∈ before, decide (c ≠ '=') = true :=
    fun c hc => decide_eq_true fun heq => hbefore (heq ▸ hc)
  unfold splitEqual?
  rw [List.dropWhile_append_of_pos hall, List.takeWhile_append_of_pos hall]
  simp

theorem eq_append_of_splitEqual? {line name value : List Char}
    (hsplit : splitEqual? line = some (name, value)) : line = name ++ '=' :: value ∧ '=' ∉ name := by
  unfold splitEqual? at hsplit
  split at hsplit
  · cases hsplit
  · next c rest hdrop =>
    obtain ⟨rfl, rfl⟩ := Prod.mk.inj (Option.some.inj hsplit)
    have hequal : c = '=' := by
      have hhead := List.head?_dropWhile_not (fun c => decide (c ≠ '=')) line
      rw [hdrop] at hhead
      simpa using hhead
    refine ⟨?_, fun hmem => ?_⟩
    · have hall := List.takeWhile_append_dropWhile (p := fun c => decide (c ≠ '=')) (l := line)
      rw [hdrop, hequal] at hall
      exact hall.symm
    · simpa using List.mem_takeWhile_imp hmem

theorem isBlank_equal : Text.isBlank '=' = false := by decide

/-- What a line of an entry has in front of the equal sign, without white space at the start. -/
def padded (name : List Char) : List Char :=
  if name = [] then [] else name ++ [' ']

namespace IsName

variable {name : List Char}

/-- A name with a space behind it is trimmed in front only. -/
theorem trimStart_append_space (hname : IsName name) :
    Text.trimStart (name ++ [' ']) = padded name := by
  unfold padded
  split
  · next hnil =>
    subst hnil
    rfl
  · next hne =>
    refine Text.trimStart_of_head fun c hc => hname.isTrimmed.head c ?_
    cases name with
    | nil => exact absurd rfl hne
    | cons first rest => exact hc

/-- Trimmed on both sides it is the name. -/
theorem trimChars_padded (hname : IsName name) : Text.trimChars (padded name) = name := by
  have hstart := hname.trimStart_append_space
  unfold padded at hstart ⊢
  split
  · next hnil =>
    subst hnil
    rfl
  · next hne =>
    rw [if_neg hne] at hstart
    unfold Text.trimChars
    rw [hstart, Text.trimEnd_concat_of_blank (by decide), hname.isTrimmed.trimEnd_eq]

/-- There is no equal sign in it. -/
theorem noEqual_padded (hname : IsName name) : '=' ∉ padded name := by
  unfold padded
  split
  · exact List.not_mem_nil
  · simpa using hname.noEqual

/-- A line with a name in front of an equal sign is no comment. -/
theorem isSilent_eq_false (hname : IsName name) (rest : List Char) :
    isSilent (padded name ++ '=' :: rest) = false := by
  refine Bool.eq_false_iff.mpr fun hsilent => ?_
  have hhash := hname.noHash
  have hslashes := hname.noSlashes
  rw [isSilent_iff] at hsilent
  -- A comment sign would have to lie within the name: a space or the equal sign follows.
  match name with
  | [] => simp [padded] at hsilent
  | [c] => simp_all [padded]
  | c :: d :: more =>
    simp only [padded, reduceCtorEq, if_false, List.cons_append, List.cons_prefix_cons,
      List.nil_prefix, and_true, false_or] at hsilent hhash hslashes
    exact hsilent.elim hhash hslashes

end IsName

/-- A space in front of a trimmed value stays unless the value is empty. -/
theorem trimEnd_cons_space {value : List Char} (htrimmed : IsTrimmed value) :
    Text.trimEnd (' ' :: value) = if value = [] then [] else ' ' :: value := by
  split
  · next hnil =>
    subst hnil
    rfl
  · next hne =>
    refine Text.trimEnd_of_last fun c hc => htrimmed.last c ?_
    rwa [List.getLast?_cons_of_ne_nil hne] at hc

/-- Trimmed on both sides it is the value. -/
theorem trimChars_trimEnd_cons_space {value : List Char} (htrimmed : IsTrimmed value) :
    Text.trimChars (Text.trimEnd (' ' :: value)) = value := by
  rw [trimEnd_cons_space htrimmed]
  split
  · next hnil =>
    subst hnil
    rfl
  · rw [Text.trimChars_cons_of_blank (by decide), htrimmed.trimChars_eq]

/-- The text of an entry of one line is read as that entry. -/
theorem beginEntry?_text_begin {name value : List Char} (hname : IsName name)
    (htrimmed : IsTrimmed value) :
    beginEntry? (OpenEntry.begin name value).text = some (.begin name value) := by
  have htext : (OpenEntry.begin name value).text = (name ++ [' ']) ++ '=' :: (' ' :: value) := by
    simp [OpenEntry.text]
  unfold beginEntry?
  simp only [htext, Text.trimChars_append_cons isBlank_equal, hname.trimStart_append_space,
    hname.isSilent_eq_false, splitEqual?_append_equal hname.noEqual_padded,
    Option.map_some, hname.trimChars_padded, trimChars_trimEnd_cons_space htrimmed]
  rfl

/-- The name and the value of an entry that a line begins are in the line, one behind the other. -/
theorem sublist_of_begin {line : List Char} {entry : OpenEntry}
    (hbegin : beginEntry? line = some entry) : (entry.name ++ entry.value).Sublist line := by
  unfold beginEntry? at hbegin
  simp only at hbegin
  split at hbegin
  · cases hbegin
  · obtain ⟨⟨name, value⟩, hsplit, rfl⟩ := Option.map_eq_some_iff.mp hbegin
    have hsublist : (Text.trimChars line).Sublist line := Text.trimChars_sublist line
    rw [(eq_append_of_splitEqual? hsplit).1] at hsublist
    have hvalue := (Text.trimChars_sublist value).trans (List.sublist_cons_self '=' value)
    exact ((Text.trimChars_sublist name).append hvalue).trans hsublist

/-- An entry that a line begins can be written on one line. -/
theorem readByLine_of_begin {line : List Char} {entry : OpenEntry} (hline : '\n' ∉ line)
    (hbegin : beginEntry? line = some entry) : ReadByLine entry := by
  have hparts := sublist_of_begin hbegin
  unfold beginEntry? at hbegin
  simp only at hbegin
  split at hbegin
  · cases hbegin
  · next hspeaks =>
    obtain ⟨⟨name, value⟩, hsplit, rfl⟩ := Option.map_eq_some_iff.mp hbegin
    obtain ⟨htrim, hequal⟩ := eq_append_of_splitEqual? hsplit
    have hvalue : '\n' ∉ Text.trimChars value := fun hmem =>
      hline (hparts.mem (List.mem_append_right _ hmem))
    rw [htrim] at hspeaks
    -- The line is trimmed, so the name is cut at its end only.
    have hstart : Text.trimStart name = name := by
      refine Text.trimStart_of_head fun c hc => (Text.isTrimmed_trimChars line).head c ?_
      rw [htrim, List.head?_append, hc]
      rfl
    have hstarts : Text.trimChars name <+: name ++ '=' :: value := by
      have hend := Text.trimEnd_isPrefix (Text.trimStart name)
      rw [hstart] at hend
      unfold Text.trimChars
      rw [hstart]
      exact hend.trans (List.prefix_append name _)
    have hisName : IsName (Text.trimChars name) := {
      noFeed := fun hmem => hline (hparts.mem (List.mem_append_left _ hmem))
      isTrimmed := Text.isTrimmed_trimChars name
      noEqual := fun hmem => hequal ((Text.trimChars_sublist name).mem hmem)
      noHash := fun hhash => hspeaks (isSilent_iff.mpr (.inr (.inl (hhash.trans hstarts))))
      noSlashes := fun hslashes =>
        hspeaks (isSilent_iff.mpr (.inr (.inr (hslashes.trans hstarts)))) }
    exact .begin hisName hvalue (Text.isTrimmed_trimChars value)

namespace ReadByLine

variable {entry : OpenEntry}

/-- An entry that was begun is on one line. -/
theorem noFeed_text_begin {name value : List Char} (hname : IsName name) (hvalue : '\n' ∉ value) :
    '\n' ∉ (OpenEntry.begin name value).text := by
  simpa [OpenEntry.text, hvalue] using hname.noFeed

/-- A marker that ends a heredoc is never empty. -/
theorem marker_ne_nil (hreadByLine : ReadByLine entry) : entry.marker ≠ some [] := by
  induction hreadByLine with
  | begin =>
    simp only [OpenEntry.begin, heredocMarker?, ne_eq, Option.bind_eq_some_iff, not_exists]
    rintro rest ⟨_, hmarker⟩
    split at hmarker
    · cases hmarker
    · next hne => exact hne (List.isEmpty_iff.mpr (Option.some.inj hmarker))
  | @addLine entry line _ _ _ ih =>
    unfold OpenEntry.addLine
    split
    · next hmarker =>
      split
      · intro hnone
        cases hnone
      · exact ih
    · exact ih

/-- Reading an entry that more lines follow. Its text may hold carriage returns, but none of them is
taken for a part of a line end. -/
theorem foldl_text_append (hreadByLine : ReadByLine entry)
    (hreturn : ¬ ['\r', '\n'] <:+: entry.text ++ ['\n']) (entries : OrderedMap String String)
    (rest : List Char) :
    (lineChars (entry.text ++ '\n' :: rest)).foldl Reading.addLine ⟨entries, none⟩ =
      (lineChars rest).foldl Reading.addLine (Reading.keep ⟨entries, none⟩ entry) := by
  -- The last line is read last: the lines before it are read with that line as part of the rest.
  induction hreadByLine generalizing rest with
  | begin hname hvalue htrimmed =>
    rw [Text.lineChars_append_feed_of_not_mem (noFeed_text_begin hname hvalue),
      Text.withoutReturn_of_not_infix hreturn, List.foldl_cons]
    simp only [Reading.addLine, beginEntry?_text_begin hname htrimmed]
  | @addLine entry line hreadByLine hopen hline ih =>
    have hkeep : Reading.keep ⟨entries, none⟩ entry = ⟨entries, some entry⟩ := by
      simp [Reading.keep, hopen]
    have hsplit : (entry.addLine line).text ++ ['\n'] = entry.text ++ ['\n'] ++ (line ++ ['\n']) := by
      simp [OpenEntry.text_addLine]
    rw [hsplit] at hreturn
    have hfront : ¬ ['\r', '\n'] <:+: entry.text ++ ['\n'] :=
      fun hmem => hreturn (hmem.trans (List.prefix_append _ _).isInfix)
    have hlast : ¬ ['\r', '\n'] <:+: line ++ ['\n'] :=
      fun hmem => hreturn (hmem.trans (List.suffix_append _ _).isInfix)
    rw [OpenEntry.text_addLine, List.append_assoc, List.cons_append, ih hfront,
      Text.lineChars_append_feed_of_not_mem hline, Text.withoutReturn_of_not_infix hlast,
      List.foldl_cons, hkeep]
    rfl

/-- Reading an entry at the end of a text, where its last line has no end to lose. -/
theorem foldl_text (hreadByLine : ReadByLine entry) (hcomplete : entry.isComplete = true)
    (hreturn : ¬ ['\r', '\n'] <:+: entry.text) (entries : OrderedMap String String) :
    (lineChars entry.text).foldl Reading.addLine ⟨entries, none⟩ =
      Reading.keep ⟨entries, none⟩ entry := by
  cases hreadByLine with
  | @begin name value hname hvalue htrimmed =>
    have hne : (OpenEntry.begin name value).text ≠ [] := by simp [OpenEntry.text]
    rw [Text.lineChars_of_not_mem (noFeed_text_begin hname hvalue), if_neg hne]
    simp only [List.foldl_cons, List.foldl_nil, Reading.addLine, beginEntry?_text_begin hname htrimmed]
  | @addLine entry line hreadByLine hopen hline =>
    -- An empty last line would not be read at all, but it would not complete the entry either.
    have hne : line ≠ [] := by
      rintro rfl
      rw [OpenEntry.isComplete_addLine_nil hreadByLine.marker_ne_nil hopen] at hcomplete
      cases hcomplete
    have hkeep : Reading.keep ⟨entries, none⟩ entry = ⟨entries, some entry⟩ := by
      simp [Reading.keep, hopen]
    have hsplit : entry.text ++ '\n' :: line = entry.text ++ ['\n'] ++ line := by simp
    rw [OpenEntry.text_addLine, hsplit] at hreturn
    have hfront : ¬ ['\r', '\n'] <:+: entry.text ++ ['\n'] :=
      fun hmem => hreturn (hmem.trans (List.prefix_append _ _).isInfix)
    rw [OpenEntry.text_addLine, hreadByLine.foldl_text_append hfront, Text.lineChars_of_not_mem hline,
      if_neg hne, hkeep]
    rfl

end ReadByLine
end TerraStack.Tfvars
