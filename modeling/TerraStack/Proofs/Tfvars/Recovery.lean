import Mathlib.Data.List.Nodup
import TerraStack.Proofs.Tfvars.Handwritten

namespace TerraStack.Tfvars.Handwritten

open Text (IsLine endLines lineChars)

/-- To trim the end first changes nothing. -/
theorem trimChars_trimEnd (text : List Char) :
    Text.trimChars (Text.trimEnd text) = Text.trimChars text := by
  induction text using List.reverseRecOn with
  | nil => rfl
  | append_singleton text c ih =>
    by_cases hblank : Text.isBlank c = true
    · rw [Text.trimEnd_concat_of_blank hblank, Text.trimChars_concat_of_blank hblank, ih]
    · rw [Text.trimEnd_append_cons (Bool.eq_false_iff.mpr hblank) text []]
      rfl

/-- White space around a name and a value makes no difference to the entry that a line begins. -/
theorem beginEntry?_line (indent before after : Margin) (name : Word) (value : List Char) :
    beginEntry? (indent.text ++ name.text ++ before.text ++ '=' :: (after.text ++ value)) =
      some (.begin name.text (Text.trimChars value)) := by
  have hname := isName_of_bare name.isBare
  have hstart : Text.trimStart (indent.text ++ name.text ++ before.text) =
      name.text ++ before.text := by
    rw [List.append_assoc, indent.trimStart_append]
    refine Text.trimStart_of_head fun c hc => hname.isTrimmed.head c ?_
    rwa [List.head?_append_of_ne_nil _ name.ne_nil] at hc
  have hequal : '=' ∉ name.text ++ before.text := by
    rw [List.mem_append, not_or]
    refine ⟨hname.noEqual, fun hmem => ?_⟩
    cases before.isBlank '=' hmem
  have hspeaks : isSilent (name.text ++ before.text ++ '=' :: Text.trimEnd (after.text ++ value)) =
      false := by
    obtain ⟨first, others, htext⟩ := List.exists_cons_of_ne_nil name.ne_nil
    have hfirst : first ∉ Hcl.meaningfulChars := name.isBare first (by simp [htext])
    have hsigns : '#' ∈ Hcl.meaningfulChars ∧ '/' ∈ Hcl.meaningfulChars := by decide
    refine Bool.eq_false_iff.mpr fun hsilent => ?_
    rw [isSilent_iff, htext] at hsilent
    simp only [List.cons_append, reduceCtorEq, List.cons_prefix_cons, false_or] at hsilent
    rcases hsilent with ⟨rfl, -⟩ | ⟨rfl, -⟩
    · exact hfirst hsigns.1
    · exact hfirst hsigns.2
  unfold beginEntry?
  simp only [Text.trimChars_append_cons isBlank_equal, hstart, hspeaks, splitEqual?_append_equal hequal,
    Option.map_some, trimChars_word, trimChars_trimEnd, after.trimChars_append]
  rfl

/-- The line of an entry up to its value. -/
def Entry.front (entry : Entry) : List Char :=
  entry.indent.text ++ entry.name.text ++ entry.before.text ++ '=' :: entry.after.text

/-- The front of an entry is on one line. -/
theorem Entry.isLine_front (entry : Entry) : IsLine entry.front := by
  have hequal : IsLine ['='] := by decide
  have hname := isLine_of_bare entry.name.isBare
  have hbefore := (entry.indent.isLine.append hname).append entry.before.isLine
  have hafter := hequal.append entry.after.isLine
  exact hbefore.append hafter

theorem Entry.text_eq (entry : Entry) : entry.text = entry.front ++ entry.rest := by
  simp [text, front]

/-- The front begins the entry with its name. -/
theorem Entry.beginEntry?_front (entry : Entry) (value : List Char) :
    beginEntry? (entry.front ++ value) = some (.begin entry.name.text (Text.trimChars value)) := by
  have hline := beginEntry?_line entry.indent entry.before entry.after entry.name value
  simpa [front] using hline

/-- The entry with no more white space than is written in front of a value that is stored. -/
def Entry.plain (entry : Entry) : Entry where
  indent := .empty
  name := entry.name
  before := .space
  after := .space
  value := entry.value
  margin := entry.margin

/-- Texts whose first lines begin the same entry are read alike. -/
theorem foldl_first_line {line other : List Char} (hline : IsLine line) (hother : IsLine other)
    (hbegin : beginEntry? line = beginEntry? other) (entries : OrderedMap String String)
    (rest : List Char) :
    (lineChars (line ++ '\n' :: rest)).foldl Reading.addLine ⟨entries, none⟩ =
      (lineChars (other ++ '\n' :: rest)).foldl Reading.addLine ⟨entries, none⟩ := by
  rw [Text.lineChars_append_feed hline, Text.lineChars_append_feed hother, List.foldl_cons,
    List.foldl_cons]
  simp only [Reading.addLine, hbegin]

/-- An entry is read like its name and its value with an equal sign in between. -/
theorem Entry.foldl_front (entry : Entry) (entries : OrderedMap String String) (rest : List Char) :
    (lineChars (entry.text ++ '\n' :: rest)).foldl Reading.addLine ⟨entries, none⟩ =
      (lineChars (entry.plain.front ++ trimFirst entry.rest ++ '\n' :: rest)).foldl Reading.addLine
        ⟨entries, none⟩ := by
  have hbegin (value : List Char) : beginEntry? (entry.front ++ value) =
      beginEntry? (entry.plain.front ++ Text.trimEnd value) := by
    rw [entry.beginEntry?_front, entry.plain.beginEntry?_front, trimChars_trimEnd]
    rfl
  have hlines {value : List Char} (hvalue : IsLine value) : IsLine (entry.front ++ value) ∧
      IsLine (entry.plain.front ++ Text.trimEnd value) := by
    have htrimmed : IsLine (Text.trimEnd value) := hvalue.sublist (Text.trimEnd_isPrefix value).sublist
    exact ⟨entry.isLine_front.append hvalue, entry.plain.isLine_front.append htrimmed⟩
  have hreturn := entry.noReturn_rest
  rw [entry.text_eq]
  rcases Text.eq_or_exists_feed entry.rest with hfeed | ⟨line, more, hfeed, hrest⟩
  · obtain ⟨hline, hplain⟩ := hlines ⟨hfeed, hreturn⟩
    rw [trimFirst_of_line hfeed]
    exact foldl_first_line hline hplain (hbegin entry.rest) entries rest
  · rw [hrest, List.mem_append, not_or] at hreturn
    obtain ⟨hline, hplain⟩ := hlines ⟨hfeed, hreturn.1⟩
    rw [hrest, trimFirst_append_feed hfeed]
    have hread := foldl_first_line hline hplain (hbegin line) entries (more ++ '\n' :: rest)
    simpa using hread

/-- An entry is kept with its value. -/
theorem Entry.foldl_text {entry : Entry} (hends : entry.endsInTime = true)
    (entries : OrderedMap String String) (rest : List Char) :
    (lineChars (entry.text ++ '\n' :: rest)).foldl Reading.addLine ⟨entries, none⟩ =
      (lineChars rest).foldl Reading.addLine
        ⟨entries.insert entry.reading.1 entry.reading.2, none⟩ := by
  obtain ⟨read, hreadByLine, _, htext, hkeep⟩ := (Entry.isStored hends).exists_read
  have hplain : entry.plain.front ++ trimFirst entry.rest = read.text := by
    rw [← htext]
    simp [front, plain, entryText, reading, key]
  have hreturn : '\r' ∉ read.text ++ ['\n'] := by
    rw [← hplain, List.mem_append, List.mem_append, not_or, not_or]
    exact ⟨⟨entry.plain.isLine_front.noReturn,
      fun hmem => entry.noReturn_rest ((trimFirst_sublist entry.rest).mem hmem)⟩, by decide⟩
  rw [entry.foldl_front, hplain, hreadByLine.foldl_text_append (not_infix_of_noReturn hreturn), hkeep]

/-- A blank line begins no entry. -/
theorem Margin.beginEntry?_text (margin : Margin) : beginEntry? margin.text = none := by
  have htrim := margin.trimChars_append []
  rw [List.append_nil] at htrim
  unfold beginEntry?
  simp only [htrim]
  rfl

/-- A comment on a line of its own begins no entry. -/
theorem Comment.beginEntry?_text (comment : Comment) (indent : Margin) :
    beginEntry? (indent.text ++ comment.text) = none := by
  have hsilent : isSilent (Text.trimChars (indent.text ++ comment.text)) = true := by
    rw [indent.trimChars_append]
    unfold text
    split
    · have hblank : Text.isBlank '/' = false := by decide
      have htrim := Text.trimChars_append_cons hblank ['/'] comment.rest
      rw [List.singleton_append] at htrim
      rw [htrim]
      rfl
    · have hblank : Text.isBlank '#' = false := by decide
      have htrim := Text.trimChars_append_cons hblank [] comment.rest
      rw [List.nil_append] at htrim
      rw [htrim]
      rfl
  unfold beginEntry?
  simp only [hsilent, if_true]

/-- A line that begins no entry says nothing. -/
theorem foldl_silent_line {line : List Char} (hline : IsLine line) (hnone : beginEntry? line = none)
    (entries : OrderedMap String String) (rest : List Char) :
    (lineChars (line ++ '\n' :: rest)).foldl Reading.addLine ⟨entries, none⟩ =
      (lineChars rest).foldl Reading.addLine ⟨entries, none⟩ := by
  rw [Text.lineChars_append_feed hline, List.foldl_cons]
  simp only [Reading.addLine, hnone]

/-- Some entries, and behind them those of some parts. -/
def keepParts (entries : OrderedMap String String) (parts : List Part) : OrderedMap String String :=
  ((entriesOf parts).map Entry.reading).foldl (fun map entry => map.insert entry.1 entry.2) entries

theorem keepParts_cons (entries : OrderedMap String String) (part : Part) (parts : List Part) :
    keepParts entries (part :: parts) = keepParts (keepParts entries [part]) parts := by
  cases part <;> rfl

/-- A part is read, and the text behind it after that. -/
theorem foldl_part {parts : List Part}
    (hends : ∀ entry ∈ entriesOf parts, entry.endsInTime = true)
    {part : Part} (hpart : part ∈ parts) (entries : OrderedMap String String) (rest : List Char) :
    (lineChars (part.text ++ '\n' :: rest)).foldl Reading.addLine ⟨entries, none⟩ =
      (lineChars rest).foldl Reading.addLine ⟨keepParts entries [part], none⟩ := by
  cases part with
  | blank margin => exact foldl_silent_line margin.isLine margin.beginEntry?_text entries rest
  | comment indent note =>
    have hline : IsLine (indent.text ++ note.text) := indent.isLine.append note.isLine_text
    exact foldl_silent_line hline (note.beginEntry?_text indent) entries rest
  | entry entry =>
    have hmem : entry ∈ entriesOf parts := List.mem_filterMap.mpr ⟨.entry entry, hpart, rfl⟩
    exact Entry.foldl_text (hends entry hmem) entries rest

/-- A file is read part by part. -/
theorem foldl_fileText {parts : List Part}
    (hends : ∀ entry ∈ entriesOf parts, entry.endsInTime = true) (entries : OrderedMap String String) :
    (lineChars (fileText parts ++ ['\n'])).foldl Reading.addLine ⟨entries, none⟩ =
      ⟨keepParts entries parts, none⟩ := by
  induction parts generalizing entries with
  | nil => exact foldl_silent_line .nil rfl entries []
  | cons part parts ih =>
    have hpart := foldl_part hends List.mem_cons_self entries
    have hothers : ∀ entry ∈ entriesOf parts, entry.endsInTime = true := by
      intro entry hmem
      obtain ⟨other, hother, heq⟩ := List.mem_filterMap.mp hmem
      exact hends entry (List.mem_filterMap.mpr ⟨other, List.mem_cons_of_mem part hother, heq⟩)
    cases parts with
    | nil => exact hpart []
    | cons next rest =>
      have hrest := ih hothers (keepParts entries [part])
      rw [fileText, List.append_assoc, List.cons_append, hpart, hrest, ← keepParts_cons]

/-- An end of the last line makes no difference. -/
theorem entries_foldl_concat_feed {text : List Char} (htext : '\r' ∉ text) :
    ((lineChars (text ++ ['\n'])).foldl Reading.addLine ⟨∅, none⟩).entries =
      ((lineChars text).foldl Reading.addLine ⟨∅, none⟩).entries := by
  have hreadByLine := all_readByLine text
  obtain ⟨before, last, hopen, hended⟩ := Text.exists_last_line text
  by_cases hlast : last = []
  · rw [if_pos hlast, List.append_nil] at hopen
    have hempty : Text.withoutReturn [] = [] := rfl
    rw [hended, hlast, hempty, ← hopen, List.foldl_append, List.foldl_cons, List.foldl_nil]
    -- The line that is added is blank, and a blank line completes nothing.
    cases hreading : ((lineChars text).foldl Reading.addLine ⟨∅, none⟩).open? with
    | none =>
      have hnone : beginEntry? [] = none := rfl
      simp only [Reading.addLine, hreading, hnone]
    | some entry =>
      obtain ⟨hentry, hincomplete⟩ := hreadByLine.opened entry hreading
      have hstays := OpenEntry.isComplete_addLine_nil hentry.marker_ne_nil hincomplete
      simp only [Reading.addLine, hreading, Reading.keep, hstays, Bool.false_eq_true, if_false]
  · rw [if_neg hlast] at hopen
    have hmem : last ∈ lineChars text := by
      rw [hopen]
      exact List.mem_append_right before (List.mem_singleton_self last)
    have hreturn := (Text.isLine_of_mem_lineChars htext hmem).noReturn
    rw [hended, Text.withoutReturn_of_not_mem hreturn, hopen]

/-- No file of the grammar has a carriage return but those of its line ends. -/
theorem noReturn_fileText (parts : List Part) : '\r' ∉ fileText parts := by
  have hpart (part : Part) : '\r' ∉ part.text := by
    cases part with
    | blank margin => exact margin.isLine.noReturn
    | comment indent note => exact (indent.isLine.append note.isLine_text).noReturn
    | entry entry =>
      rw [Part.text, entry.text_eq, List.mem_append, not_or]
      exact ⟨entry.isLine_front.noReturn, entry.noReturn_rest⟩
  induction parts with
  | nil => exact List.not_mem_nil
  | cons part parts ih =>
    cases parts with
    | nil => exact hpart part
    | cons next rest =>
      rw [fileText, List.mem_append, List.mem_cons, not_or, not_or]
      exact ⟨hpart part, by decide, ih⟩

/-- The lines of a file are read alike, whichever way they end. -/
theorem parse_endLines (parts : List Part) {lineEnd : List Char}
    (hend : lineEnd ∈ [['\n'], ['\r', '\n']]) :
    parse (.ofList (endLines lineEnd (fileText parts))) =
      ((lineChars (fileText parts)).foldl Reading.addLine ⟨∅, none⟩).entries := by
  unfold parse
  rw [String.toList_ofList, Text.lineChars_endLines (noReturn_fileText parts) hend]

/-- All entries of a file are read whose values end with their last lines, and not before. -/
theorem isRecovered_of_endsInTime {parts : List Part}
    (hnodup : ((entriesOf parts).map Entry.key).Nodup)
    (hends : ∀ entry ∈ entriesOf parts, entry.endsInTime = true) : IsRecovered parts := by
  intro lineEnd hend
  have hdistinct : (((entriesOf parts).map Entry.reading).map Prod.fst).Nodup := by
    rw [List.map_map]
    exact hnodup
  rw [parse_endLines parts hend, ← entries_foldl_concat_feed (noReturn_fileText parts),
    foldl_fileText hends]
  exact OrderedMap.entries_foldl_insert hdistinct

/-- An entry that was read up to now: its value starts like a heredoc, or each of its lines but the
last has left a bracket open. -/
def ReadsOn (entry : OpenEntry) : Prop :=
  entry.value.head? = some '<' ∨ entry.marker = none ∧
    (entry.depth ≤ 0 → closesAt 0 entry.value = true) ∧
    ∀ more, 0 < entry.depth → closesAt entry.depth more = true →
      closesAt 0 (entry.value ++ '\n' :: more) = true

/-- An entry that has just begun can be read on. -/
theorem readsOn_of_begin {line : List Char} {entry : OpenEntry} (hline : '\n' ∉ line)
    (hbegin : beginEntry? line = some entry) : ReadsOn entry := by
  have hvalue : '\n' ∉ entry.value := fun hmem =>
    hline ((sublist_of_begin hbegin).mem (List.mem_append_right _ hmem))
  have hshape : entry.depth = bracketDepth entry.value ∧
      entry.marker = heredocMarker? entry.value := by
    unfold beginEntry? at hbegin
    simp only at hbegin
    split at hbegin
    · cases hbegin
    · obtain ⟨parts, -, rfl⟩ := Option.map_eq_some_iff.mp hbegin
      exact ⟨rfl, rfl⟩
  obtain ⟨hdepth, hmarker⟩ := hshape
  by_cases hhead : entry.value.head? = some '<'
  · exact .inl hhead
  · have hnone : heredocMarker? entry.value = none := by
      cases hfirst : entry.value.head? with
      | none => rw [List.head?_eq_none_iff.mp hfirst]; rfl
      | some c => exact heredocMarker?_of_head hfirst fun heq => hhead (heq ▸ hfirst)
    refine .inr ⟨hmarker.trans hnone, fun hclosed => ?_, fun more hopen hcloses => ?_⟩
    · rw [closesAt_line hvalue]
      omega
    · rw [closesAt_append_feed hvalue, Int.zero_add, ← hdepth]
      exact ⟨hopen, hcloses⟩

theorem ReadsOn.addLine {entry : OpenEntry} (hreads : ReadsOn entry) (hopen : entry.isComplete = false)
    {line : List Char} (hline : '\n' ∉ line) : ReadsOn (entry.addLine line) := by
  rcases hreads with hhead | ⟨hmarker, -, hon⟩
  · refine .inl ?_
    rw [OpenEntry.value_addLine, List.head?_append, hhead]
    rfl
  · have hadded := OpenEntry.addLine_of_marker hmarker line
    have hpositive : 0 < entry.depth := by
      rw [Bool.eq_false_iff, ne_eq, OpenEntry.isComplete_iff hmarker] at hopen
      omega
    rw [hadded]
    refine .inr ⟨hmarker, fun hclosed => ?_, fun more hstill hcloses => ?_⟩
    · exact hon line hpositive ((closesAt_line hline).mpr hclosed)
    · have hnext := hon (line ++ '\n' :: more) hpositive
        ((closesAt_append_feed hline).mpr ⟨hstill, hcloses⟩)
      simpa using hnext

/-- The brackets of any value that is read are closed with its last line, and not before, unless it
starts like a heredoc. -/
theorem closesAt_of_mem_parse {text value : List Char} {key : String}
    (hmem : (key, .ofList value) ∈ ((lineChars text).foldl Reading.addLine ⟨∅, none⟩).entries.entries)
    (hhead : value.head? ≠ some '<') : closesAt 0 value = true := by
  have hall : ((lineChars text).foldl Reading.addLine ⟨∅, none⟩).All ReadsOn :=
    Reading.All.start.foldl
      (fun line hline _ hbegin => readsOn_of_begin (Text.noFeed_of_mem_lineChars hline) hbegin)
      fun line hline _ hreads hopen => hreads.addLine hopen (Text.noFeed_of_mem_lineChars hline)
  obtain ⟨read, hreads, hcomplete, heq⟩ := hall.kept _ hmem
  obtain rfl := String.ofList_injective (Prod.mk.inj heq).2
  rcases hreads with hheredoc | ⟨hmarker, hcloses, -⟩
  · exact absurd hheredoc hhead
  · exact hcloses ((OpenEntry.isComplete_iff hmarker).mp hcomplete)

/-- Trimming the first line leaves its first character. -/
theorem head?_trimFirst {text : List Char} {c : Char} (hhead : text.head? = some c)
    (hblank : Text.isBlank c = false) : (trimFirst text).head? = some c := by
  obtain ⟨rest, rfl⟩ := List.head?_eq_some_iff.mp hhead
  have hfeed : c ≠ '\n' := by
    rintro rfl
    cases hblank
  have htake : (c :: rest).takeWhile (· ≠ '\n') = c :: rest.takeWhile (· ≠ '\n') := by
    simp [hfeed]
  have htrim (more : List Char) : Text.trimEnd (c :: more) = c :: Text.trimEnd more :=
    Text.trimEnd_append_cons hblank [] more
  unfold trimFirst
  rw [htake, htrim]
  rfl

/-- Where all entries of a file are read, their values end with their last lines and not before. -/
theorem endsInTime_of_isRecovered {parts : List Part} (hrecovered : IsRecovered parts) {entry : Entry}
    (hentry : entry ∈ entriesOf parts) : entry.endsInTime = true := by
  have hfeed : ['\n'] ∈ [['\n'], ['\r', '\n']] := List.mem_cons_self
  have hread := hrecovered _ hfeed
  rw [parse_endLines parts hfeed] at hread
  unfold Entry.endsInTime
  cases hvalue : entry.value with
  | heredoc heredoc => rfl
  | item item =>
    have hmem : entry.reading ∈
        ((lineChars (fileText parts)).foldl Reading.addLine ⟨∅, none⟩).entries.entries := by
      rw [hread]
      exact List.mem_map_of_mem hentry
    obtain ⟨c, hhead, hblank, hc⟩ := item.exists_head
    have hrest : entry.rest.head? = some c := by
      unfold Entry.rest
      rw [hvalue, Value.text, List.head?_append, hhead]
      rfl
    have hstart : (trimFirst entry.rest).head? ≠ some '<' := by
      rw [head?_trimFirst hrest hblank]
      exact fun heq => hc (Option.some.inj heq)
    exact (closesAt_trimFirst 0 entry.rest).mp (closesAt_of_mem_parse hmem hstart)

/-- All entries of a file are read, in order and in full, exactly if the brackets of every value are
closed with its last line, and not before, where the lines of heredocs in lists and maps are taken
for code. So it is where each of these heredocs closes the brackets that it opens and no others. -/
theorem isRecovered_iff (parts : List Part) (hnodup : ((entriesOf parts).map Entry.key).Nodup) :
    (IsRecovered parts ↔ ∀ entry ∈ entriesOf parts, entry.endsInTime = true) ∧
      ∀ entry ∈ entriesOf parts, (∀ heredoc ∈ entry.value.nested, heredoc.hasBalancedLines = true) →
        entry.endsInTime = true :=
  ⟨⟨fun hrecovered _ => endsInTime_of_isRecovered hrecovered, isRecovered_of_endsInTime hnodup⟩,
    fun _ _ => Entry.endsInTime_of_balanced⟩

/-- A heredoc with some lines. -/
def scriptOf (lines : List (List Char))
    (hlines : ∀ line ∈ lines, IsLine line ∧ Text.trimChars line ≠ "EOF".toList) : Heredoc where
  indented := false
  marker := ⟨"EOF".toList, by decide, by decide⟩
  noHyphen := by decide
  margin := .empty
  lines := lines
  areLines := hlines
  before := .empty
  after := .empty

/-- A map with a script in it, and a region behind. -/
def startFile (script : Heredoc) : List Part :=
  [.entry {
    indent := .empty
    name := ⟨"startup".toList, by decide, by decide⟩
    before := .space
    after := .space
    value := .item (.brackets .map (.gap '\n' rfl
      (.item (.word ⟨"script".toList, by decide, by decide⟩) (.gap '=' rfl (.heredoc script .done)))))
    margin := .empty },
  .blank .empty,
  .entry {
    indent := .empty
    name := ⟨"region".toList, by decide, by decide⟩
    before := .space
    after := .space
    value := .item (.string [.plain 'e' (by decide), .plain 'u' (by decide)])
    margin := .empty }]

/-- A script whose brackets are balanced, though they are no brackets of the map. -/
def loopScript : Heredoc :=
  scriptOf ["run() \x7b".toList, "  echo \"#\" # done".toList, "\x7d".toList] (by decide)

/-- Brackets that are balanced in a script do no harm to the map around it. -/
theorem loopScript_isRecovered : ((entriesOf (startFile loopScript)).map Entry.key).Nodup ∧
    IsRecovered (startFile loopScript) := by
  have hnodup : ((entriesOf (startFile loopScript)).map Entry.key).Nodup := by decide
  have hread := isRecovered_iff (startFile loopScript) hnodup
  have hbalanced : ∀ entry ∈ entriesOf (startFile loopScript),
      ∀ heredoc ∈ entry.value.nested, heredoc.hasBalancedLines = true := by decide
  exact ⟨hnodup, hread.1.mpr fun entry hentry => hread.2 entry hentry (hbalanced entry hentry)⟩

/-- A script with a parenthesis that closes none. -/
def caseScript : Heredoc :=
  scriptOf ["case \"$1\" in".toList, "  start) run ;;".toList, "esac".toList] (by decide)

/-- The map ends for the reader within its script, so the value is cut off there. -/
theorem caseScript_cuts_off_map : ((entriesOf (startFile caseScript)).map Entry.key).Nodup ∧
    String.ofList (fileText (startFile caseScript)) =
      "startup = \x7b\nscript=<<EOF\ncase \"$1\" in\n  start) run ;;\nesac\nEOF\n\x7d\n\nregion = \"eu\"" ∧
    (entriesOf (startFile caseScript)).map Entry.reading =
      [("startup", "\x7b\nscript=<<EOF\ncase \"$1\" in\n  start) run ;;\nesac\nEOF\n\x7d"),
        ("region", "\"eu\"")] ∧
    (parse (.ofList (endLines ['\n'] (fileText (startFile caseScript))))).entries =
      [("startup", "\x7b\nscript=<<EOF\ncase \"$1\" in\n  start) run ;;"), ("region", "\"eu\"")] :=
  ⟨by decide, by decide, by decide, by decide⟩

end TerraStack.Tfvars.Handwritten
