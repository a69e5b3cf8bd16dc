import Mathlib.Data.List.Basic
import Mathlib.Data.List.Induction
import TerraStack.Proofs.Text.LineEnds
import TerraStack.Proofs.Tfvars.Stored

namespace TerraStack.Tfvars

open Text (IsTrimmed)

/-- What the next character is read as. -/
inductive Spot where
  | within (place : Place)
  /-- Behind a slash, where another one starts a comment. -/
  | slash
  | comment

/-- The spot and the depth behind a character of the code. -/
def stepInCode (depth : Int) (c : Char) : Spot × Int :=
  if c = '"' then (.within .string, depth)
  else if c = '#' then (.comment, depth)
  else if c = '/' then (.slash, depth)
  else (.within .code, depth + bracketWeight c)

/-- The spot and the depth behind a character that does not end its line. -/
def stepInLine (depth : Int) (c : Char) : Spot → Spot × Int
  | .within .code => stepInCode depth c
  | .within .string =>
    (.within (if c = '\\' then .escape else if c = '"' then .code else .string), depth)
  | .within .escape => (.within .string, depth)
  | .slash => if c = '/' then (.comment, depth) else stepInCode depth c
  | .comment => (.comment, depth)

/-- The spot and the depth behind a character. There is none behind a line with which a value ends. -/
def step? (state : Spot × Int) (c : Char) : Option (Spot × Int) :=
  if c = '\n' then if 0 < state.2 then some (.within .code, state.2) else none
  else some (stepInLine state.2 c state.1)

/-- The spot and the depth behind a text. Characters are followed one by one, and not line by line,
so a text can be followed part by part wherever the parts meet. -/
def behind? (text : List Char) (state : Spot × Int) : Option (Spot × Int) :=
  text.foldlM step? state

/-- A line ends well if it leaves a bracket open, and its string or comment with it. -/
theorem step?_feed (spot : Spot) (depth : Int) :
    step? (spot, depth) '\n' = if 0 < depth then some (.within .code, depth) else none := rfl

@[simp] theorem behind?_nil (state : Spot × Int) : behind? [] state = some state := rfl

theorem behind?_cons (c : Char) (rest : List Char) (state : Spot × Int) :
    behind? (c :: rest) state = (step? state c).bind (behind? rest) := rfl

theorem behind?_append (text more : List Char) (state : Spot × Int) :
    behind? (text ++ more) state = (behind? text state).bind (behind? more) :=
  List.foldlM_append

theorem behind?_append_of_eq_some {text : List Char} {state next : Spot × Int}
    (htext : behind? text state = some next) (more : List Char) :
    behind? (text ++ more) state = behind? more next := by
  rw [behind?_append, htext, Option.bind_some]

/-- What the rest of a line adds to the depth. -/
def lineDepth : Spot → List Char → Int
  | .within place, line => depthFrom place line
  | .slash, line => if line.head? = some '/' then 0 else depthFrom .code line
  | .comment, _ => 0

/-- A character of the code adds to the depth what the rest of its line does not add. -/
theorem stepInCode_depth (depth : Int) (c : Char) (rest : List Char) :
    (stepInCode depth c).2 + lineDepth (stepInCode depth c).1 rest =
      depth + depthFrom .code (c :: rest) := by
  unfold stepInCode
  by_cases hquote : c = '"'
  · simp [hquote, lineDepth, depthFrom]
  · by_cases hhash : c = '#'
    · simp [hhash, lineDepth, depthFrom]
    · by_cases hslash : c = '/'
      · have hweight : bracketWeight '/' = 0 := rfl
        by_cases hcomment : rest.head? = some '/'
        · simp [hslash, hcomment, lineDepth, depthFrom]
        · simp [hslash, hcomment, hweight, lineDepth, depthFrom]
      · simp only [if_neg hquote, lineDepth, depthFrom, hhash, hslash, decide_false, Bool.false_and,
          Bool.or_self, Bool.false_eq_true, if_false]
        omega

/-- What a character adds to the depth and what the rest of the line adds make up what both add. -/
theorem stepInLine_depth (depth : Int) (c : Char) (spot : Spot) (rest : List Char) :
    (stepInLine depth c spot).2 + lineDepth (stepInLine depth c spot).1 rest =
      depth + lineDepth spot (c :: rest) := by
  cases spot with
  | within place =>
    cases place with
    | code => exact stepInCode_depth depth c rest
    | string => rfl
    | escape => rfl
  | slash =>
    by_cases hslash : c = '/'
    · simp [stepInLine, lineDepth, hslash]
    · have hcode := stepInCode_depth depth c rest
      simpa [stepInLine, lineDepth, hslash] using hcode
  | comment => rfl

/-- Within a line the depth changes by what the line adds. -/
theorem exists_behind?_line {line : List Char} (hline : '\n' ∉ line) (spot : Spot) (depth : Int) :
    ∃ last, behind? line (spot, depth) = some (last, depth + lineDepth spot line) := by
  induction line generalizing spot depth with
  | nil =>
    have hnone : lineDepth spot [] = 0 := by
      cases spot with
      | within place => cases place <;> rfl
      | slash => rfl
      | comment => rfl
    exact ⟨spot, by rw [behind?_nil, hnone, Int.add_zero]⟩
  | cons c rest ih =>
    rw [List.mem_cons, not_or] at hline
    have hstep : step? (spot, depth) c = some (stepInLine depth c spot) := if_neg (Ne.symm hline.1)
    obtain ⟨last, hlast⟩ := ih hline.2 (stepInLine depth c spot).1 (stepInLine depth c spot).2
    refine ⟨last, ?_⟩
    rw [behind?_cons, hstep, Option.bind_some, hlast, stepInLine_depth]

/-- At the end of a line behind which a text goes on, a bracket is open. -/
theorem behind?_append_feed {line rest : List Char} (hline : '\n' ∉ line) {depth : Int}
    {state : Spot × Int} (hbehind : behind? (line ++ '\n' :: rest) (.within .code, depth) = some state) :
    0 < depth + bracketDepth line ∧
      behind? rest (.within .code, depth + bracketDepth line) = some state := by
  obtain ⟨last, hlast⟩ := exists_behind?_line hline (.within .code) depth
  have hdepth : lineDepth (.within .code) line = bracketDepth line := rfl
  rw [behind?_append_of_eq_some hlast, behind?_cons, hdepth] at hbehind
  by_cases hopen : 0 < depth + bracketDepth line
  · rw [step?_feed, if_pos hopen, Option.bind_some] at hbehind
    exact ⟨hopen, hbehind⟩
  · rw [step?_feed, if_neg hopen] at hbehind
    cases hbehind

/-- A line within brackets, with its end. -/
theorem behind?_line_feed {line : List Char} (hline : '\n' ∉ line) {depth : Int}
    (hopen : 0 < depth + bracketDepth line) : behind? (line ++ ['\n']) (.within .code, depth) =
      some (.within .code, depth + bracketDepth line) := by
  obtain ⟨last, hlast⟩ := exists_behind?_line hline (.within .code) depth
  have hdepth : lineDepth (.within .code) line = bracketDepth line := rfl
  rw [behind?_append_of_eq_some hlast, hdepth, behind?_cons, step?_feed, if_pos hopen]
  rfl

/-- A line that is followed adds the depth of its brackets. -/
theorem bracketDepth_of_behind? {line : List Char} (hline : '\n' ∉ line) {depth behind : Int}
    {spot : Spot} (hbehind : behind? line (.within .code, depth) = some (spot, behind)) :
    depth + bracketDepth line = behind := by
  obtain ⟨last, hlast⟩ := exists_behind?_line hline (.within .code) depth
  rw [hlast] at hbehind
  exact (Prod.mk.inj (Option.some.inj hbehind)).2

/-- Whether the last of some lines, and none before, leaves no bracket open. -/
def closes : Int → List (List Char) → Bool
  | _, [] => false
  | depth, [line] => depth + bracketDepth line ≤ 0
  | depth, line :: next :: rest =>
    0 < depth + bracketDepth line && closes (depth + bracketDepth line) (next :: rest)

/-- Whether the brackets that are open at some depth are closed with the last line of a text, and
not before. -/
def closesAt (depth : Int) (text : List Char) : Bool :=
  closes depth (text.splitOn '\n')

/-- One line closes the brackets if as many are closed as were open. -/
theorem closesAt_line {line : List Char} (hline : '\n' ∉ line) {depth : Int} :
    closesAt depth line = true ↔ depth + bracketDepth line ≤ 0 := by
  rw [closesAt, List.splitOn_eq_singleton hline, closes, decide_eq_true_iff]

/-- A line and more close them if the line leaves some open, and what is behind it closes those. -/
theorem closesAt_append_feed {line : List Char} (hline : '\n' ∉ line) {depth : Int}
    {rest : List Char} : closesAt depth (line ++ '\n' :: rest) = true ↔
      0 < depth + bracketDepth line ∧ closesAt (depth + bracketDepth line) rest = true := by
  unfold closesAt
  rw [Text.splitOn_append_feed hline]
  cases hlines : rest.splitOn '\n' with
  | nil => exact absurd hlines (List.splitOn_ne_nil '\n' rest)
  | cons next others => rw [closes, Bool.and_eq_true, decide_eq_true_iff]

/-- A text behind which no bracket is open is closed with its last line. -/
theorem closesAt_of_behind? {text : List Char} {depth : Int} {spot : Spot}
    (hbehind : behind? text (.within .code, depth) = some (spot, 0)) : closesAt depth text = true := by
  rcases Text.eq_or_exists_feed text with hline | ⟨line, rest, hline, rfl⟩
  · exact (closesAt_line hline).mpr (Int.le_of_eq (bracketDepth_of_behind? hline hbehind))
  · obtain ⟨hpositive, hrest⟩ := behind?_append_feed hline hbehind
    exact (closesAt_append_feed hline).mpr ⟨hpositive, closesAt_of_behind? hrest⟩
termination_by text.length

/-- A line of an entry that is no heredoc adds its brackets. -/
theorem OpenEntry.addLine_of_marker {entry : OpenEntry} (hmarker : entry.marker = none)
    (line : List Char) : entry.addLine line =
      { entry with value := entry.value ++ '\n' :: line, depth := entry.depth + bracketDepth line } := by
  simp [addLine, hmarker]

/-- An entry that is no heredoc is complete when no bracket is open. -/
theorem OpenEntry.isComplete_iff {entry : OpenEntry} (hmarker : entry.marker = none) :
    entry.isComplete = true ↔ entry.depth ≤ 0 := by
  simp [isComplete, hmarker]

/-- An entry whose brackets are open is complete with the text that closes them. -/
theorem ReadByLine.exists_complete {entry : OpenEntry} (hreadByLine : ReadByLine entry)
    (hmarker : entry.marker = none) (hopen : 0 < entry.depth) {text : List Char}
    (hcloses : closesAt entry.depth text = true) :
    ∃ final, ReadByLine final ∧ final.isComplete = true ∧ final.name = entry.name ∧
      final.value = entry.value ++ '\n' :: text := by
  have hincomplete : entry.isComplete = false := by
    rw [Bool.eq_false_iff, ne_eq, OpenEntry.isComplete_iff hmarker]
    omega
  rcases Text.eq_or_exists_feed text with hline | ⟨line, rest, hline, rfl⟩
  · have hadded := OpenEntry.addLine_of_marker hmarker text
    refine ⟨entry.addLine text, hreadByLine.addLine hincomplete hline, ?_, by simp, by simp⟩
    rw [OpenEntry.isComplete_iff (by rw [hadded]; exact hmarker), hadded]
    exact (closesAt_line hline).mp hcloses
  · obtain ⟨hpositive, hrest⟩ := (closesAt_append_feed hline).mp hcloses
    have hadded := OpenEntry.addLine_of_marker hmarker line
    have hnext := hreadByLine.addLine hincomplete hline
    rw [hadded] at hnext
    obtain ⟨final, hfinal, hcomplete, hname, hvalue⟩ := exists_complete hnext hmarker hpositive hrest
    exact ⟨final, hfinal, hcomplete, hname, by simp [hvalue]⟩
termination_by text.length

/-- A text without the white space at the end of its first line. -/
def trimFirst (text : List Char) : List Char :=
  Text.trimEnd (text.takeWhile (· ≠ '\n')) ++ text.dropWhile (· ≠ '\n')

/-- A single line is trimmed at its end. -/
theorem trimFirst_of_line {line : List Char} (hline : '\n' ∉ line) :
    trimFirst line = Text.trimEnd line := by
  have hall : ∀ c ∈ line, decide (c ≠ '\n') = true := fun c hc =>
    decide_eq_true fun heq => hline (heq ▸ hc)
  unfold trimFirst
  rw [List.takeWhile_eq_self_iff.mpr hall, List.dropWhile_eq_nil_iff.mpr hall, List.append_nil]

/-- Of several lines only the first is trimmed. -/
theorem trimFirst_append_feed {line : List Char} (hline : '\n' ∉ line) (rest : List Char) :
    trimFirst (line ++ '\n' :: rest) = Text.trimEnd line ++ '\n' :: rest := by
  have hall : ∀ c ∈ line, decide (c ≠ '\n') = true := fun c hc =>
    decide_eq_true fun heq => hline (heq ▸ hc)
  unfold trimFirst
  rw [List.takeWhile_append_of_pos hall, List.dropWhile_append_of_pos hall]
  simp

/-- Trimming takes away and adds nothing. -/
theorem trimFirst_sublist (text : List Char) : (trimFirst text).Sublist text := by
  have hfirst := (Text.trimEnd_isPrefix (text.takeWhile (· ≠ '\n'))).sublist
  have hwhole := hfirst.append_right (text.dropWhile (· ≠ '\n'))
  rwa [List.takeWhile_append_dropWhile] at hwhole

/-- White space is not a character that is none. -/
theorem ne_of_isBlank {c sign : Char} (hc : Text.isBlank c = true) (hsign : Text.isBlank sign = false) :
    c ≠ sign := by
  rintro rfl
  rw [hc] at hsign
  cases hsign

/-- White space has no weight. -/
theorem bracketWeight_of_isBlank {c : Char} (hc : Text.isBlank c = true) : bracketWeight c = 0 := by
  have hblank : ∀ bracket ∈ ['\x7b', '[', '(', '\x7d', ']', ')'], Text.isBlank bracket = false :=
    List.forall_iff_forall_mem.mp (by decide)
  have hbrackets : ∀ bracket ∈ ['\x7b', '[', '(', '\x7d', ']', ')'], ¬ c = bracket :=
    fun bracket hmem => ne_of_isBlank hc (hblank bracket hmem)
  simp [bracketWeight, isOpening, isClosing, hbrackets]

/-- White space at the end of a line changes no depth. -/
theorem depthFrom_concat_of_blank {c : Char} (hc : Text.isBlank c = true) (place : Place)
    (line : List Char) : depthFrom place (line ++ [c]) = depthFrom place line := by
  have hslash : c ≠ '/' := ne_of_isBlank hc (by decide)
  have hweight := bracketWeight_of_isBlank hc
  induction line generalizing place with
  | nil => cases place <;> simp [depthFrom, hweight]
  | cons d rest ih =>
    have hhead : (rest ++ [c]).head? = some '/' ↔ rest.head? = some '/' := by
      cases rest with
      | nil => simpa using hslash
      | cons first others => simp
    cases place with
    | code => simp only [List.cons_append, depthFrom, ih, hhead]
    | string => simp only [List.cons_append, depthFrom, ih]
    | escape => simp only [List.cons_append, depthFrom, ih]

theorem bracketDepth_trimEnd (line : List Char) : bracketDepth (Text.trimEnd line) = bracketDepth line := by
  induction line using List.reverseRecOn with
  | nil => rfl
  | append_singleton line c ih =>
    by_cases hblank : Text.isBlank c = true
    · rw [Text.trimEnd_concat_of_blank hblank, ih]
      exact (depthFrom_concat_of_blank hblank .code line).symm
    · rw [Text.trimEnd_append_cons (Bool.eq_false_iff.mpr hblank) line []]
      rfl

/-- A heredoc starts with an angle bracket. -/
theorem heredocMarker?_of_head {value : List Char} {c : Char} (hhead : value.head? = some c)
    (hc : c ≠ '<') : heredocMarker? value = none := by
  obtain ⟨rest, rfl⟩ := List.head?_eq_some_iff.mp hhead
  simp [heredocMarker?, Text.afterStart?, Ne.symm hc]

/-- The entry that is begun with the first line of a value. -/
theorem exists_begin {name line : List Char} {c : Char} (hname : IsName name) (hline : '\n' ∉ line)
    (hhead : line.head? = some c) (hblank : Text.isBlank c = false) (hc : c ≠ '<') :
    ∃ entry, ReadByLine entry ∧ entry.marker = none ∧ entry.depth = bracketDepth line ∧
      entry.name = name ∧ entry.value = Text.trimEnd line := by
  obtain ⟨rest, rfl⟩ := List.head?_eq_some_iff.mp hhead
  have hstart : Text.trimStart (c :: rest) = c :: rest :=
    Text.trimStart_of_head fun d hd => Option.some.inj hd ▸ hblank
  have htrimmed : IsTrimmed (Text.trimEnd (c :: rest)) := by
    have hchars := Text.isTrimmed_trimChars (c :: rest)
    unfold Text.trimChars at hchars
    rwa [hstart] at hchars
  have htrim : Text.trimEnd (c :: rest) = c :: Text.trimEnd rest :=
    Text.trimEnd_append_cons hblank [] rest
  have hvalue : '\n' ∉ Text.trimEnd (c :: rest) :=
    fun hmem => hline ((Text.trimEnd_isPrefix _).mem hmem)
  have hmarker : heredocMarker? (Text.trimEnd (c :: rest)) = none :=
    heredocMarker?_of_head (by rw [htrim, List.head?_cons]) hc
  exact ⟨.begin name (Text.trimEnd (c :: rest)), .begin hname hvalue htrimmed, hmarker,
    bracketDepth_trimEnd _, rfl, rfl⟩

/-- Trimming does not change where brackets are closed. -/
theorem closesAt_trimFirst (depth : Int) (text : List Char) :
    closesAt depth (trimFirst text) = true ↔ closesAt depth text = true := by
  have hkept {line : List Char} (hline : '\n' ∉ line) : '\n' ∉ Text.trimEnd line :=
    fun hmem => hline ((Text.trimEnd_isPrefix line).subset hmem)
  rcases Text.eq_or_exists_feed text with hline | ⟨line, rest, hline, rfl⟩
  · rw [trimFirst_of_line hline, closesAt_line hline, closesAt_line (hkept hline), bracketDepth_trimEnd]
  · rw [trimFirst_append_feed hline, closesAt_append_feed hline, closesAt_append_feed (hkept hline),
      bracketDepth_trimEnd]

/-- An entry is read as it is written if the brackets of its value are closed with the last line,
and not before. Only white space at the end of the first line gets lost. -/
theorem isStored_of_closesAt {name text : List Char} {c : Char} (hname : IsName name)
    (hhead : text.head? = some c) (hblank : Text.isBlank c = false) (hc : c ≠ '<')
    (hcloses : closesAt 0 text = true) : IsStored (.ofList name, .ofList (trimFirst text)) := by
  rcases Text.eq_or_exists_feed text with hline | ⟨line, rest, hline, rfl⟩
  · obtain ⟨entry, hreadByLine, hmarker, hdepth, rfl, hvalue⟩ :=
      exists_begin hname hline hhead hblank hc
    refine ⟨entry, hreadByLine, ?_, by rw [trimFirst_of_line hline, hvalue]⟩
    rw [closesAt_line hline] at hcloses
    rw [OpenEntry.isComplete_iff hmarker, hdepth]
    omega
  · obtain ⟨hpositive, hrest⟩ := (closesAt_append_feed hline).mp hcloses
    rw [Int.zero_add] at hpositive hrest
    have hfirst : line.head? = some c := by
      cases line with
      | nil =>
        rw [List.nil_append, List.head?_cons] at hhead
        obtain rfl := Option.some.inj hhead
        cases hblank
      | cons first others => exact hhead
    obtain ⟨entry, hreadByLine, hmarker, hdepth, rfl, hvalue⟩ :=
      exists_begin hname hline hfirst hblank hc
    obtain ⟨final, hfinal, hcomplete, hfinalName, hfinalValue⟩ :=
      hreadByLine.exists_complete hmarker (by omega) (by rw [hdepth]; exact hrest)
    refine ⟨final, hfinal, hcomplete, ?_⟩
    rw [hfinalName, hfinalValue, hvalue, trimFirst_append_feed hline]

end TerraStack.Tfvars
