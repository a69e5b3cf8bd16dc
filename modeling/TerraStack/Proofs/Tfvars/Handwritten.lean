import TerraStack.Proofs.Tfvars.Literal

namespace TerraStack.Tfvars

open Hcl (IsBare)
open Text (IsLine)

instance (cs : List Char) : Decidable (IsLine cs) :=
  decidable_of_iff ('\n' ∉ cs ∧ '\r' ∉ cs) ⟨fun h => ⟨h.1, h.2⟩, fun h => ⟨h.1, h.2⟩⟩

namespace Handwritten

/-- A name, a number or a reference. -/
structure Word where
  text : List Char
  ne_nil : text ≠ []
  isBare : IsBare text

/-- White space that does not end a line. -/
structure Margin where
  text : List Char
  isBlank : ∀ c ∈ text, Text.isBlank c = true
  isLine : IsLine text

namespace Margin

/-- No white space. -/
def empty : Margin := ⟨[], nofun, .nil⟩

/-- One space. -/
def space : Margin where
  text := [' ']
  isBlank c hc := by
    obtain rfl := List.mem_singleton.mp hc
    decide
  isLine := by decide

@[simp] theorem text_empty : empty.text = [] := rfl

@[simp] theorem text_space : space.text = [' '] := rfl

end Margin

/-- A character of a string, or two of them where a backslash protects one. -/
inductive Letter where
  | plain (c : Char) (hc : c ∉ ['"', '\\', '\n', '\r'])
  | escaped (c : Char) (hc : c ∉ ['\n', '\r'])

/-- The characters of a letter. -/
def Letter.text : Letter → List Char
  | .plain c _ => [c]
  | .escaped c _ => ['\\', c]

/-- A string between double quotes. -/
def quoted (letters : List Letter) : List Char :=
  '"' :: (letters.flatMap Letter.text ++ ['"'])

/-- What goes on up to the end of a line and says nothing. -/
structure Comment where
  /-- Whether the comment starts with two slashes, and not with a number sign. -/
  slashes : Bool
  rest : List Char
  isLine : IsLine rest

/-- The characters of a comment. -/
def Comment.text (comment : Comment) : List Char :=
  if comment.slashes then '/' :: '/' :: comment.rest else '#' :: comment.rest

/-- Lines of any text up to one that repeats the marker of the first. -/
structure Heredoc where
  /-- Whether a hyphen stands in front of the marker. -/
  indented : Bool
  marker : Word
  noHyphen : marker.text.head? ≠ some '-'
  /-- What follows the marker in the first line. -/
  margin : Margin
  lines : List (List Char)
  areLines : ∀ line ∈ lines, IsLine line ∧ Text.trimChars line ≠ marker.text
  /-- What surrounds the marker in the last line. -/
  before : Margin
  after : Margin

namespace Heredoc

/-- The first line, up to the end of the marker. -/
def start (heredoc : Heredoc) : List Char :=
  '<' :: '<' :: ((if heredoc.indented then ['-'] else []) ++ heredoc.marker.text)

/-- The last line. -/
def stop (heredoc : Heredoc) : List Char :=
  heredoc.before.text ++ heredoc.marker.text ++ heredoc.after.text

/-- The characters of a heredoc. -/
def text (heredoc : Heredoc) : List Char :=
  heredoc.start ++ heredoc.margin.text ++ '\n' ::
    (heredoc.lines.flatMap (fun line => line ++ ['\n']) ++ heredoc.stop)

end Heredoc

/-- Whether some lines, taken as code, never close a bracket that was open before them, and leave
none open that was not. -/
def areBalancedLines : Int → List (List Char) → Bool
  | depth, [] => depth = 0
  | depth, line :: rest => 0 ≤ depth && areBalancedLines (depth + bracketDepth line) rest

/-- Whether a heredoc can be taken for code without harm to the brackets around it. -/
def Heredoc.hasBalancedLines (heredoc : Heredoc) : Bool :=
  areBalancedLines 0 heredoc.lines

/-- Whether brackets hold a list or a map. -/
inductive Shape where
  | list
  | map

/-- The bracket in front. -/
def Shape.opening : Shape → Char
  | .list => '['
  | .map => '\x7b'

/-- The bracket behind. -/
def Shape.closing : Shape → Char
  | .list => ']'
  | .map => '\x7d'

/-- Whether a character can stand between items: white space, or what separates them. -/
def isGap (c : Char) : Bool :=
  (Text.isBlank c || [',', '=', ':'].contains c) && c ≠ '\r'

mutual

/-- A value that can be followed by another one on the same line. -/
inductive Item where
  | word (word : Word)
  | string (letters : List Letter)
  | brackets (shape : Shape) (inside : Inside)

/-- What is between two brackets. A comment and a heredoc go on up to the end of their last line.
What separates items does not matter to the reader of a file, so it is left open. -/
inductive Inside where
  | done
  | gap (c : Char) (hc : isGap c = true) (rest : Inside)
  | comment (comment : Comment) (rest : Inside)
  | item (item : Item) (rest : Inside)
  | heredoc (heredoc : Heredoc) (rest : Inside)

end

mutual

/-- The characters of an item. -/
def Item.text : Item → List Char
  | .word word => word.text
  | .string letters => quoted letters
  | .brackets shape inside => shape.opening :: (inside.text ++ [shape.closing])

/-- The characters within two brackets. -/
def Inside.text : Inside → List Char
  | .done => []
  | .gap c _ rest => c :: rest.text
  | .comment comment rest => comment.text ++ '\n' :: rest.text
  | .item item rest => item.text ++ rest.text
  | .heredoc heredoc rest => heredoc.text ++ '\n' :: rest.text

end

mutual

/-- The heredocs within brackets, at any depth. -/
def Item.heredocs : Item → List Heredoc
  | .word _ | .string _ => []
  | .brackets _ inside => inside.heredocs

/-- The heredocs among what is within two brackets, at any depth. -/
def Inside.heredocs : Inside → List Heredoc
  | .done => []
  | .gap _ _ rest | .comment _ rest => rest.heredocs
  | .item item rest => item.heredocs ++ rest.heredocs
  | .heredoc heredoc rest => heredoc :: rest.heredocs

end

/-- The value of an entry: a heredoc, or an item. -/
inductive Value where
  | item (item : Item)
  | heredoc (heredoc : Heredoc)

/-- The characters of a value. -/
def Value.text : Value → List Char
  | .item inner => inner.text
  | .heredoc lines => lines.text

/-- The heredocs within the brackets of a value. -/
def Value.nested : Value → List Heredoc
  | .item inner => inner.heredocs
  | .heredoc _ => []

/-- A name and a value with an equal sign in between. -/
structure Entry where
  indent : Margin
  name : Word
  /-- What surrounds the equal sign. -/
  before : Margin
  after : Margin
  value : Value
  /-- What follows the value in its last line. -/
  margin : Margin

/-- The text of a value and of the white space behind it. -/
def Entry.rest (entry : Entry) : List Char :=
  entry.value.text ++ entry.margin.text

/-- Whether the brackets of a value are closed with its last line, and not before, where every line
of it is taken for code. A heredoc that is the value of an entry is no code. -/
def Entry.endsInTime (entry : Entry) : Bool :=
  match entry.value with
  | .item _ => closesAt 0 entry.rest
  | .heredoc _ => true

/-- The characters of an entry. -/
def Entry.text (entry : Entry) : List Char :=
  entry.indent.text ++ entry.name.text ++ entry.before.text ++ '=' :: (entry.after.text ++ entry.rest)

/-- The name of an entry. -/
def Entry.key (entry : Entry) : String :=
  .ofList entry.name.text

/-- The name and the value of an entry. White space at the end of the first line of the value is not
part of it. -/
def Entry.reading (entry : Entry) : String × String :=
  (entry.key, .ofList (trimFirst entry.rest))

/-- A part of a file: a blank line, a comment or an entry. -/
inductive Part where
  | blank (margin : Margin)
  | comment (indent : Margin) (comment : Comment)
  | entry (entry : Entry)

/-- The characters of a part. -/
def Part.text : Part → List Char
  | .blank margin => margin.text
  | .comment indent note => indent.text ++ note.text
  | .entry value => value.text

/-- The entries of a file, which consists of parts on lines of their own. -/
def entriesOf (parts : List Part) : List Entry :=
  parts.filterMap fun
    | .entry entry => some entry
    | .blank _ | .comment _ _ => none

/-- The text of a file. It ends with a line end if the last part is a blank line without white
space. -/
def fileText : List Part → List Char
  | [] => []
  | [part] => part.text
  | part :: next :: rest => part.text ++ '\n' :: fileText (next :: rest)

/-- Whether all entries of a file are read, in order, whichever way its lines end. -/
def IsRecovered (parts : List Part) : Prop :=
  ∀ lineEnd ∈ [['\n'], ['\r', '\n']],
    (parse (.ofList (Text.endLines lineEnd (fileText parts)))).entries = (entriesOf parts).map Entry.reading

/-- The characters of a string do not end it, for quotes among them are protected. -/
theorem depthAfter_letters (letters : List Letter) (depth : Int) (more : List Char) :
    depthAfter .string depth (letters.flatMap Letter.text ++ more) = depthAfter .string depth more := by
  induction letters with
  | nil => rfl
  | cons letter letters ih =>
    rw [List.flatMap_cons, List.append_assoc]
    cases letter with
    | plain c hc =>
      simp only [List.mem_cons, List.not_mem_nil, not_or, or_false] at hc
      obtain ⟨hquote, hescape, hfeed, -⟩ := hc
      rw [Letter.text, List.singleton_append, depthAfter, if_neg hfeed, if_neg hescape, if_neg hquote, ih]
    | escaped c hc =>
      simp only [List.mem_cons, List.not_mem_nil, not_or, or_false] at hc
      rw [Letter.text, List.cons_append, List.singleton_append, depthAfter, if_neg (by decide),
        if_pos rfl, depthAfter, if_neg hc.1, ih]

/-- A quoted string leaves the depth as it is. -/
theorem depthAfter_quoted (letters : List Letter) (depth : Int) :
    depthAfter .code depth (quoted letters) = some depth := by
  rw [quoted, depthAfter, if_neg (by decide), if_pos rfl, depthAfter_letters]
  rfl

/-- A comment is a line. -/
theorem Comment.isLine_text (comment : Comment) : IsLine comment.text := by
  have hslashes : IsLine ['/', '/'] := by decide
  have hsign : IsLine ['#'] := by decide
  unfold text
  split
  · exact hslashes.append comment.isLine
  · exact hsign.append comment.isLine

/-- No bracket in it counts. -/
theorem Comment.bracketDepth_text (comment : Comment) : bracketDepth comment.text = 0 := by
  unfold text
  split <;> simp [bracketDepth, depthFrom]

/-- White space within a line starts nothing and has no weight. -/
theorem Margin.weightless (margin : Margin) :
    ∀ c ∈ margin.text, c ∉ ['\n', '"', '#', '/'] ∧ bracketWeight c = 0 := fun c hc =>
  weightless_of_blank (margin.isBlank c hc) fun heq => margin.isLine.noFeed (heq ▸ hc)

namespace Heredoc

variable (heredoc : Heredoc)

theorem isLine_start : IsLine (heredoc.start ++ heredoc.margin.text) := by
  have hsigns : IsLine ['<', '<'] := by decide
  have hhyphen : IsLine (if heredoc.indented then ['-'] else []) := by
    split <;> decide
  have hmarker := isLine_of_bare heredoc.marker.isBare
  exact (hsigns.append (hhyphen.append hmarker)).append heredoc.margin.isLine

theorem isLine_stop : IsLine heredoc.stop :=
  (heredoc.before.isLine.append (isLine_of_bare heredoc.marker.isBare)).append heredoc.after.isLine

theorem bracketDepth_start : bracketDepth (heredoc.start ++ heredoc.margin.text) = 0 := by
  have hall : ∀ c ∈ heredoc.start ++ heredoc.margin.text,
      c ∉ ['\n', '"', '#', '/'] ∧ bracketWeight c = 0 := by
    intro c hc
    rcases List.mem_append.mp hc with hstart | hmargin
    · unfold start at hstart
      have hsigns : ∀ c ∈ ['<', '-'], c ∉ ['\n', '"', '#', '/'] ∧ bracketWeight c = 0 :=
        List.forall_iff_forall_mem.mp (by decide)
      simp only [List.mem_cons, List.mem_append] at hstart
      rcases hstart with rfl | rfl | hhyphen | hmarker
      · exact hsigns '<' (by decide)
      · exact hsigns '<' (by decide)
      · refine hsigns c ?_
        split at hhyphen
        · exact List.mem_cons_of_mem _ hhyphen
        · cases hhyphen
      · exact weightless_of_bare (heredoc.marker.isBare c hmarker)
    · exact heredoc.margin.weightless c hmargin
  have hbehind := behind?_of_depthAfter (depthAfter_weightless hall 0)
  simpa using bracketDepth_of_behind? heredoc.isLine_start.noFeed hbehind

theorem bracketDepth_stop : bracketDepth heredoc.stop = 0 := by
  have hall : ∀ c ∈ heredoc.stop, c ∉ ['\n', '"', '#', '/'] ∧ bracketWeight c = 0 := by
    intro c hc
    unfold stop at hc
    rw [List.mem_append, List.mem_append] at hc
    rcases hc with (hbefore | hmarker) | hafter
    · exact heredoc.before.weightless c hbefore
    · exact weightless_of_bare (heredoc.marker.isBare c hmarker)
    · exact heredoc.after.weightless c hafter
  have hbehind := behind?_of_depthAfter (depthAfter_weightless hall 0)
  simpa using bracketDepth_of_behind? heredoc.isLine_stop.noFeed hbehind

end Heredoc

/-- Within brackets, lines that are balanced from some depth on bring it back. -/
theorem behind?_lines {lines : List (List Char)} (hlines : ∀ line ∈ lines, '\n' ∉ line)
    {depth offset : Int} (hopen : 0 < depth) (hbalanced : areBalancedLines offset lines = true) :
    behind? (lines.flatMap fun line => line ++ ['\n']) (.within .code, depth + offset) =
      some (.within .code, depth) := by
  induction lines generalizing offset with
  | nil =>
    have hoffset : offset = 0 := by simpa [areBalancedLines] using hbalanced
    simp [hoffset]
  | cons line lines ih =>
    rw [List.forall_mem_cons] at hlines
    rw [areBalancedLines, Bool.and_eq_true, decide_eq_true_iff] at hbalanced
    have hnext : 0 ≤ offset + bracketDepth line := by
      cases lines with
      | nil =>
        have hzero : offset + bracketDepth line = 0 := by simpa [areBalancedLines] using hbalanced.2
        omega
      | cons next rest =>
        have hrest := hbalanced.2
        rw [areBalancedLines, Bool.and_eq_true, decide_eq_true_iff] at hrest
        exact hrest.1
    have hline := behind?_line_feed hlines.1 (by omega : 0 < depth + offset + bracketDepth line)
    rw [List.flatMap_cons, behind?_append_of_eq_some hline, Int.add_assoc, ih hlines.2 hbalanced.2]

/-- Within brackets a heredoc with balanced lines leaves the depth as it is. -/
theorem Heredoc.behind?_text {heredoc : Heredoc} (hbalanced : heredoc.hasBalancedLines = true) {depth : Int}
    (hopen : 0 < depth) : behind? (heredoc.text ++ ['\n']) (.within .code, depth) =
      some (.within .code, depth) := by
  have hstart := behind?_line_feed heredoc.isLine_start.noFeed
    (by rw [heredoc.bracketDepth_start]; omega : 0 < depth + bracketDepth _)
  have hstop := behind?_line_feed heredoc.isLine_stop.noFeed
    (by rw [heredoc.bracketDepth_stop]; omega : 0 < depth + bracketDepth _)
  have hlines := behind?_lines (fun line hline => (heredoc.areLines line hline).1.noFeed) hopen hbalanced
  have htext : heredoc.text ++ ['\n'] = (heredoc.start ++ heredoc.margin.text ++ ['\n']) ++
      (heredoc.lines.flatMap (fun line => line ++ ['\n']) ++ (heredoc.stop ++ ['\n'])) := by
    simp [text]
  rw [heredoc.bracketDepth_start, Int.add_zero] at hstart
  rw [heredoc.bracketDepth_stop, Int.add_zero] at hstop
  rw [Int.add_zero] at hlines
  rw [htext, behind?_append_of_eq_some hstart, behind?_append_of_eq_some hlines, hstop]

/-- Within brackets, what separates items changes nothing. -/
theorem behind?_gap {c : Char} (hc : isGap c = true) {depth : Int} (hopen : 0 < depth)
    (rest : List Char) :
    behind? (c :: rest) (.within .code, depth) = behind? rest (.within .code, depth) := by
  by_cases hfeed : c = '\n'
  · rw [hfeed, behind?_cons, step?_feed, if_pos hopen, Option.bind_some]
  · have hweightless : c ∉ ['\n', '"', '#', '/'] ∧ bracketWeight c = 0 := by
      unfold isGap at hc
      rw [Bool.and_eq_true, Bool.or_eq_true] at hc
      rcases hc.1 with hblank | hsign
      · exact weightless_of_blank hblank hfeed
      · have hsigns : ∀ c ∈ [',', '=', ':'], c ∉ ['\n', '"', '#', '/'] ∧ bracketWeight c = 0 :=
          List.forall_iff_forall_mem.mp (by decide)
        exact hsigns c (List.contains_iff_mem.mp hsign)
    have hdepth : depthAfter .code depth [c] = some depth :=
      depthAfter_weightless (fun d hd => List.mem_singleton.mp hd ▸ hweightless) depth
    exact behind?_append_of_eq_some (behind?_of_depthAfter hdepth) rest

theorem behind?_opening (shape : Shape) (depth : Int) (rest : List Char) :
    behind? (shape.opening :: rest) (.within .code, depth) = behind? rest (.within .code, depth + 1) := by
  cases shape <;> rfl

theorem behind?_closing (shape : Shape) (depth : Int) :
    behind? [shape.closing] (.within .code, depth + 1) = some (.within .code, depth) := by
  have hweight : depth + 1 + -1 = depth := by omega
  cases shape
  · exact congrArg (fun depth => some (Spot.within .code, depth)) hweight
  · exact congrArg (fun depth => some (Spot.within .code, depth)) hweight

mutual

/-- A value on one line or within its own brackets leaves the depth as it is. -/
theorem Item.behind?_text : ∀ {item : Item}, (∀ heredoc ∈ item.heredocs, heredoc.hasBalancedLines = true) →
    ∀ {depth : Int}, 0 ≤ depth →
    behind? item.text (.within .code, depth) = some (.within .code, depth)
  | .word word, _, depth, _ => behind?_of_depthAfter (depthAfter_bare word.isBare depth)
  | .string letters, _, depth, _ => behind?_of_depthAfter (depthAfter_quoted letters depth)
  | .brackets shape inside, hbalanced, depth, hdepth => by
    have hinside : behind? inside.text (.within .code, depth + 1) = some (.within .code, depth + 1) :=
      Inside.behind?_text hbalanced (by omega)
    rw [Item.text, behind?_opening, behind?_append_of_eq_some hinside, behind?_closing]

/-- What stands within brackets leaves the depth as it is, if its heredocs can be taken for code. -/
theorem Inside.behind?_text : ∀ {inside : Inside},
    (∀ heredoc ∈ inside.heredocs, heredoc.hasBalancedLines = true) → ∀ {depth : Int}, 0 < depth →
    behind? inside.text (.within .code, depth) = some (.within .code, depth)
  | .done, _, _, _ => rfl
  | .gap c hc rest, hbalanced, depth, hdepth => by
    rw [Inside.heredocs] at hbalanced
    rw [Inside.text, behind?_gap hc hdepth]
    exact Inside.behind?_text hbalanced hdepth
  | .comment note rest, hbalanced, depth, hdepth => by
    rw [Inside.heredocs] at hbalanced
    have hcomment := behind?_line_feed note.isLine_text.noFeed
      (by rw [note.bracketDepth_text]; omega : 0 < depth + bracketDepth note.text)
    rw [note.bracketDepth_text, Int.add_zero] at hcomment
    have hsplit : note.text ++ '\n' :: rest.text = (note.text ++ ['\n']) ++ rest.text := by simp
    rw [Inside.text, hsplit, behind?_append_of_eq_some hcomment]
    exact Inside.behind?_text hbalanced hdepth
  | .item inner rest, hbalanced, depth, hdepth => by
    rw [Inside.heredocs, List.forall_mem_append] at hbalanced
    have hitem : behind? inner.text (.within .code, depth) = some (.within .code, depth) :=
      Item.behind?_text hbalanced.1 (by omega)
    rw [Inside.text, behind?_append_of_eq_some hitem]
    exact Inside.behind?_text hbalanced.2 hdepth
  | .heredoc lines rest, hbalanced, depth, hdepth => by
    rw [Inside.heredocs, List.forall_mem_cons] at hbalanced
    have hlines := Heredoc.behind?_text hbalanced.1 hdepth
    have hsplit : lines.text ++ '\n' :: rest.text = (lines.text ++ ['\n']) ++ rest.text := by simp
    rw [Inside.text, hsplit, behind?_append_of_eq_some hlines]
    exact Inside.behind?_text hbalanced.2 hdepth

end

theorem noReturn_letters (letters : List Letter) : '\r' ∉ letters.flatMap Letter.text := by
  intro hmem
  obtain ⟨letter, -, hletter⟩ := List.mem_flatMap.mp hmem
  cases letter with
  | plain c hc =>
    obtain rfl := List.mem_singleton.mp hletter
    exact hc (by decide)
  | escaped c hc =>
    have hreturn : '\r' = c := by simpa [Letter.text] using hletter
    exact hc (hreturn ▸ by decide)

/-- A heredoc of lines has no carriage return. -/
theorem Heredoc.noReturn_text (heredoc : Heredoc) : '\r' ∉ heredoc.text := by
  have hlines : '\r' ∉ heredoc.lines.flatMap fun line => line ++ ['\n'] := by
    intro hmem
    obtain ⟨line, hline, hreturn⟩ := List.mem_flatMap.mp hmem
    rcases List.mem_append.mp hreturn with hinside | hfeed
    · exact (heredoc.areLines line hline).1.noReturn hinside
    · simp at hfeed
  intro hmem
  rcases List.mem_append.mp hmem with hstart | hmem
  · exact heredoc.isLine_start.noReturn hstart
  · rcases List.mem_cons.mp hmem with heq | hmem
    · cases heq
    · exact (List.mem_append.mp hmem).elim hlines heredoc.isLine_stop.noReturn

mutual

theorem Item.noReturn_text : ∀ item : Item, '\r' ∉ item.text
  | .word word => (isLine_of_bare word.isBare).noReturn
  | .string letters => by
    have hletters := noReturn_letters letters
    simpa [Item.text, quoted] using hletters
  | .brackets shape inside => by
    have hinside := Inside.noReturn_text inside
    cases shape <;> simpa [Item.text, Shape.opening, Shape.closing] using hinside

theorem Inside.noReturn_text : ∀ inside : Inside, '\r' ∉ inside.text
  | .done => List.not_mem_nil
  | .gap c hc rest => by
    have hrest := Inside.noReturn_text rest
    have hreturn : c ≠ '\r' := by
      unfold isGap at hc
      rw [Bool.and_eq_true, decide_eq_true_iff] at hc
      exact hc.2
    rw [Inside.text, List.mem_cons, not_or]
    exact ⟨hreturn.symm, hrest⟩
  | .comment note rest => by
    have hrest := Inside.noReturn_text rest
    rw [Inside.text, List.mem_append, List.mem_cons, not_or, not_or]
    exact ⟨note.isLine_text.noReturn, by decide, hrest⟩
  | .item inner rest => by
    have hinner := Item.noReturn_text inner
    have hrest := Inside.noReturn_text rest
    rw [Inside.text, List.mem_append, not_or]
    exact ⟨hinner, hrest⟩
  | .heredoc lines rest => by
    have hrest := Inside.noReturn_text rest
    rw [Inside.text, List.mem_append, List.mem_cons, not_or, not_or]
    exact ⟨lines.noReturn_text, by decide, hrest⟩

end

/-- Neither white space nor a heredoc is at the start of an item. -/
theorem Item.exists_head (item : Item) :
    ∃ c, item.text.head? = some c ∧ Text.isBlank c = false ∧ c ≠ '<' := by
  cases item with
  | word word =>
    have hhead := List.head?_eq_some_head word.ne_nil
    exact ⟨_, hhead, isBlank_of_bare word.isBare (List.head_mem word.ne_nil)⟩
  | string letters => exact ⟨'"', rfl, by decide, by decide⟩
  | brackets shape inside => cases shape <;> exact ⟨_, rfl, by decide, by decide⟩

namespace Margin

variable (margin : Margin) (text : List Char)

/-- Trimming takes white space in front away. -/
theorem trimStart_append : Text.trimStart (margin.text ++ text) = Text.trimStart text :=
  List.dropWhile_append_of_pos margin.isBlank

/-- Trimming takes white space behind away. -/
theorem trimEnd_append : Text.trimEnd (text ++ margin.text) = Text.trimEnd text := by
  have hall : ∀ c ∈ margin.text.reverse, Text.isBlank c = true := fun c hc =>
    margin.isBlank c (List.mem_reverse.mp hc)
  unfold Text.trimEnd
  rw [List.reverse_append, List.dropWhile_append_of_pos hall]

/-- Trimming a text with white space in front is trimming the text. -/
theorem trimChars_append : Text.trimChars (margin.text ++ text) = Text.trimChars text := by
  unfold Text.trimChars
  rw [trimStart_append]

end Margin

/-- A bare text is trimmed, with white space behind it or not. -/
theorem trimChars_word (word : Word) (margin : Margin) :
    Text.trimChars (word.text ++ margin.text) = word.text := by
  have htrimmed := (isName_of_bare word.isBare).isTrimmed
  have hstart : Text.trimStart (word.text ++ margin.text) = word.text ++ margin.text := by
    refine Text.trimStart_of_head fun c hc => htrimmed.head c ?_
    rwa [List.head?_append_of_ne_nil _ word.ne_nil] at hc
  unfold Text.trimChars
  rw [hstart, margin.trimEnd_append, htrimmed.trimEnd_eq]

/-- An item whose brackets are closed with its last line is read as it is written. -/
theorem Item.isStored {item : Item} {margin : Margin}
    (hcloses : closesAt 0 (item.text ++ margin.text) = true) (name : Word) :
    IsStored (.ofList name.text, .ofList (trimFirst (item.text ++ margin.text))) := by
  obtain ⟨c, hhead, hblank, hc⟩ := item.exists_head
  refine isStored_of_closesAt (isName_of_bare name.isBare) ?_ hblank hc hcloses
  rw [List.head?_append, hhead]
  rfl

namespace Heredoc

variable (heredoc : Heredoc)

/-- The start of a heredoc has no white space around it. -/
theorem isTrimmed_start : Text.IsTrimmed heredoc.start := by
  have hmarker := (isName_of_bare heredoc.marker.isBare).isTrimmed
  refine ⟨fun c hc => ?_, fun c hc => hmarker.last c ?_⟩
  · obtain rfl := Option.some.inj hc
    decide
  · have hlast : heredoc.start.getLast? = heredoc.marker.text.getLast? := by
      unfold start
      rw [← List.cons_append, ← List.cons_append, List.getLast?_append_of_ne_nil _ heredoc.marker.ne_nil]
    rwa [hlast] at hc

/-- The reader finds the marker in it. -/
theorem heredocMarker?_start : heredocMarker? heredoc.start = some heredoc.marker.text := by
  have htrimmed := (isName_of_bare heredoc.marker.isBare).isTrimmed.trimChars_eq
  have hafter : Text.afterStart? ['<', '<'] heredoc.start =
      some ((if heredoc.indented then ['-'] else []) ++ heredoc.marker.text) := rfl
  have hhyphen : (Text.afterStart? ['-'] ((if heredoc.indented then ['-'] else []) ++
      heredoc.marker.text)).getD ((if heredoc.indented then ['-'] else []) ++ heredoc.marker.text) =
      heredoc.marker.text := by
    split
    · rfl
    · cases hnone : Text.afterStart? ['-'] ([] ++ heredoc.marker.text) with
      | none => rfl
      | some rest =>
        have hstart := Text.afterStart?_eq_some_iff.mp hnone
        rw [List.nil_append] at hstart
        exact absurd (by rw [hstart]; rfl) heredoc.noHyphen
  unfold heredocMarker?
  rw [hafter, Option.bind_some, hhyphen, htrimmed, if_neg (by simpa using heredoc.marker.ne_nil)]

end Heredoc

/-- Within a heredoc every line is kept as it is. -/
theorem exists_addLines {entry : OpenEntry} (hreadByLine : ReadByLine entry) {marker : List Char}
    (hmarker : entry.marker = some marker) {lines : List (List Char)}
    (hlines : ∀ line ∈ lines, IsLine line ∧ Text.trimChars line ≠ marker) :
    ∃ next, ReadByLine next ∧ next.marker = some marker ∧ next.depth = entry.depth ∧
      next.name = entry.name ∧
      next.value = entry.value ++ lines.flatMap fun line => '\n' :: line := by
  induction lines generalizing entry with
  | nil => exact ⟨entry, hreadByLine, hmarker, rfl, rfl, by simp⟩
  | cons line lines ih =>
    rw [List.forall_mem_cons] at hlines
    obtain ⟨⟨hline, hne⟩, hrest⟩ := hlines
    have hadded : entry.addLine line = { entry with value := entry.value ++ '\n' :: line } := by
      simp [OpenEntry.addLine, hmarker, hne]
    have hopen : entry.isComplete = false := by simp [OpenEntry.isComplete, hmarker]
    obtain ⟨next, hnext, hnextMarker, hdepth, hname, hvalue⟩ :=
      ih (hreadByLine.addLine hopen hline.noFeed) (by rw [hadded]; exact hmarker) hrest
    rw [hadded] at hdepth hname hvalue
    exact ⟨next, hnext, hnextMarker, hdepth, hname, by simp [hvalue]⟩

/-- Line ends may be counted in front of the lines or behind them. -/
theorem flatMap_feed (lines : List (List Char)) (more : List Char) :
    (lines.flatMap fun line => '\n' :: line) ++ '\n' :: more =
      '\n' :: (lines.flatMap (fun line => line ++ ['\n']) ++ more) := by
  induction lines with
  | nil => rfl
  | cons line lines ih =>
    rw [List.flatMap_cons, List.flatMap_cons, List.append_assoc, ih]
    simp

/-- A heredoc with a name in front of it is read as it is written, whatever its lines are. -/
theorem Heredoc.isStored (heredoc : Heredoc) (name : Word) (margin : Margin) :
    IsStored (.ofList name.text, .ofList (trimFirst (heredoc.text ++ margin.text))) := by
  have hstart : Text.trimEnd (heredoc.start ++ heredoc.margin.text) = heredoc.start := by
    rw [heredoc.margin.trimEnd_append, heredoc.isTrimmed_start.trimEnd_eq]
  have hstartLine : IsLine heredoc.start :=
    heredoc.isLine_start.sublist (List.sublist_append_left _ _)
  have hdepth : bracketDepth heredoc.start = 0 := by
    rw [← hstart, bracketDepth_trimEnd, heredoc.bracketDepth_start]
  have hbegin : ReadByLine (.begin name.text heredoc.start) :=
    .begin (isName_of_bare name.isBare) hstartLine.noFeed heredoc.isTrimmed_start
  obtain ⟨next, hnext, hmarker, hnextDepth, hname, hvalue⟩ :=
    exists_addLines hbegin heredoc.heredocMarker?_start heredoc.areLines
  have hopen : next.isComplete = false := by simp [OpenEntry.isComplete, hmarker]
  have hstop : Text.trimChars (heredoc.stop ++ margin.text) = heredoc.marker.text := by
    have hafter : IsLine (heredoc.after.text ++ margin.text) :=
      heredoc.after.isLine.append margin.isLine
    have hblank : ∀ c ∈ heredoc.after.text ++ margin.text, Text.isBlank c = true := fun c hc =>
      (List.mem_append.mp hc).elim (heredoc.after.isBlank c) (margin.isBlank c)
    unfold stop
    rw [List.append_assoc, List.append_assoc, heredoc.before.trimChars_append]
    exact trimChars_word heredoc.marker ⟨_, hblank, hafter⟩
  have hlast : (next.addLine (heredoc.stop ++ margin.text)) =
      { next with value := next.value ++ '\n' :: (heredoc.stop ++ margin.text), marker := none } := by
    simp [OpenEntry.addLine, hmarker, hstop]
  refine ⟨next.addLine (heredoc.stop ++ margin.text),
    hnext.addLine hopen (heredoc.isLine_stop.append margin.isLine).noFeed, ?_, ?_⟩
  · have hzero : next.depth = 0 := hnextDepth.trans hdepth
    rw [hlast, OpenEntry.isComplete_iff rfl]
    exact Int.le_of_eq hzero
  · have htext : heredoc.text ++ margin.text = (heredoc.start ++ heredoc.margin.text) ++ '\n' ::
        (heredoc.lines.flatMap (fun line => line ++ ['\n']) ++ (heredoc.stop ++ margin.text)) := by
      simp [text]
    rw [OpenEntry.name_addLine, OpenEntry.value_addLine, hname, hvalue, List.append_assoc, flatMap_feed,
      htext, trimFirst_append_feed heredoc.isLine_start.noFeed, hstart]
    rfl

/-- The brackets of a value are closed with its last line if all heredocs within can be taken for
code. -/
theorem Entry.endsInTime_of_balanced {entry : Entry}
    (hbalanced : ∀ heredoc ∈ entry.value.nested, heredoc.hasBalancedLines = true) :
    entry.endsInTime = true := by
  unfold endsInTime rest
  cases hvalue : entry.value with
  | item item =>
    rw [hvalue] at hbalanced
    have hitem : behind? item.text (.within .code, 0) = some (.within .code, 0) :=
      Item.behind?_text hbalanced (Int.le_refl 0)
    have hmargin := behind?_of_depthAfter (depthAfter_weightless entry.margin.weightless 0)
    have hbehind : behind? (item.text ++ entry.margin.text) (.within .code, 0) =
        some (.within .code, 0) := by
      rw [behind?_append_of_eq_some hitem, hmargin]
    exact closesAt_of_behind? hbehind
  | heredoc heredoc => rfl

/-- The value of an entry is read as it is written. -/
theorem Entry.isStored {entry : Entry} (hends : entry.endsInTime = true) : IsStored entry.reading := by
  unfold endsInTime rest at hends
  unfold reading key rest
  cases hvalue : entry.value with
  | item item =>
    rw [hvalue] at hends
    exact Item.isStored hends entry.name
  | heredoc heredoc => exact heredoc.isStored entry.name entry.margin

/-- No value has a carriage return. -/
theorem Entry.noReturn_rest (entry : Entry) : '\r' ∉ entry.rest := by
  unfold rest
  rw [List.mem_append, not_or]
  refine ⟨?_, entry.margin.isLine.noReturn⟩
  cases entry.value with
  | item item => exact item.noReturn_text
  | heredoc heredoc => exact heredoc.noReturn_text

end Handwritten
end TerraStack.Tfvars
