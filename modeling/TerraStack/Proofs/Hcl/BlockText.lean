import TerraStack.Hcl.Block
import TerraStack.Proofs.Hcl.Spelling
import TerraStack.Proofs.Text.Paragraphs

namespace TerraStack.Hcl

open Text (AreFeedFree IsFeedFree IsParagraph HasNoBlankLine)

mutual

/-- The strings and names in a value. If none of them has a line feed, no line of the literal is
blank, over however many lines it goes: a map without entries has a line of two spaces between its
braces, and whatever else is empty stands between quotes. -/
def Value.texts : Value → List String
  | .null | .bool _ | .integer _ | .float _ => []
  | .string text => [text]
  | .list items => textsOfItems items
  | .map entries => textsOfEntries entries

/-- The strings and names in some values. -/
def textsOfItems : List Value → List String
  | [] => []
  | item :: rest => item.texts ++ textsOfItems rest

/-- The names of some entries, and the strings and names in their values. -/
def textsOfEntries : List (String × Value) → List String
  | [] => []
  | (name, value) :: rest => name :: (value.texts ++ textsOfEntries rest)

end

/-- A word has neither a line feed nor white space, so it is a paragraph. -/
theorem IsWord.isParagraph {text : String} (htext : IsWord text.toList) :
    IsParagraph text.toList := by
  have hfeed : IsFeedFree text := by
    intro hmem
    exact not_mem_meaningfulChars (htext.all '\n' hmem) (by decide)
  exact hfeed.isParagraph htext.ne_nil

/-- Quotes bring no line feed. -/
theorem isFeedFree_quote {text : String} : IsFeedFree (quote text) ↔ IsFeedFree text := by
  unfold IsFeedFree
  simp [toList_quote]

/-- Between quotes anything without blank lines is a paragraph, also where it is empty. -/
theorem isParagraph_quote {text : String} (htext : HasNoBlankLine text.toList) :
    IsParagraph (quote text).toList := by
  have hmark : IsFeedFree "\"" := by decide
  have hopening : IsParagraph "\"".toList := hmark.isParagraph (by decide)
  unfold quote
  rw [String.toList_append, String.toList_append]
  exact (hopening.append_hasNoBlankLine htext).append_hasNoBlankLine hmark.hasNoBlankLine

/-- The literal of a float is a word, also where the float is none of the numbers. -/
theorem isParagraph_formatFloat (x : Float) : IsParagraph (Value.formatFloat x).toList := by
  have hword := isWord_write x
  unfold Value.formatFloat
  simp only
  split
  · exact hword.isParagraph
  · exact isParagraph_quote hword.isParagraph.toHasNoBlankLine

/-- The literal of a string is a paragraph, be it a reference or quoted. -/
theorem isParagraph_formatString {text : String} (htext : IsFeedFree text) :
    IsParagraph (Value.formatString text).toList := by
  unfold Value.formatString
  split
  · next hreference => exact htext.isParagraph (ne_nil_of_isReference hreference)
  · exact isParagraph_quote htext.hasNoBlankLine

/-- Lists of paragraphs between brackets are paragraphs, also where there is nothing to list. -/
theorem isParagraph_list {parts : List String} (hparts : ∀ part ∈ parts, IsParagraph part.toList) :
    IsParagraph ("[" ++ Text.join ", " parts ++ "]").toList := by
  have hbody : HasNoBlankLine (Text.join ", " parts).toList := by
    have hcomma : IsFeedFree ", " := by decide
    exact Text.toList_join_of_append .nil (fun _ _ => .append) hcomma.hasNoBlankLine
      fun part hpart => (hparts part hpart).toHasNoBlankLine
  have hopening : IsFeedFree "[" := by decide
  have hclosing : IsFeedFree "]" := by decide
  have hopened := (hopening.isParagraph (by decide)).append_hasNoBlankLine hbody
  rw [String.toList_append, String.toList_append]
  exact hopened.append_hasNoBlankLine hclosing.hasNoBlankLine

/-- Between its braces a map has a line for each entry, or one of two spaces. -/
theorem isParagraph_map {parts : List String} (hparts : ∀ part ∈ parts, IsParagraph part.toList) :
    IsParagraph ("\x7b\n  " ++ Text.join "\n  " parts ++ "\n\x7d").toList := by
  have hspaces : IsFeedFree "  " := by decide
  have hindent : IsParagraph "  ".toList := hspaces.isParagraph (by decide)
  have hbody : IsParagraph ("  ".toList ++ (Text.join "\n  " parts).toList) := by
    by_cases hnil : parts = []
    · rw [hnil]
      exact hindent
    · refine hindent.append_hasNoBlankLine (IsParagraph.toHasNoBlankLine ?_)
      refine Text.toList_join_of_between hnil ?_ hparts
      intro cs more hcs hmore
      rw [List.append_assoc]
      exact hcs.append_feed (hindent.append_hasNoBlankLine hmore.toHasNoBlankLine)
  have hopening : IsFeedFree "\x7b" := by decide
  have hclosing : IsFeedFree "\x7d" := by decide
  have hlines := ((hopening.isParagraph (by decide)).append_feed hbody).append_feed
    (hclosing.isParagraph (by decide))
  simpa using hlines

mutual

/-- The literal of a value is one paragraph if no string and no name in it has a line feed. -/
theorem isParagraph_format : ∀ {value : Value}, AreFeedFree value.texts →
    IsParagraph value.format.toList
  | .null, _ => IsWord.isParagraph (isWord_of_all (by decide) (by decide))
  | .bool true, _ => IsWord.isParagraph (isWord_of_all (by decide) (by decide))
  | .bool false, _ => IsWord.isParagraph (isWord_of_all (by decide) (by decide))
  | .integer value, _ => IsWord.isParagraph (isWord_intToString value)
  | .float value, _ => isParagraph_formatFloat value
  | .string text, htexts => isParagraph_formatString (htexts text List.mem_cons_self)
  | .list _, htexts => isParagraph_list (isParagraph_formatAll htexts)
  | .map _, htexts => isParagraph_map (isParagraph_formatEntries htexts)

theorem isParagraph_formatAll : ∀ {items : List Value}, AreFeedFree (textsOfItems items) →
    ∀ part ∈ Value.formatAll items, IsParagraph part.toList
  | [], _, _, hpart => absurd hpart List.not_mem_nil
  | _ :: _, htexts, part, hpart => by
    obtain ⟨hitem, hrest⟩ := Text.areFeedFree_append.mp htexts
    rcases List.mem_cons.mp hpart with rfl | hmem
    · exact isParagraph_format hitem
    · exact isParagraph_formatAll hrest part hmem

theorem isParagraph_formatEntries : ∀ {entries : List (String × Value)},
    AreFeedFree (textsOfEntries entries) →
      ∀ part ∈ Value.formatEntries entries, IsParagraph part.toList
  | [], _, _, hpart => absurd hpart List.not_mem_nil
  | (_, _) :: _, htexts, part, hpart => by
    obtain ⟨hname, htexts⟩ := Text.areFeedFree_cons.mp htexts
    obtain ⟨hvalue, hrest⟩ := Text.areFeedFree_append.mp htexts
    rcases List.mem_cons.mp hpart with rfl | hmem
    · have hequal : IsFeedFree " = " := by decide
      rw [String.toList_append, String.toList_append]
      exact (hname.hasNoBlankLine.append hequal.hasNoBlankLine).append_paragraph (isParagraph_format hvalue)
    · exact isParagraph_formatEntries hrest part hmem

end

/-- No name and no head in an item has a line feed, and no expression brings a blank line. -/
inductive Item.IsTidy : Item → Prop
  | argument {name expression : String} (hname : IsFeedFree name)
      (hexpression : HasNoBlankLine expression.toList) : IsTidy (.argument name expression)
  | block {head : String} {items : List Item} (hhead : IsFeedFree head)
      (hitems : ∀ item ∈ items, item.IsTidy) : IsTidy (.block head items)

/-- The lines of some items are the lines of each of them. -/
theorem mem_itemLines {indent line : String} {items : List Item} :
    line ∈ itemLines indent items ↔ ∃ item ∈ items, line ∈ item.lines indent := by
  induction items with
  | nil => simp [itemLines]
  | cons item rest ih => simp [itemLines, ih]

/-- Every line of a tidy item is a paragraph, or some paragraphs where the expression goes on over
many lines. -/
theorem Item.IsTidy.isParagraph_of_mem_lines {item : Item} (hitem : item.IsTidy) {indent line : String}
    (hindent : IsFeedFree indent) (hline : line ∈ item.lines indent) : IsParagraph line.toList := by
  induction hitem generalizing indent with
  | argument hname hexpression =>
    obtain rfl := List.mem_singleton.mp hline
    have hequal : IsFeedFree " = " := by decide
    have hstart := (hindent.hasNoBlankLine.append hname.hasNoBlankLine).append_paragraph
      (hequal.isParagraph (by decide))
    simpa using hstart.append_hasNoBlankLine hexpression
  | block hhead _ ih =>
    rw [Item.lines, List.mem_cons, List.mem_append, List.mem_singleton] at hline
    rcases hline with rfl | hinner | rfl
    · have hopening : IsFeedFree " \x7b" := by decide
      rw [String.toList_append, String.toList_append]
      exact (hindent.hasNoBlankLine.append hhead.hasNoBlankLine).append_paragraph
        (hopening.isParagraph (by decide))
    · obtain ⟨item, hmem, hinner⟩ := mem_itemLines.mp hinner
      exact ih item hmem (Text.isFeedFree_append.mpr ⟨hindent, by decide⟩) hinner
    · have hclosing : IsFeedFree "\x7d" := by decide
      rw [String.toList_append]
      exact hindent.hasNoBlankLine.append_paragraph (hclosing.isParagraph (by decide))

/-- Every item has a line. -/
theorem lines_ne_nil (item : Item) (indent : String) : item.lines indent ≠ [] := by
  cases item with
  | argument name expression => exact List.cons_ne_nil _ _
  | block head items => exact List.cons_ne_nil _ _

/-- The text of a tidy item is one paragraph. -/
theorem Item.IsTidy.isParagraph_text {item : Item} (hitem : item.IsTidy) :
    IsParagraph item.text.toList := by
  refine Text.isParagraph_unlines (lines_ne_nil item "") ?_
  intro line hline
  exact hitem.isParagraph_of_mem_lines (by decide) hline

/-- An argument with a string between quotes. -/
theorem isTidy_quoted {name text : String} (hname : IsFeedFree name) (htext : HasNoBlankLine text.toList) :
    (Item.argument name (quote text)).IsTidy :=
  .argument hname (isParagraph_quote htext).toHasNoBlankLine

/-- A head has no line feed if neither its kind nor its labels have one. -/
theorem isFeedFree_head {kind : String} {labels : List String} (hkind : IsFeedFree kind)
    (hlabels : AreFeedFree labels) : IsFeedFree (head kind labels) := by
  refine Text.isFeedFree_join (by decide) ?_
  intro part hpart
  rcases List.mem_cons.mp hpart with rfl | hquoted
  · exact hkind
  · obtain ⟨label, hlabel, rfl⟩ := List.mem_map.mp hquoted
    exact isFeedFree_quote.mpr (hlabels label hlabel)

theorem isFeedFree_head_singleton {kind label : String} (hkind : IsFeedFree kind)
    (hlabel : IsFeedFree label) : IsFeedFree (head kind [label]) :=
  isFeedFree_head hkind (Text.areFeedFree_cons.mpr ⟨hlabel, nofun⟩)

/-- All of some items are tidy. -/
def AreTidy (items : List Item) : Prop :=
  ∀ item ∈ items, item.IsTidy

theorem areTidy_nil : AreTidy [] :=
  nofun

theorem areTidy_cons {item : Item} {items : List Item} :
    AreTidy (item :: items) ↔ item.IsTidy ∧ AreTidy items :=
  List.forall_mem_cons

theorem areTidy_append {items more : List Item} :
    AreTidy (items ++ more) ↔ AreTidy items ∧ AreTidy more :=
  List.forall_mem_append

theorem areTidy_map {α : Type} {members : List α} {itemOf : α → Item} :
    AreTidy (members.map itemOf) ↔ ∀ member ∈ members, (itemOf member).IsTidy :=
  List.forall_mem_map

theorem areTidy_flatMap {α : Type} {members : List α} {itemsOf : α → List Item} :
    AreTidy (members.flatMap itemsOf) ↔ ∀ member ∈ members, AreTidy (itemsOf member) :=
  List.forall_mem_flatMap

/-- Spaces behind a name bring no line feed. -/
theorem isFeedFree_padTo {name : String} (hname : IsFeedFree name) (width : Nat) :
    IsFeedFree (padTo width name) := by
  refine Text.isFeedFree_append.mpr ⟨hname, ?_⟩
  intro hmem
  rw [String.toList_ofList] at hmem
  exact absurd (List.mem_replicate.mp hmem).2 (by decide)

/-- To align arguments brings spaces only, so names without line feeds and expressions without blank
lines make tidy items. -/
theorem areTidy_alignedArguments {arguments : List (String × String)}
    (harguments : ∀ argument ∈ arguments, IsFeedFree argument.1 ∧ HasNoBlankLine argument.2.toList) :
    AreTidy (alignedArguments arguments) := by
  refine areTidy_map.mpr fun argument hmem => ?_
  obtain ⟨hname, hexpression⟩ := harguments argument hmem
  exact .argument (isFeedFree_padTo hname _) hexpression

end TerraStack.Hcl
