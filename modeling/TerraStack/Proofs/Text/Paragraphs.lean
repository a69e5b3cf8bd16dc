import Mathlib.Data.List.Chain
import TerraStack.Text.Lines

namespace TerraStack.Text

/-- A text has no line feed. -/
def IsFeedFree (text : String) : Prop :=
  '\n' ∉ text.toList

instance (text : String) : Decidable (IsFeedFree text) :=
  inferInstanceAs (Decidable ('\n' ∉ text.toList))

theorem isFeedFree_append {text more : String} :
    IsFeedFree (text ++ more) ↔ IsFeedFree text ∧ IsFeedFree more := by
  unfold IsFeedFree
  rw [String.toList_append, List.mem_append, not_or]

/-- A joined text has no line feed if neither its parts nor the separator have one. -/
theorem isFeedFree_join {separator : String} {parts : List String} (hseparator : IsFeedFree separator)
    (hparts : ∀ part ∈ parts, IsFeedFree part) : IsFeedFree (join separator parts) := by
  have happend (cs more : List Char) (hcs : '\n' ∉ cs) (hmore : '\n' ∉ more) : '\n' ∉ cs ++ more := by
    intro hmem
    exact (List.mem_append.mp hmem).elim hcs hmore
  exact toList_join_of_append List.not_mem_nil happend hseparator hparts

/-- None of some texts has a line feed. -/
def AreFeedFree (texts : List String) : Prop :=
  ∀ text ∈ texts, IsFeedFree text

instance (texts : List String) : Decidable (AreFeedFree texts) :=
  inferInstanceAs (Decidable (∀ text ∈ texts, IsFeedFree text))

theorem areFeedFree_append {texts more : List String} :
    AreFeedFree (texts ++ more) ↔ AreFeedFree texts ∧ AreFeedFree more :=
  List.forall_mem_append

theorem areFeedFree_cons {text : String} {texts : List String} :
    AreFeedFree (text :: texts) ↔ IsFeedFree text ∧ AreFeedFree texts :=
  List.forall_mem_cons

/-- Members are free of line feeds together exactly if each of them is. -/
theorem areFeedFree_flatMap {α : Type} {textsOf : α → List String} {members : List α} :
    AreFeedFree (members.flatMap textsOf) ↔ ∀ member ∈ members, AreFeedFree (textsOf member) :=
  List.forall_mem_flatMap

/-- No blank line inside, and no line feed at an end. -/
structure HasNoBlankLine (cs : List Char) : Prop where
  chain : cs.IsChain fun c next => c ≠ '\n' ∨ next ≠ '\n'
  head : cs.head? ≠ some '\n'
  last : cs.getLast? ≠ some '\n'

theorem HasNoBlankLine.nil : HasNoBlankLine [] :=
  ⟨.nil, nofun, nofun⟩

/-- A text without line feeds has no blank line. -/
theorem IsFeedFree.hasNoBlankLine {text : String} (htext : IsFeedFree text) : HasNoBlankLine text.toList where
  chain := by
    refine List.Pairwise.isChain (List.pairwise_iff_forall_sublist.mpr ?_)
    intro c next hpair
    have hmem : c ∈ text.toList := hpair.mem List.mem_cons_self
    exact .inl fun hfeed => htext (hfeed ▸ hmem)
  head hfeed := htext (List.mem_of_head? hfeed)
  last hfeed := htext (List.mem_of_getLast? hfeed)

/-- No blank line comes up where two texts without one meet. -/
theorem HasNoBlankLine.append {cs more : List Char} (hcs : HasNoBlankLine cs) (hmore : HasNoBlankLine more) :
    HasNoBlankLine (cs ++ more) where
  chain := by
    refine List.isChain_append.mpr ⟨hcs.chain, hmore.chain, ?_⟩
    intro c hc next hnext
    exact .inl fun hfeed => hcs.last (hfeed ▸ hc)
  head := by
    cases cs with
    | nil => exact hmore.head
    | cons c cs => exact hcs.head
  last := by
    by_cases hnil : more = []
    · rw [hnil, List.append_nil]
      exact hcs.last
    · rw [List.getLast?_append_of_ne_nil _ hnil]
      exact hmore.last

/-- A text without blank lines and with something in it. -/
structure IsParagraph (cs : List Char) : Prop extends HasNoBlankLine cs where
  ne_nil : cs ≠ []

/-- A paragraph goes on to be one with more in front of it. -/
theorem HasNoBlankLine.append_paragraph {cs more : List Char} (hcs : HasNoBlankLine cs)
    (hmore : IsParagraph more) : IsParagraph (cs ++ more) :=
  ⟨hcs.append hmore.toHasNoBlankLine, List.append_ne_nil_of_right_ne_nil cs hmore.ne_nil⟩

/-- A paragraph goes on to be one with more behind it. -/
theorem IsParagraph.append_hasNoBlankLine {cs more : List Char} (hcs : IsParagraph cs)
    (hmore : HasNoBlankLine more) : IsParagraph (cs ++ more) :=
  ⟨hcs.toHasNoBlankLine.append hmore, List.append_ne_nil_of_left_ne_nil hcs.ne_nil more⟩

/-- A text without line feeds is a paragraph if it is not empty. -/
theorem IsFeedFree.isParagraph {text : String} (htext : IsFeedFree text) (hne : text.toList ≠ []) :
    IsParagraph text.toList :=
  ⟨htext.hasNoBlankLine, hne⟩

/-- A line feed between two paragraphs makes no blank line. -/
theorem IsParagraph.append_feed {cs more : List Char} (hcs : IsParagraph cs) (hmore : IsParagraph more) :
    IsParagraph (cs ++ '\n' :: more) where
  chain := by
    refine List.isChain_append.mpr ⟨hcs.chain, List.isChain_cons.mpr ⟨?_, hmore.chain⟩, ?_⟩
    · intro next hnext
      exact .inr fun hfeed => hmore.head (hfeed ▸ hnext)
    · intro c hc next hnext
      exact .inl fun hfeed => hcs.last (hfeed ▸ hc)
  head := by
    rw [List.head?_append_of_ne_nil _ hcs.ne_nil]
    exact hcs.head
  last := by
    rw [List.getLast?_append_of_ne_nil _ (List.cons_ne_nil _ _),
      List.getLast?_cons_of_ne_nil hmore.ne_nil]
    exact hmore.last
  ne_nil := by simp

/-- What holds of each part, and of two texts with the separator between them, holds of the whole. -/
theorem toList_join_of_between {P : List Char → Prop} {separator : String} {parts : List String}
    (hne : parts ≠ [])
    (hbetween : ∀ cs more, P cs → P more → P (cs ++ separator.toList ++ more))
    (hparts : ∀ part ∈ parts, P part.toList) : P (join separator parts).toList := by
  induction parts with
  | nil => exact absurd rfl hne
  | cons part rest ih =>
    have hpart := hparts part List.mem_cons_self
    cases rest with
    | nil => exact hpart
    | cons next rest =>
      have hrest := ih (List.cons_ne_nil next rest) fun other hother =>
        hparts other (List.mem_cons_of_mem part hother)
      rw [join_cons_cons, String.toList_append, String.toList_append]
      exact hbetween _ _ hpart hrest

/-- Lines that are paragraphs make a paragraph. -/
theorem isParagraph_unlines {parts : List String} (hne : parts ≠ [])
    (hparts : ∀ part ∈ parts, IsParagraph part.toList) : IsParagraph (unlines parts).toList := by
  refine toList_join_of_between hne ?_ hparts
  intro cs more hcs hmore
  rw [List.append_assoc]
  exact hcs.append_feed hmore

/-- The parts of a text between its blank lines, of which `done` has been read, backwards, of the
part at hand. Of three line feeds in a row the first two are a blank line. -/
def partsFrom (done : List Char) : List Char → List (List Char)
  | [] => [done.reverse]
  | '\n' :: '\n' :: rest => done.reverse :: partsFrom [] rest
  | c :: rest => partsFrom (c :: done) rest

/-- The parts of a text between its blank lines. Paragraphs have no blank line inside and no line
feed at an end, so no cut falls into one of them, and none falls one character too early. -/
def splitParagraphs (text : String) : List String :=
  (partsFrom [] text.toList).map String.ofList

/-- A blank line starts only where two line feeds are next to each other. -/
theorem partsFrom_cons {c : Char} {rest : List Char} (hblank : c ≠ '\n' ∨ rest.head? ≠ some '\n')
    (done : List Char) : partsFrom done (c :: rest) = partsFrom (c :: done) rest := by
  rw [partsFrom]
  rintro after rfl rfl
  rcases hblank with hc | hrest
  · exact hc rfl
  · exact hrest rfl

/-- A text with neither a blank line nor a line feed at its end is read as one part, up to whatever
follows: the induction is on the text read so far, and what it keeps is `chain` and `last`. -/
theorem partsFrom_append {cs : List Char}
    (hchain : cs.IsChain fun c next => c ≠ '\n' ∨ next ≠ '\n') (hlast : cs.getLast? ≠ some '\n')
    (done rest : List Char) : partsFrom done (cs ++ rest) = partsFrom (cs.reverse ++ done) rest := by
  induction cs generalizing done with
  | nil => rfl
  | cons c cs ih =>
    obtain ⟨hnext, hcs⟩ := List.isChain_cons.mp hchain
    have hblank : c ≠ '\n' ∨ (cs ++ rest).head? ≠ some '\n' := by
      cases cs with
      | nil => exact .inl fun hfeed => hlast (by rw [hfeed]; rfl)
      | cons next cs =>
        refine (hnext next rfl).imp_right fun hne heq => hne ?_
        simpa using heq
    have hrest : cs.getLast? ≠ some '\n' := by
      cases cs with
      | nil => simp
      | cons next cs => exact hlast
    rw [List.cons_append, partsFrom_cons hblank, ih hcs hrest, List.reverse_cons, List.append_assoc]
    rfl

/-- A text without blank lines is cut off at the blank line behind it. -/
theorem partsFrom_append_blank {cs : List Char} (hcs : HasNoBlankLine cs) (rest : List Char) :
    partsFrom [] (cs ++ '\n' :: '\n' :: rest) = cs :: partsFrom [] rest := by
  rw [partsFrom_append hcs.chain hcs.last, partsFrom, List.append_nil, List.reverse_reverse]

/-- A text without blank lines is not cut. -/
theorem partsFrom_of_hasNoBlankLine {cs : List Char} (hcs : HasNoBlankLine cs) : partsFrom [] cs = [cs] := by
  have hwhole := partsFrom_append hcs.chain hcs.last [] []
  rwa [List.append_nil, List.append_nil, partsFrom, List.reverse_reverse] at hwhole

/-- Paragraphs are got back by cutting at the blank lines between them. -/
theorem splitParagraphs_paragraphs {parts : List String} (hne : parts ≠ [])
    (hparts : ∀ part ∈ parts, HasNoBlankLine part.toList) : splitParagraphs (paragraphs parts) = parts := by
  unfold splitParagraphs paragraphs
  induction parts with
  | nil => exact absurd rfl hne
  | cons part rest ih =>
    have hpart := hparts part List.mem_cons_self
    cases rest with
    | nil => rw [join_singleton, partsFrom_of_hasNoBlankLine hpart, List.map_singleton, String.ofList_toList]
    | cons next rest =>
      have hrest := ih (List.cons_ne_nil next rest) fun other hother =>
        hparts other (List.mem_cons_of_mem part hother)
      have htext : (join "\n\n" (part :: next :: rest)).toList =
          part.toList ++ '\n' :: '\n' :: (join "\n\n" (next :: rest)).toList := by
        rw [join_cons_cons]
        simp
      rw [htext, partsFrom_append_blank hpart, List.map_cons, hrest, String.ofList_toList]

example : splitParagraphs "a\n \nb\n\n\nc\n" = ["a\n \nb", "\nc\n"] := by decide

end TerraStack.Text
