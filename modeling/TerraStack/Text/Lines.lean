namespace TerraStack.Text

/-- Drop a carriage return that stands first. -/
def dropReturn : List Char → List Char
  | '\r' :: rest => rest
  | cs => cs

/-- The lines of a text of which `done` has been read, backwards, of the line at hand. -/
def linesFrom (done : List Char) : List Char → List (List Char)
  | [] => if done.isEmpty then [] else [done.reverse]
  | c :: rest =>
    if c = '\n' then (dropReturn done).reverse :: linesFrom [] rest
    else linesFrom (c :: done) rest

/-- The lines of a text, without their line ends. A line ends with a line feed, or with a carriage
return and a line feed. What follows the last line end is a line too, unless it is empty. A carriage
return that no line feed follows is part of its line. -/
def lineChars (cs : List Char) : List (List Char) :=
  linesFrom [] cs

/-- The lines of a text, without their line ends. -/
def lines (text : String) : List String :=
  (lineChars text.toList).map String.ofList

/-- Texts in order with a separator between every two. -/
def join (separator : String) : List String → String
  | [] => ""
  | [part] => part
  | part :: next :: rest => part ++ separator ++ join separator (next :: rest)

/-- Lines with a line feed between every two. -/
def unlines (parts : List String) : String :=
  join "\n" parts

/-- Blocks with a blank line between every two. -/
def paragraphs (parts : List String) : String :=
  join "\n\n" parts

@[simp] theorem join_nil (separator : String) : join separator [] = "" := rfl

@[simp] theorem join_singleton (separator part : String) : join separator [part] = part := rfl

/-- Between the first part and the rest stands one separator. -/
theorem join_cons_cons (separator part next : String) (rest : List String) :
    join separator (part :: next :: rest) = part ++ separator ++ join separator (next :: rest) :=
  rfl

/-- Two joined lists of parts have one separator between them. -/
theorem join_append_of_ne_nil {separator : String} {parts more : List String} (hparts : parts ≠ [])
    (hmore : more ≠ []) :
    join separator (parts ++ more) = join separator parts ++ separator ++ join separator more := by
  induction parts with
  | nil => exact absurd rfl hparts
  | cons part rest ih =>
    cases rest with
    | nil =>
      obtain ⟨next, others, rfl⟩ := List.exists_cons_of_ne_nil hmore
      rfl
    | cons next rest =>
      rw [List.cons_append, List.cons_append, join_cons_cons, join_cons_cons, ← List.cons_append,
        ih (List.cons_ne_nil _ _)]
      simp only [String.append_assoc]

/-- A text that starts with a part that is not empty is not empty. -/
theorem join_cons_ne_empty {separator part : String} (hpart : part ≠ "") (rest : List String) :
    join separator (part :: rest) ≠ "" := by
  cases rest with
  | nil => exact hpart
  | cons next rest =>
    rw [join_cons_cons]
    simp [hpart]

/-- What holds of the parts and of the separator, and of one text behind another, holds of the
whole. -/
theorem toList_join_of_append {P : List Char → Prop} {separator : String} {parts : List String}
    (hnil : P []) (happend : ∀ cs more, P cs → P more → P (cs ++ more)) (hseparator : P separator.toList)
    (hparts : ∀ part ∈ parts, P part.toList) : P (join separator parts).toList := by
  induction parts with
  | nil => exact hnil
  | cons part rest ih =>
    have hpart := hparts part List.mem_cons_self
    cases rest with
    | nil => exact hpart
    | cons next rest =>
      have hrest := ih fun other hother => hparts other (List.mem_cons_of_mem part hother)
      rw [join_cons_cons, String.toList_append, String.toList_append]
      exact happend _ _ (happend _ _ hpart hseparator) hrest

/-- Whether the characters can be those of one line: no character among them ends a line. -/
structure IsLine (cs : List Char) : Prop where
  noFeed : '\n' ∉ cs
  noReturn : '\r' ∉ cs

theorem IsLine.nil : IsLine [] := ⟨List.not_mem_nil, List.not_mem_nil⟩

/-- Two parts of a line make a line. -/
theorem IsLine.append {cs more : List Char} (hcs : IsLine cs) (hmore : IsLine more) :
    IsLine (cs ++ more) where
  noFeed hmem := (List.mem_append.mp hmem).elim hcs.noFeed hmore.noFeed
  noReturn hmem := (List.mem_append.mp hmem).elim hcs.noReturn hmore.noReturn

/-- What is left of a line is a line. -/
theorem IsLine.sublist {cs part : List Char} (hcs : IsLine cs) (hpart : part.Sublist cs) :
    IsLine part where
  noFeed hmem := hcs.noFeed (hpart.mem hmem)
  noReturn hmem := hcs.noReturn (hpart.mem hmem)

/-- Without carriage returns there is none to drop. -/
theorem dropReturn_of_not_mem {cs : List Char} (hcs : '\r' ∉ cs) : dropReturn cs = cs := by
  unfold dropReturn
  split
  · exact absurd List.mem_cons_self hcs
  · rfl

/-- A line feed ends the line at hand, whose beginning has been read before. -/
theorem linesFrom_append_feed {line : List Char} (hline : '\n' ∉ line) (done rest : List Char) :
    linesFrom done (line ++ '\n' :: rest) =
      (dropReturn (line.reverse ++ done)).reverse :: lineChars rest := by
  induction line generalizing done with
  | nil => simp [linesFrom, lineChars]
  | cons c line ih =>
    have hc : c ≠ '\n' := fun heq => hline (heq ▸ List.mem_cons_self)
    have hrest : '\n' ∉ line := fun hmem => hline (List.mem_cons_of_mem c hmem)
    simp [linesFrom, hc, ih hrest]

/-- A line and what follows its end. -/
theorem lineChars_append_feed {line : List Char} (hline : IsLine line) (rest : List Char) :
    lineChars (line ++ '\n' :: rest) = line :: lineChars rest := by
  unfold lineChars
  rw [linesFrom_append_feed hline.noFeed, List.append_nil,
    dropReturn_of_not_mem (by simpa using hline.noReturn), List.reverse_reverse]
  rfl

/-- Without a line feed all that is left is one line, if there is anything. -/
theorem linesFrom_of_not_mem {line : List Char} (hline : '\n' ∉ line) (done : List Char) :
    linesFrom done line = if (line.reverse ++ done).isEmpty then [] else [done.reverse ++ line] := by
  induction line generalizing done with
  | nil => simp [linesFrom]
  | cons c line ih =>
    have hc : c ≠ '\n' := fun heq => hline (heq ▸ List.mem_cons_self)
    have hrest : '\n' ∉ line := fun hmem => hline (List.mem_cons_of_mem c hmem)
    simp [linesFrom, hc, ih hrest]

theorem mem_dropReturn {cs : List Char} {c : Char} (hc : c ∈ dropReturn cs) : c ∈ cs := by
  unfold dropReturn at hc
  split at hc
  · exact List.mem_cons_of_mem _ hc
  · exact hc

/-- Without carriage returns in front of it and in it, what is read as a line is one. -/
theorem isLine_of_mem_linesFrom {done cs line : List Char} (hdone : IsLine done) (hcs : '\r' ∉ cs)
    (hline : line ∈ linesFrom done cs) : IsLine line := by
  induction cs generalizing done with
  | nil =>
    unfold linesFrom at hline
    split at hline
    · cases hline
    · obtain rfl := List.mem_singleton.mp hline
      exact ⟨by simpa using hdone.noFeed, by simpa using hdone.noReturn⟩
  | cons c cs ih =>
    have hrest : '\r' ∉ cs := fun hmem => hcs (List.mem_cons_of_mem c hmem)
    unfold linesFrom at hline
    split at hline
    · rcases List.mem_cons.mp hline with rfl | hmem
      · exact ⟨fun hmem => hdone.noFeed (mem_dropReturn (List.mem_reverse.mp hmem)),
          fun hmem => hdone.noReturn (mem_dropReturn (List.mem_reverse.mp hmem))⟩
      · exact ih .nil hrest hmem
    · next hc =>
      refine ih ⟨?_, ?_⟩ hrest hline
      · exact fun hmem => (List.mem_cons.mp hmem).elim (fun heq => hc heq.symm) hdone.noFeed
      · exact fun hmem => (List.mem_cons.mp hmem).elim
          (fun heq => hcs (heq ▸ List.mem_cons_self)) hdone.noReturn

/-- Without carriage returns in a text, nothing in its lines ends a line. -/
theorem isLine_of_mem_lineChars {cs line : List Char} (hcs : '\r' ∉ cs)
    (hline : line ∈ lineChars cs) : IsLine line :=
  isLine_of_mem_linesFrom .nil hcs hline

/-- The first of several lines ends with a line feed. -/
theorem toList_unlines_cons_cons (part next : String) (rest : List String) :
    (unlines (part :: next :: rest)).toList =
      part.toList ++ '\n' :: (unlines (next :: rest)).toList := by
  rw [unlines, join_cons_cons]
  simp [unlines]

end TerraStack.Text
