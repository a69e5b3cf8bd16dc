namespace TerraStack.Text

/-- The characters of the Unicode property White_Space, in code point order. The class is wider than
the ASCII blanks: a no-break space or an ideographic space around an answer does not change the
answer. -/
def blanks : List Char :=
  ['\u0009', '\u000a', '\u000b', '\u000c', '\u000d', '\u0020', '\u0085', '\u00a0', '\u1680',
   '\u2000', '\u2001', '\u2002', '\u2003', '\u2004', '\u2005', '\u2006', '\u2007', '\u2008',
   '\u2009', '\u200a', '\u2028', '\u2029', '\u202f', '\u205f', '\u3000']

/-- Whether a character is white space. -/
def isBlank (c : Char) : Bool :=
  blanks.contains c

theorem isBlank_eq_true_iff {c : Char} : isBlank c = true ↔ c ∈ blanks :=
  List.contains_iff_mem

theorem isBlank_eq_false_iff {c : Char} : isBlank c = false ↔ c ∉ blanks := by
  rw [← Bool.not_eq_true, isBlank_eq_true_iff]

/-- Drop the white space at the start. -/
def trimStart (cs : List Char) : List Char :=
  cs.dropWhile isBlank

/-- Drop the white space at the end. -/
def trimEnd (cs : List Char) : List Char :=
  (cs.reverse.dropWhile isBlank).reverse

/-- Drop the white space on both sides. -/
def trimChars (cs : List Char) : List Char :=
  trimEnd (trimStart cs)

/-- A text without the white space around it. -/
def trim (text : String) : String :=
  .ofList (trimChars text.toList)

/-- Whether there is no white space at the start and none at the end. -/
structure IsTrimmed (cs : List Char) : Prop where
  head : ∀ c, cs.head? = some c → isBlank c = false
  last : ∀ c, cs.getLast? = some c → isBlank c = false

theorem IsTrimmed.nil : IsTrimmed [] := ⟨nofun, nofun⟩

/-- Behind a character that is not white space nothing is dropped at the start. -/
theorem trimStart_append_cons {c : Char} (hc : isBlank c = false) (before after : List Char) :
    trimStart (before ++ c :: after) = trimStart before ++ c :: after := by
  unfold trimStart
  induction before with
  | nil => simp [hc]
  | cons a before ih =>
    by_cases ha : isBlank a = true
    · simpa [ha] using ih
    · simp [ha]

/-- In front of a character that is not white space nothing is dropped at the end. -/
theorem trimEnd_append_cons {c : Char} (hc : isBlank c = false) (before after : List Char) :
    trimEnd (before ++ c :: after) = before ++ c :: trimEnd after := by
  have hreverse : (before ++ c :: after).reverse = after.reverse ++ c :: before.reverse := by simp
  have hstart := trimStart_append_cons hc after.reverse before.reverse
  unfold trimStart at hstart
  unfold trimEnd
  rw [hreverse, hstart]
  simp

/-- White space is dropped on either side of a character that is none. -/
theorem trimChars_append_cons {c : Char} (hc : isBlank c = false) (before after : List Char) :
    trimChars (before ++ c :: after) = trimStart before ++ c :: trimEnd after := by
  unfold trimChars
  rw [trimStart_append_cons hc, trimEnd_append_cons hc]

/-- A text that does not start with white space loses nothing at its start. -/
theorem trimStart_of_head {cs : List Char} (hhead : ∀ c, cs.head? = some c → isBlank c = false) :
    trimStart cs = cs := by
  cases cs with
  | nil => rfl
  | cons c cs => simp [trimStart, hhead c rfl]

/-- A text that does not end with white space loses nothing at its end. -/
theorem trimEnd_of_last {cs : List Char} (hlast : ∀ c, cs.getLast? = some c → isBlank c = false) :
    trimEnd cs = cs := by
  have hhead : ∀ c, cs.reverse.head? = some c → isBlank c = false := by simpa using hlast
  have hreverse := trimStart_of_head hhead
  unfold trimStart at hreverse
  unfold trimEnd
  rw [hreverse, List.reverse_reverse]

/-- White space at the end makes no difference. -/
theorem trimEnd_concat_of_blank {c : Char} (hc : isBlank c = true) (cs : List Char) :
    trimEnd (cs ++ [c]) = trimEnd cs := by
  simp [trimEnd, hc]

/-- White space at the end makes no difference to the trimmed text either. -/
theorem trimChars_concat_of_blank {c : Char} (hc : isBlank c = true) (cs : List Char) :
    trimChars (cs ++ [c]) = trimChars cs := by
  unfold trimChars trimStart
  rw [List.dropWhile_append]
  split
  · next hblank =>
    have hnothing : cs.dropWhile isBlank = [] := by simpa using hblank
    simp [hnothing, hc]
  · exact trimEnd_concat_of_blank hc _

theorem IsTrimmed.trimStart_eq {cs : List Char} (htrimmed : IsTrimmed cs) : trimStart cs = cs :=
  trimStart_of_head htrimmed.head

theorem IsTrimmed.trimEnd_eq {cs : List Char} (htrimmed : IsTrimmed cs) : trimEnd cs = cs :=
  trimEnd_of_last htrimmed.last

theorem IsTrimmed.trimChars_eq {cs : List Char} (htrimmed : IsTrimmed cs) : trimChars cs = cs := by
  unfold trimChars
  rw [htrimmed.trimStart_eq, htrimmed.trimEnd_eq]

/-- What is left does not start with white space. -/
theorem head?_trimStart (cs : List Char) (c : Char) (hc : (trimStart cs).head? = some c) :
    isBlank c = false := by
  have hdropped := List.head?_dropWhile_not isBlank cs
  unfold trimStart at hc
  rw [hc] at hdropped
  simpa using hdropped

/-- Dropping white space at the end leaves a beginning of the text. -/
theorem trimEnd_isPrefix (cs : List Char) : trimEnd cs <+: cs := by
  rw [← List.reverse_suffix, trimEnd, List.reverse_reverse]
  exact List.dropWhile_suffix isBlank

/-- Trimming only drops characters. -/
theorem trimChars_sublist (cs : List Char) : (trimChars cs).Sublist cs :=
  (trimEnd_isPrefix _).sublist.trans (List.dropWhile_sublist isBlank)

/-- What is left has no white space at either side. -/
theorem isTrimmed_trimChars (cs : List Char) : IsTrimmed (trimChars cs) where
  head c hc := by
    obtain ⟨rest, hrest⟩ := trimEnd_isPrefix (trimStart cs)
    refine head?_trimStart cs c ?_
    rw [← hrest, List.head?_append]
    exact Option.or_eq_some_iff.mpr (.inl hc)
  last c hc := by
    refine head?_trimStart (trimStart cs).reverse c ?_
    simpa [trimChars, trimEnd, trimStart] using hc

/-- A text is trimmed exactly if trimming leaves it as it is. -/
theorem isTrimmed_iff {cs : List Char} : IsTrimmed cs ↔ trimChars cs = cs := by
  constructor
  · exact IsTrimmed.trimChars_eq
  · intro heq
    rw [← heq]
    exact isTrimmed_trimChars cs

instance (cs : List Char) : Decidable (IsTrimmed cs) :=
  decidable_of_iff _ isTrimmed_iff.symm

/-- White space at the start makes no difference to the trimmed text. -/
theorem trimChars_cons_of_blank {c : Char} (hc : isBlank c = true) (cs : List Char) :
    trimChars (c :: cs) = trimChars cs := by
  simp [trimChars, trimStart, hc]

/-- A run of white space at the start is dropped as a whole. -/
theorem trimStart_append_of_blank {before : List Char} (hbefore : ∀ c ∈ before, isBlank c = true)
    (cs : List Char) : trimStart (before ++ cs) = trimStart cs :=
  List.dropWhile_append_of_pos hbefore

/-- A run of white space at the end is dropped as a whole. -/
theorem trimEnd_append_of_blank {after : List Char} (hafter : ∀ c ∈ after, isBlank c = true)
    (cs : List Char) : trimEnd (cs ++ after) = trimEnd cs := by
  unfold trimEnd
  rw [List.reverse_append, List.dropWhile_append_of_pos fun c hc => hafter c (List.mem_reverse.mp hc)]

/-- White space is dropped from both sides of a text that has none there itself. -/
theorem IsTrimmed.trimChars_append {core : List Char} (hcore : IsTrimmed core) {before after : List Char}
    (hbefore : ∀ c ∈ before, isBlank c = true) (hafter : ∀ c ∈ after, isBlank c = true) :
    trimChars (before ++ core ++ after) = core := by
  rw [trimChars, List.append_assoc, trimStart_append_of_blank hbefore]
  cases core with
  | nil =>
    have hnothing := trimStart_append_of_blank hafter []
    rw [List.append_nil] at hnothing
    rw [List.nil_append, hnothing]
    rfl
  | cons c rest =>
    rw [trimStart_of_head (by simpa using hcore.head), trimEnd_append_of_blank hafter, hcore.trimEnd_eq]

/-- A text is what trimming leaves of it, between white space. -/
theorem exists_eq_append_trimChars (cs : List Char) :
    ∃ before after, (∀ c ∈ before, isBlank c = true) ∧ (∀ c ∈ after, isBlank c = true) ∧
      cs = before ++ trimChars cs ++ after := by
  refine ⟨cs.takeWhile isBlank, ((trimStart cs).reverse.takeWhile isBlank).reverse,
    List.all_eq_true.mp List.all_takeWhile,
    fun c hc => List.all_eq_true.mp List.all_takeWhile c (List.mem_reverse.mp hc), ?_⟩
  have hstart : cs.takeWhile isBlank ++ trimStart cs = cs := List.takeWhile_append_dropWhile
  have hend : trimEnd (trimStart cs) ++ ((trimStart cs).reverse.takeWhile isBlank).reverse =
      trimStart cs := by
    rw [trimEnd, ← List.reverse_append, List.takeWhile_append_dropWhile, List.reverse_reverse]
  rw [trimChars, List.append_assoc, hend, hstart]

/-- Nothing is left of white space, and of nothing else. -/
theorem trimChars_eq_nil_iff {cs : List Char} : trimChars cs = [] ↔ ∀ c ∈ cs, isBlank c = true := by
  constructor
  · intro hnil
    obtain ⟨before, after, hbefore, hafter, heq⟩ := exists_eq_append_trimChars cs
    rw [hnil, List.append_nil] at heq
    intro c hc
    rw [heq] at hc
    exact (List.mem_append.mp hc).elim (hbefore c) (hafter c)
  · intro hblank
    have hnil := IsTrimmed.nil.trimChars_append hblank fun _ hc => absurd hc List.not_mem_nil
    simpa using hnil

end TerraStack.Text
