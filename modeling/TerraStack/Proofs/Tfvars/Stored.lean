import TerraStack.Proofs.Tfvars.Reread

namespace TerraStack.Tfvars

open Text (lineChars)

/-- A name and a value that are read as they are written, unless a line end takes a carriage return
of them away. -/
def IsStored (entry : String × String) : Prop :=
  ∃ read : OpenEntry, ReadByLine read ∧ read.isComplete = true ∧
    entry = (.ofList read.name, .ofList read.value)

/-- What has been read are entries with some property, and at most one that is not complete. -/
structure Reading.All (P : OpenEntry → Prop) (reading : Reading) : Prop where
  kept : ∀ entry ∈ reading.entries.entries, ∃ read : OpenEntry, P read ∧ read.isComplete = true ∧
    entry = (.ofList read.name, .ofList read.value)
  opened : ∀ entry, reading.open? = some entry → P entry ∧ entry.isComplete = false

namespace Reading.All

variable {P : OpenEntry → Prop} {reading : Reading}

/-- Before the first line nothing has been read. -/
theorem start : Reading.All P ⟨∅, none⟩ := ⟨nofun, nofun⟩

/-- Entries with some property have what follows from it. -/
theorem mono {Q : OpenEntry → Prop} (hmono : ∀ entry, P entry → Q entry) (hall : reading.All P) :
    reading.All Q where
  kept entry hmem := by
    obtain ⟨read, hread, hcomplete, heq⟩ := hall.kept entry hmem
    exact ⟨read, hmono read hread, hcomplete, heq⟩
  opened entry hopen := (hall.opened entry hopen).imp_left (hmono entry)

/-- An entry with the property may be kept. -/
theorem keep (hall : reading.All P) {entry : OpenEntry} (hentry : P entry) :
    (reading.keep entry).All P := by
  unfold Reading.keep
  split
  · next hcomplete =>
    refine ⟨fun stored hmem => ?_, nofun⟩
    rcases OrderedMap.mem_setEntry hmem with rfl | hold
    · exact ⟨entry, hentry, hcomplete, rfl⟩
    · exact hall.kept stored hold
  · next hopen =>
    refine ⟨hall.kept, fun other hother => ?_⟩
    obtain rfl := Option.some.inj hother
    exact ⟨hentry, Bool.eq_false_iff.mpr hopen⟩

/-- One more line, behind which all entries have some other property. -/
theorem addLine {Q : OpenEntry → Prop} {line : List Char} (hmono : ∀ entry, P entry → Q entry)
    (hbegin : ∀ entry, beginEntry? line = some entry → Q entry)
    (hadd : ∀ entry, P entry → entry.isComplete = false → Q (entry.addLine line))
    (hall : reading.All P) : (reading.addLine line).All Q := by
  have hbefore : reading.All Q := hall.mono hmono
  unfold Reading.addLine
  split
  · next entry hopen =>
    obtain ⟨hentry, hincomplete⟩ := hall.opened entry hopen
    exact hbefore.keep (hadd entry hentry hincomplete)
  · split
    · next entry hfound => exact hbefore.keep (hbegin entry hfound)
    · exact hbefore

/-- What the entries have that lines begin, and do not lose with one more line, all have that are
read. -/
theorem foldl {lines : List (List Char)}
    (hbegin : ∀ line ∈ lines, ∀ entry, beginEntry? line = some entry → P entry)
    (hadd : ∀ line ∈ lines, ∀ entry, P entry → entry.isComplete = false → P (entry.addLine line))
    (hall : reading.All P) : (lines.foldl Reading.addLine reading).All P := by
  induction lines generalizing reading with
  | nil => exact hall
  | cons line lines ih =>
    rw [List.forall_mem_cons] at hbegin hadd
    exact ih hbegin.2 hadd.2 (hall.addLine (fun _ => id) hbegin.1 hadd.1)

end Reading.All

/-- Whatever is read of a text was read line by line. -/
theorem all_readByLine (text : List Char) :
    ((lineChars text).foldl Reading.addLine ⟨∅, none⟩).All ReadByLine :=
  Reading.All.start.foldl
    (fun _ hline _ => readByLine_of_begin (Text.noFeed_of_mem_lineChars hline))
    fun _ hline _ hreadByLine hopen => hreadByLine.addLine hopen (Text.noFeed_of_mem_lineChars hline)

/-- Every entry of a text can be written and read again. -/
theorem isStored_of_mem_parse {text : String} {entry : String × String}
    (hmem : entry ∈ (parse text).entries) : IsStored entry :=
  (all_readByLine text.toList).kept entry hmem

/-- An entry that is read of a text has no carriage return that the text does not have. -/
theorem noReturn_of_mem_parse {text : String} (htext : '\r' ∉ text.toList) {entry : String × String}
    (hmem : entry ∈ (parse text).entries) : '\r' ∉ (entryText entry).toList := by
  have hlines : ∀ line ∈ lineChars text.toList, '\r' ∉ line :=
    fun _ hline => (Text.isLine_of_mem_lineChars htext hline).noReturn
  have hall : ((lineChars text.toList).foldl Reading.addLine ⟨∅, none⟩).All
      fun read => '\r' ∉ read.text := by
    refine Reading.All.start.foldl (fun line hline read hbegin => ?_)
      fun line hline read hread _ => ?_
    · have hparts : '\r' ∉ read.name ++ read.value := fun hmem =>
        hlines line hline ((sublist_of_begin hbegin).mem hmem)
      simpa [OpenEntry.text] using hparts
    · rw [OpenEntry.text_addLine, List.mem_append, List.mem_cons, not_or, not_or]
      exact ⟨hread, by decide, hlines line hline⟩
  obtain ⟨read, hread, _, rfl⟩ := hall.kept entry hmem
  simpa [entryText, OpenEntry.text] using hread

/-- The entry that is read of the text of a stored one. -/
theorem IsStored.exists_read {entry : String × String} (hstored : IsStored entry) :
    ∃ read : OpenEntry, ReadByLine read ∧ read.isComplete = true ∧
      (entryText entry).toList = read.text ∧ ∀ entries : OrderedMap String String,
        Reading.keep ⟨entries, none⟩ read = ⟨entries.insert entry.1 entry.2, none⟩ := by
  obtain ⟨read, hreadByLine, hcomplete, rfl⟩ := hstored
  exact ⟨read, hreadByLine, hcomplete, by simp [entryText, OpenEntry.text],
    fun entries => by simp [Reading.keep, hcomplete]⟩

/-- The text of entries one after another. -/
def entriesText (entries : List (String × String)) : String :=
  Text.unlines (entries.map entryText)

/-- The text of entries is that of the first one, a line feed and that of the others. -/
theorem toList_entriesText_cons (entry : String × String) {rest : List (String × String)}
    (hrest : rest ≠ []) : (entriesText (entry :: rest)).toList =
      (entryText entry).toList ++ '\n' :: (entriesText rest).toList := by
  obtain ⟨next, others, rfl⟩ := List.exists_cons_of_ne_nil hrest
  exact Text.toList_unlines_cons_cons _ _ _

/-- The text of some entries is read as these entries, behind those that were read before. -/
theorem foldl_entriesText {entries : List (String × String)}
    (hstored : ∀ entry ∈ entries, IsStored entry)
    (hreturn : ¬ ['\r', '\n'] <:+: (entriesText entries).toList) (map : OrderedMap String String) :
    (lineChars (entriesText entries).toList).foldl Reading.addLine ⟨map, none⟩ =
      ⟨entries.foldl (fun map entry => map.insert entry.1 entry.2) map, none⟩ := by
  induction entries generalizing map with
  | nil => rfl
  | cons entry rest ih =>
    obtain ⟨read, hreadByLine, hcomplete, htext, hkeep⟩ :=
      (hstored entry List.mem_cons_self).exists_read
    by_cases hrest : rest = []
    · subst hrest
      have hsingle : (entriesText [entry]).toList = read.text := htext
      rw [hsingle] at hreturn ⊢
      rw [hreadByLine.foldl_text hcomplete hreturn, hkeep]
      rfl
    · have hsplit : read.text ++ '\n' :: (entriesText rest).toList =
          read.text ++ ['\n'] ++ (entriesText rest).toList := by simp
      rw [toList_entriesText_cons entry hrest, htext, hsplit] at hreturn
      have hfront : ¬ ['\r', '\n'] <:+: read.text ++ ['\n'] :=
        fun hmem => hreturn (hmem.trans (List.prefix_append _ _).isInfix)
      have hbehind : ¬ ['\r', '\n'] <:+: (entriesText rest).toList :=
        fun hmem => hreturn (hmem.trans (List.suffix_append _ _).isInfix)
      rw [toList_entriesText_cons entry hrest, htext, hreadByLine.foldl_text_append hfront, hkeep,
        List.foldl_cons]
      exact ih (fun other hother => hstored other (List.mem_cons_of_mem entry hother)) hbehind _

/-- A text made of entries is read as these entries. -/
theorem parse_entriesText {entries : List (String × String)}
    (hstored : ∀ entry ∈ entries, IsStored entry)
    (hreturn : ¬ ['\r', '\n'] <:+: (entriesText entries).toList)
    (hnodup : (entries.map Prod.fst).Nodup) : (parse (entriesText entries)).entries = entries := by
  unfold parse
  rw [foldl_entriesText hstored hreturn]
  exact OrderedMap.entries_foldl_insert hnodup

/-- The text of entries without carriage returns has none. -/
theorem noReturn_entriesText {entries : List (String × String)}
    (hentries : ∀ entry ∈ entries, '\r' ∉ (entryText entry).toList) :
    '\r' ∉ (entriesText entries).toList := by
  induction entries with
  | nil => exact List.not_mem_nil
  | cons entry rest ih =>
    rw [List.forall_mem_cons] at hentries
    by_cases hrest : rest = []
    · subst hrest
      exact hentries.1
    · rw [toList_entriesText_cons entry hrest, List.mem_append, List.mem_cons, not_or, not_or]
      exact ⟨hentries.1, by decide, ih hentries.2⟩

/-- Without carriage returns there are none in front of a line feed. -/
theorem not_infix_of_noReturn {text : List Char} (htext : '\r' ∉ text) : ¬ ['\r', '\n'] <:+: text :=
  fun hmem => htext (hmem.subset List.mem_cons_self)

end TerraStack.Tfvars
