import Mathlib.Data.Set.Finite.Basic
import TerraStack.Proofs.Hcl.BlockText
import TerraStack.Proofs.Tfvars.LostReturns
import TerraStack.Proofs.Tfvars.Merge

namespace TerraStack.Tfvars

open Hcl (isWordOver)
open Text (lineChars)

namespace Reading

/-- To keep an entry loses no name. -/
theorem keys_subset_keep (reading : Reading) (entry : OpenEntry) :
    reading.entries.keys ⊆ (reading.keep entry).entries.keys := by
  unfold keep
  split
  · intro name hname
    exact OrderedMap.mem_keys_setEntry.mpr (.inr hname)
  · exact List.Subset.refl _

theorem keys_subset_addLine (reading : Reading) (line : List Char) :
    reading.entries.keys ⊆ (reading.addLine line).entries.keys := by
  unfold addLine
  split
  · exact keys_subset_keep reading _
  · split
    · exact keys_subset_keep reading _
    · exact List.Subset.refl _

/-- A line completes the same names with or without a carriage return at its end. -/
theorem mem_keys_addLine_concat_return {reading : Reading} {line : List Char} {name : String} :
    name ∈ (reading.addLine (line ++ ['\r'])).entries.keys ↔
      name ∈ (reading.addLine line).entries.keys := by
  have hblank : Text.isBlank '\r' = true := by decide
  have htrim := Text.trimChars_concat_of_blank hblank line
  have hdepth : bracketDepth (line ++ ['\r']) = bracketDepth line :=
    depthFrom_concat_of_blank hblank .code line
  cases hopen : reading.open? with
  | none => simp only [addLine, hopen, beginEntry?, htrim]
  | some entry =>
    have hcomplete : (entry.addLine (line ++ ['\r'])).isComplete = (entry.addLine line).isComplete := by
      unfold OpenEntry.addLine
      cases entry.marker with
      | none => simp only [OpenEntry.isComplete, hdepth]
      | some marker => simp only [htrim]; split <;> rfl
    simp only [addLine, hopen, keep, hcomplete, OpenEntry.name_addLine]
    split
    · exact OrderedMap.mem_keys_setEntry.trans OrderedMap.mem_keys_setEntry.symm
    · rfl

end Reading

/-- What is read of some lines, each of them with its end. -/
def endedReading (text : List Char) : Reading :=
  (lineChars (text ++ ['\n'])).foldl Reading.addLine ⟨∅, none⟩

/-- No name is read that is not read where the last line has ended too. -/
theorem keys_parse_subset (text : String) :
    (parse text).keys ⊆ (endedReading text.toList).entries.keys := by
  obtain ⟨before, last, hopen, hended⟩ := Text.exists_last_line text.toList
  unfold parse endedReading
  rw [hopen, hended, List.foldl_append, List.foldl_append, List.foldl_cons, List.foldl_nil]
  split
  · exact Reading.keys_subset_addLine _ _
  · intro name hname
    rcases Text.eq_or_eq_concat_return last with heq | heq
    · rw [heq]
      exact hname
    · rw [List.foldl_cons, List.foldl_nil, heq] at hname
      exact Reading.mem_keys_addLine_concat_return.mp hname

theorem toList_entriesText_append {entries more : List (String × String)} (hentries : entries ≠ [])
    (hmore : more ≠ []) : (entriesText (entries ++ more)).toList =
      (entriesText entries).toList ++ '\n' :: (entriesText more).toList := by
  induction entries with
  | nil => exact absurd rfl hentries
  | cons entry rest ih =>
    by_cases hrest : rest = []
    · subst hrest
      exact toList_entriesText_cons entry hmore
    · have hbehind : rest ++ more ≠ [] := by simp [hmore]
      rw [List.cons_append, toList_entriesText_cons entry hbehind, toList_entriesText_cons entry hrest,
        ih hrest, List.append_assoc, List.cons_append]

/-- Behind the same entries different texts stay different. -/
theorem entriesText_append_cancel {entries left right : List (String × String)}
    (htext : entriesText (entries ++ left) = entriesText (entries ++ right)) :
    entriesText left = entriesText right := by
  by_cases hentries : entries = []
  · subst hentries
    exact htext
  have htext := congrArg String.toList htext
  by_cases hleft : left = []
  · by_cases hright : right = []
    · rw [hleft, hright]
    · rw [hleft, List.append_nil, toList_entriesText_append hentries hright] at htext
      simp at htext
  · rw [toList_entriesText_append hentries hleft] at htext
    by_cases hright : right = []
    · rw [hright, List.append_nil] at htext
      simp at htext
    · rw [toList_entriesText_append hentries hright] at htext
      have hsame := List.append_cancel_left htext
      exact String.toList_inj.mp (List.cons.inj hsame).2

/-- What is read of the entries that a stack generates, each of their lines with its end. -/
def ownReading (stack : Stack) : Reading :=
  endedReading (entriesText (generatedEntries stack)).toList

/-- Whether reading what a stack generates leaves nothing open and gives no other names. -/
def keepsToItself (stack : Stack) : Bool :=
  (ownReading stack).open?.isNone && (ownReading stack).entries.keys.all (generated stack).contains

/-- Entries behind those of a stack are read on from what is read of these. -/
theorem parse_generated_append (stack : Stack) {kept : List (String × String)} (hkept : kept ≠ []) :
    parse (entriesText (generatedEntries stack ++ kept)) =
      ((lineChars (entriesText kept).toList).foldl Reading.addLine (ownReading stack)).entries := by
  unfold parse ownReading endedReading
  by_cases hgenerated : generatedEntries stack = []
  · rw [hgenerated]
    rfl
  · rw [toList_entriesText_append hgenerated hkept, Text.lineChars_append_cons_feed, List.foldl_append]

/-- Entries with new names all stay. -/
theorem filter_eq_self_of_new {names : List String} {entries : List (String × String)}
    (hnew : ∀ entry ∈ entries, entry.1 ∉ names) :
    entries.filter (fun entry => entry.1 ∉ names) = entries :=
  List.filter_eq_self.mpr fun entry hmem => decide_eq_true (hnew entry hmem)

theorem filter_eq_nil_of_old {names : List String} {entries : List (String × String)}
    (hold : entries.map Prod.fst ⊆ names) : entries.filter (fun entry => entry.1 ∉ names) = [] := by
  refine List.filter_eq_nil_iff.mpr fun entry hmem => ?_
  have hname := hold (List.mem_map_of_mem hmem)
  simpa using hname

/-- A stack keeps to itself if behind its own entries none is open, and none of them has been read
under another name. -/
theorem keepsToItself_iff {stack : Stack} : keepsToItself stack = true ↔
    (ownReading stack).open? = none ∧
      ∀ name ∈ (ownReading stack).entries.keys, name ∈ (generatedEntries stack).map Prod.fst := by
  unfold keepsToItself
  rw [Bool.and_eq_true, Option.isNone_iff_eq_none, List.all_eq_true]
  simp only [contains_generated_iff]

/-- Entries that can be read again are kept behind those of a stack that keeps to itself. -/
theorem keptEntries_entriesText {stack : Stack} (hstack : keepsToItself stack = true)
    {kept : List (String × String)} (hstored : ∀ entry ∈ kept, IsStored entry)
    (hreturn : ¬ ['\r', '\n'] <:+: (entriesText kept).toList) (hnodup : (kept.map Prod.fst).Nodup)
    (hnew : ∀ entry ∈ kept, entry.1 ∉ (generatedEntries stack).map Prod.fst) :
    keptEntries stack (entriesText (generatedEntries stack ++ kept)) = kept := by
  obtain ⟨hclosed, hown⟩ := keepsToItself_iff.mp hstack
  unfold keptEntries
  by_cases hnil : kept = []
  · subst hnil
    rw [List.append_nil]
    exact filter_eq_nil_of_old fun name hname => hown name (keys_parse_subset _ hname)
  · have hdistinct : (((ownReading stack).entries.entries ++ kept).map Prod.fst).Nodup :=
      nodup_append_of_new (ownReading stack).entries.distinct hnodup
        fun entry hmem hread => hnew entry hmem (hown entry.1 hread)
    have hreading : ownReading stack = ⟨(ownReading stack).entries, none⟩ := by rw [← hclosed]
    rw [parse_generated_append stack hnil, hreading, foldl_entriesText hstored hreturn,
      OrderedMap.entries_foldl_insert hdistinct, List.filter_append, filter_eq_nil_of_old hown,
      List.nil_append, filter_eq_self_of_new hnew]

/-- Where a carriage return stands in front of a line feed in what was kept, fewer carriage returns
are kept with the second rendering. -/
theorem count_return_keptEntries_lt {stack : Stack} (hstack : keepsToItself stack = true)
    {kept : List (String × String)} (hreturn : ['\r', '\n'] <:+: (entriesText kept).toList) :
    (entriesText (keptEntries stack (entriesText (generatedEntries stack ++ kept)))).toList.count '\r' <
      (entriesText kept).toList.count '\r' := by
  obtain ⟨hclosed, hown⟩ := keepsToItself_iff.mp hstack
  have hkept : kept ≠ [] := by
    rintro rfl
    exact absurd (List.eq_nil_of_infix_nil hreturn) (List.cons_ne_nil _ _)
  have hnothing : (ownReading stack).returnsBeside ((generatedEntries stack).map Prod.fst) = 0 := by
    rw [Reading.returnsBeside, hclosed, returnsBeside, filter_eq_nil_of_old hown]
    rfl
  have hread := (ownReading stack).returnsBeside_foldl_le ((generatedEntries stack).map Prod.fst)
    (lineChars (entriesText kept).toList)
  have hlost := Text.count_flatten_lineChars_lt hreturn
  rw [hnothing] at hread
  rw [count_return_entriesText, keptEntries, parse_generated_append stack hkept]
  have hentries := Nat.le_of_add_right_le hread
  unfold returnsBeside at hentries
  omega

/-- Without an existing text there is as much to keep as of an empty one. -/
theorem render_getD (stack : Stack) (existing : Option String) :
    render stack existing = render stack (some (existing.getD "")) := by
  cases existing <;> rfl

/-- Entries that were kept are the entries of their text, if that text is read as it is written. -/
theorem keptEntries_eq_of_text {stack : Stack} {text : String} {entries : List (String × String)}
    (hstored : ∀ entry ∈ entries, IsStored entry)
    (hreturn : ¬ ['\r', '\n'] <:+: (entriesText entries).toList) (hnodup : (entries.map Prod.fst).Nodup)
    (htext : entriesText (keptEntries stack text) = entriesText entries) :
    keptEntries stack text = entries := by
  have hkept : ∀ entry ∈ keptEntries stack text, IsStored entry := fun _ => isStored_of_mem_keptEntries
  have hread := parse_entriesText hkept (by rwa [htext]) (nodup_keptEntries stack text)
  rw [← hread, htext, parse_entriesText hstored hreturn hnodup]

/-- Whether a stack, rendered over a text from which it keeps entries without carriage returns, is
rendered to the same text again. -/
def RendersStably (stack : Stack) : Prop :=
  ∀ (existing : Option String) (text : String),
    (∀ entry ∈ keptEntries stack (existing.getD ""), '\r' ∉ (entryText entry).toList) →
    render stack existing = some text → render stack (some text) = some text

/-- A stack is rendered stably if exactly what was kept is kept again: the entries of the stack
stand in front of that either way. -/
theorem rendersStably_of_keptEntries {stack : Stack}
    (hkeeps : ∀ kept : List (String × String), (∀ entry ∈ kept, IsStored entry) →
      (∀ entry ∈ kept, '\r' ∉ (entryText entry).toList) → (kept.map Prod.fst).Nodup →
      (∀ entry ∈ kept, entry.1 ∉ (generatedEntries stack).map Prod.fst) →
      keptEntries stack (entriesText (generatedEntries stack ++ kept)) = kept) :
    RendersStably stack := by
  intro existing text hreturn hrender
  have hagain := hkeeps (keptEntries stack (existing.getD ""))
    (fun _ => isStored_of_mem_keptEntries) hreturn
    (nodup_keptEntries stack _) fun _ => new_of_mem_keptEntries
  rw [render_getD, render_eq] at hrender
  split at hrender
  · cases hrender
  · next hne =>
    obtain rfl := Option.some.inj hrender
    rw [render_eq, hagain, if_neg hne]

/-- A stack that keeps to itself is rendered to the same text again exactly if no carriage return
stands in front of a line feed in what it kept. -/
theorem render_again_iff {stack : Stack} (hstack : keepsToItself stack = true) {existing : Option String}
    {text : String} (hrender : render stack existing = some text) :
    render stack (some text) = some text ↔
      ¬ ['\r', '\n'] <:+: (entriesText (keptEntries stack (existing.getD ""))).toList := by
  rw [render_getD, render_eq] at hrender
  split at hrender
  · cases hrender
  · next hne =>
    obtain rfl := Option.some.inj hrender
    constructor
    · intro hagain hreturn
      rw [render_eq] at hagain
      split at hagain
      · cases hagain
      · have hsame := entriesText_append_cancel (Option.some.inj hagain)
        have hfewer := count_return_keptEntries_lt hstack hreturn
        rw [hsame] at hfewer
        exact absurd hfewer (Nat.lt_irrefl _)
    · intro hreturn
      have hagain := keptEntries_entriesText hstack
        (fun _ => isStored_of_mem_keptEntries) hreturn
        (nodup_keptEntries stack _) fun _ => new_of_mem_keptEntries
      rw [render_eq, hagain, if_neg hne]

/-- A word of some length. -/
def wordOfLength (length : Nat) : String :=
  .ofList (List.replicate length 'x')

theorem wordOfLength_injective : Function.Injective wordOfLength := by
  intro length other heq
  have hlength := congrArg List.length (String.ofList_injective heq)
  simpa using hlength

theorem isWordOver_wordOfLength (length : Nat) : isWordOver ['_', '-'] (wordOfLength length) = true := by
  refine List.all_eq_true.mpr fun c hc => ?_
  rw [wordOfLength, String.toList_ofList] at hc
  obtain rfl := List.eq_of_mem_replicate hc
  decide

/-- There is always a word that is not in use. -/
theorem exists_new_word (names : List String) :
    ∃ word, isWordOver ['_', '-'] word = true ∧ word ∉ names := by
  obtain ⟨_, ⟨length, rfl⟩, hnew⟩ :=
    (Set.infinite_range_of_injective wordOfLength_injective).exists_notMem_finset names.toFinset
  exact ⟨wordOfLength length, isWordOver_wordOfLength length,
    fun hmem => hnew (List.mem_toFinset.mpr hmem)⟩

/-- A word with a number is read as it is written. -/
theorem isStored_word {word : String} (hword : isWordOver ['_', '-'] word = true) :
    IsStored (word, "1") := by
  have hvalue : Hcl.IsWord "1".toList := Hcl.isWord_of_all (by decide) (by decide)
  have hstored := (isBalanced_of_isWord hvalue).isStored (isName_of_isWordOver hword)
  simpa using hstored

theorem noReturn_word {word : String} (hword : isWordOver ['_', '-'] word = true) :
    '\r' ∉ (entryText (word, "1")).toList := by
  have hreturn := (isLine_of_bare (isBare_of_isWordOver hword)).noReturn
  simpa [entryText] using hreturn

/-- Behind an entry that is open nothing is read under a new name. -/
theorem keys_addLine_of_open {reading : Reading} {entry : OpenEntry} (hopen : reading.open? = some entry)
    {line : List Char} {name : String} (hname : name ∈ (reading.addLine line).entries.keys) :
    name = .ofList entry.name ∨ name ∈ reading.entries.keys := by
  simp only [Reading.addLine, hopen, Reading.keep, OpenEntry.name_addLine] at hname
  split at hname
  · exact OrderedMap.mem_keys_setEntry.mp hname
  · exact .inr hname

section probe

variable {stack : Stack} {word : String} (hword : isWordOver ['_', '-'] word = true)
  (hkept : keptEntries stack (entriesText (generatedEntries stack ++ [(word, "1")])) = [(word, "1")])
include hword hkept

/-- Where a new word is kept behind the entries of a stack, none of them was open. -/
theorem open?_ownReading_eq_none (hread : word ∉ (ownReading stack).entries.keys)
    (hopen : ∀ entry, (ownReading stack).open? = some entry → word ≠ .ofList entry.name) :
    (ownReading stack).open? = none := by
  have hname := isName_of_isWordOver hword
  have htext : (entriesText [(word, "1")]).toList = (OpenEntry.begin word.toList ['1']).text := by
    simp [entriesText, Text.unlines, entryText, OpenEntry.text]
  have hne : (OpenEntry.begin word.toList ['1']).text ≠ [] := by simp [OpenEntry.text]
  have hlines : lineChars (entriesText [(word, "1")]).toList = [(entriesText [(word, "1")]).toList] := by
    rw [htext, Text.lineChars_of_not_mem (ReadByLine.noFeed_text_begin hname (by decide)), if_neg hne]
  have hmem : word ∈ (parse (entriesText (generatedEntries stack ++ [(word, "1")]))).keys := by
    have hentry := List.mem_singleton_self (word, "1")
    rw [← hkept] at hentry
    exact List.mem_map_of_mem (List.mem_filter.mp hentry).1
  rw [parse_generated_append stack (List.cons_ne_nil _ _), hlines, List.foldl_cons, List.foldl_nil]
    at hmem
  cases hentry : (ownReading stack).open? with
  | none => rfl
  | some entry =>
    rcases keys_addLine_of_open hentry hmem with heq | hold
    · exact absurd heq (hopen entry hentry)
    · exact absurd hold hread

/-- Where a new word is all that is kept behind the entries of a stack, the stack keeps to itself. -/
theorem keepsToItself_of_keptEntries (hread : word ∉ (ownReading stack).entries.keys)
    (hopen : ∀ entry, (ownReading stack).open? = some entry → word ≠ .ofList entry.name) :
    keepsToItself stack = true := by
  have hclosed := open?_ownReading_eq_none hword hkept hread hopen
  refine keepsToItself_iff.mpr ⟨hclosed, fun name hname => ?_⟩
  have hstored : ∀ entry ∈ [(word, "1")], IsStored entry := by
    simpa using isStored_word hword
  have hdistinct : (((ownReading stack).entries.entries ++ [(word, "1")]).map Prod.fst).Nodup :=
    nodup_append_of_new (ownReading stack).entries.distinct (List.nodup_singleton word)
      fun entry hmem => List.mem_singleton.mp hmem ▸ hread
  have hreading : ownReading stack = ⟨(ownReading stack).entries, none⟩ := by rw [← hclosed]
  have hreturn : '\r' ∉ (entriesText [(word, "1")]).toList := noReturn_word hword
  unfold keptEntries at hkept
  rw [parse_generated_append stack (List.cons_ne_nil _ _), hreading,
    foldl_entriesText hstored (not_infix_of_noReturn hreturn),
    OrderedMap.entries_foldl_insert hdistinct] at hkept
  obtain ⟨entry, hentry, rfl⟩ := List.mem_map.mp hname
  by_contra hforeign
  have hmem : entry ∈ ((ownReading stack).entries.entries ++ [(word, "1")]).filter
      (fun entry => entry.1 ∉ (generatedEntries stack).map Prod.fst) :=
    List.mem_filter.mpr ⟨List.mem_append_left _ hentry, decide_eq_true hforeign⟩
  rw [hkept] at hmem
  obtain rfl := List.mem_singleton.mp hmem
  exact hread hname

end probe

/-- A stack that is rendered stably keeps to itself, for a new word is kept then. -/
theorem RendersStably.keepsToItself {stack : Stack} (hstable : RendersStably stack) :
    keepsToItself stack = true := by
  obtain ⟨word, hword, hnew⟩ := exists_new_word ((generatedEntries stack).map Prod.fst ++
    (ownReading stack).entries.keys ++
    (ownReading stack).open?.toList.map fun entry => .ofList entry.name)
  rw [List.mem_append, List.mem_append, not_or, not_or] at hnew
  obtain ⟨⟨hgenerated, hread⟩, hopen⟩ := hnew
  have hstored : ∀ entry ∈ [(word, "1")], IsStored entry := by
    simpa using isStored_word hword
  have hnodup : ([(word, "1")].map Prod.fst).Nodup := List.nodup_singleton word
  have hplain : ¬ ['\r', '\n'] <:+: (entriesText [(word, "1")]).toList :=
    not_infix_of_noReturn (noReturn_word hword)
  have hold : keptEntries stack (entriesText [(word, "1")]) = [(word, "1")] := by
    unfold keptEntries
    rw [parse_entriesText hstored hplain hnodup]
    exact filter_eq_self_of_new fun entry hmem => List.mem_singleton.mp hmem ▸ hgenerated
  have hreturn : ∀ entry ∈ keptEntries stack (entriesText [(word, "1")]),
      '\r' ∉ (entryText entry).toList := by
    rw [hold]
    exact fun entry hmem => List.mem_singleton.mp hmem ▸ noReturn_word hword
  have hrender : render stack (some (entriesText [(word, "1")])) =
      some (entriesText (generatedEntries stack ++ [(word, "1")])) := by
    rw [render_eq, hold, if_neg (by simp)]
  have hagain := hstable (some (entriesText [(word, "1")])) _ hreturn hrender
  rw [render_eq] at hagain
  split at hagain
  · cases hagain
  · have hsame := entriesText_append_cancel (Option.some.inj hagain)
    have hkept := keptEntries_eq_of_text hstored hplain hnodup hsame
    refine keepsToItself_of_keptEntries hword hkept hread fun entry hentry heq => hopen ?_
    rw [hentry]
    exact List.mem_singleton.mpr heq

/-- A stack whose names are words and whose values are plain is rendered stably: its own entries are
read as they are written, and what was kept behind them is read after that. -/
theorem rendersStably_of_generatesPlainly {stack : Stack} (hplain : generatesPlainly stack = true) :
    RendersStably stack := by
  refine rendersStably_of_keptEntries fun kept hstored hreturn hnodup hnew => ?_
  have hkept : ∀ entry ∈ kept, IsStored entry ∧ '\r' ∉ (entryText entry).toList :=
    fun entry hmem => ⟨hstored entry hmem, hreturn entry hmem⟩
  unfold keptEntries
  rw [(entries_parse_generated_append hplain hkept hnodup hnew).1, List.filter_append,
    filter_eq_nil_of_old (List.Subset.refl _), List.nil_append, filter_eq_self_of_new hnew]

/-- A stack is rendered over the text that it was rendered to as that text, whatever was kept
without carriage returns, exactly if it keeps to itself. What it kept may have carriage returns
then, but none of them in front of a line feed: with one there, the text is another one. A stack
whose names are words and whose values are plain keeps to itself. -/
theorem render_idempotent_iff (stack : Stack) :
    (keepsToItself stack = true ↔ ∀ (existing : Option String) (text : String),
      (∀ entry ∈ keptEntries stack (existing.getD ""), '\r' ∉ (entryText entry).toList) →
      render stack existing = some text → render stack (some text) = some text) ∧
    (keepsToItself stack = true → ∀ (existing : Option String) (text : String),
      render stack existing = some text →
      (render stack (some text) = some text ↔
        ¬ ['\r', '\n'] <:+: (entriesText (keptEntries stack (existing.getD ""))).toList)) ∧
    (generatesPlainly stack = true → keepsToItself stack = true) := by
  refine ⟨⟨fun hstack existing text hreturn hrender => ?_, RendersStably.keepsToItself⟩,
    fun hstack existing text => render_again_iff hstack,
    fun hplain => (rendersStably_of_generatesPlainly hplain).keepsToItself⟩
  have htext := noReturn_entriesText hreturn
  exact (render_again_iff hstack hrender).mpr (not_infix_of_noReturn htext)

/-- A stack whose drives end with a backslash. -/
def drivesStack : Stack where
  declared := .ofList [("drives", {})]
  topLevel := .ofList [("drives", .list [.string "C:\\", .string "D:\\"])]

/-- The names are words and no string has a quote, but the backslash hides the quote behind it. So
the bracket is not closed for the reader, and the password behind it is lost with the second
rendering. -/
theorem drivesStack_loses_password :
    (∀ entry ∈ drivesStack.topLevel.entries, entry.1 ≠ "" ∧ isWordOver ['_', '-'] entry.1 = true ∧
      ∀ text ∈ entry.2.texts, '"' ∉ text.toList) ∧
    render drivesStack (some "password = \"hunter2\"\n") =
      some "drives = [\"C:\\\", \"D:\\\"]\npassword = \"hunter2\"" ∧
    render drivesStack (some "drives = [\"C:\\\", \"D:\\\"]\npassword = \"hunter2\"") =
      some "drives = [\"C:\\\", \"D:\\\"]" := by
  refine ⟨?_, by decide, by decide⟩
  simp only [drivesStack]
  decide

end TerraStack.Tfvars
