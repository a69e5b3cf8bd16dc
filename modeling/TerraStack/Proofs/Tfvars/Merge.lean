import TerraStack.Proofs.Tfvars.Literal

namespace TerraStack.Tfvars

open Hcl (isWordOver)

/-- Whether what a stack generates can be read again: names are words that are not empty, and values
are plain. -/
def generatesPlainly (stack : Stack) : Bool :=
  (generated stack).entries.all fun (name, value) =>
    name ≠ "" && isWordOver ['_', '-'] name && value.isPlain

/-- The text behind a merge. A stack for which there is nothing to write leaves it as it is. -/
def mergeInto (text : String) (stack : Stack) : String :=
  (render stack (some text)).getD text

/-- The text that a stack gives a name, if it generates an entry with that name. -/
def generatedText? (name : String) (stack : Stack) : Option String :=
  (generatedEntries stack).lookup name

/-- Names that are words are bare. -/
theorem isBare_of_isWordOver {name : String} (hname : isWordOver ['_', '-'] name = true) :
    Hcl.IsBare name.toList :=
  Hcl.isBare_of_word fun _ => Hcl.isWordChar_of_isWordOver (by decide) hname

/-- Words can be the names of entries. -/
theorem isName_of_isWordOver {name : String} (hname : isWordOver ['_', '-'] name = true) :
    IsName name.toList :=
  isName_of_bare (isBare_of_isWordOver hname)

theorem keys_generatedEntries (stack : Stack) :
    (generatedEntries stack).map Prod.fst = (generated stack).keys := by
  simp [generatedEntries, OrderedMap.keys, Function.comp_def]

/-- A stack gives a name a value exactly if it generates an entry for it. -/
theorem contains_generated_iff {stack : Stack} {name : String} :
    (generated stack).contains name = true ↔ name ∈ (generatedEntries stack).map Prod.fst := by
  rw [keys_generatedEntries, OrderedMap.mem_keys_iff, OrderedMap.contains, Option.isSome_iff_exists]

/-- What a stack generates plainly is read as it is written. -/
theorem isStored_of_mem_generatedEntries {stack : Stack} (hstack : generatesPlainly stack = true)
    {entry : String × String} (hmem : entry ∈ generatedEntries stack) : IsStored entry := by
  obtain ⟨⟨name, value⟩, hgenerated, rfl⟩ := List.mem_map.mp hmem
  have hplain := List.all_eq_true.mp hstack _ hgenerated
  simp only [Bool.and_eq_true] at hplain
  have hstored := (isBalanced_format hplain.2).isStored (isName_of_isWordOver hplain.1.2)
  simpa using hstored

/-- No carriage return is written for what a stack generates plainly. -/
theorem noReturn_of_mem_generatedEntries {stack : Stack} (hstack : generatesPlainly stack = true)
    {entry : String × String} (hmem : entry ∈ generatedEntries stack) :
    '\r' ∉ (entryText entry).toList := by
  obtain ⟨⟨name, value⟩, hgenerated, rfl⟩ := List.mem_map.mp hmem
  have hplain := List.all_eq_true.mp hstack _ hgenerated
  simp only [Bool.and_eq_true] at hplain
  have hname := (isLine_of_bare (isBare_of_isWordOver hplain.1.2)).noReturn
  have hvalue := (isBalanced_format hplain.2).noReturn
  simpa [entryText, hname] using hvalue

/-- The entries of a text whose names a stack does not generate. -/
def keptEntries (stack : Stack) (text : String) : List (String × String) :=
  (parse text).entries.filter fun entry => entry.1 ∉ (generatedEntries stack).map Prod.fst

theorem mergedEntries_eq (stack : Stack) (text : String) :
    mergedEntries stack (some text) = generatedEntries stack ++ keptEntries stack text := by
  unfold mergedEntries keptEntries
  refine congrArg (generatedEntries stack ++ ·) (List.filter_congr fun entry _ => ?_)
  rw [Bool.eq_iff_iff, Bool.not_eq_true', ← Bool.not_eq_true, contains_generated_iff, decide_eq_true_iff]

theorem nodup_generatedEntries (stack : Stack) : ((generatedEntries stack).map Prod.fst).Nodup := by
  rw [keys_generatedEntries]
  exact (generated stack).distinct

theorem nodup_keptEntries (stack : Stack) (text : String) :
    ((keptEntries stack text).map Prod.fst).Nodup :=
  (List.filter_sublist.map Prod.fst).nodup (parse text).distinct

/-- What is kept has no name that the stack gives. -/
theorem new_of_mem_keptEntries {stack : Stack} {text : String} {entry : String × String}
    (hmem : entry ∈ keptEntries stack text) : entry.1 ∉ (generatedEntries stack).map Prod.fst :=
  of_decide_eq_true (List.mem_filter.mp hmem).2

/-- What is kept can be kept again: it is read as it is written. -/
theorem isStored_of_mem_keptEntries {stack : Stack} {text : String} {entry : String × String}
    (hmem : entry ∈ keptEntries stack text) : IsStored entry :=
  isStored_of_mem_parse (List.mem_filter.mp hmem).1

/-- Names stay distinct where entries with new names are added. -/
theorem nodup_append_of_new {entries more : List (String × String)}
    (hentries : (entries.map Prod.fst).Nodup) (hmore : (more.map Prod.fst).Nodup)
    (hnew : ∀ entry ∈ more, entry.1 ∉ entries.map Prod.fst) :
    ((entries ++ more).map Prod.fst).Nodup := by
  rw [List.map_append, List.nodup_append]
  refine ⟨hentries, hmore, ?_⟩
  rintro name hname other hother rfl
  obtain ⟨entry, hentry, rfl⟩ := List.mem_map.mp hother
  exact hnew entry hentry hname

/-- What a stack generates plainly and what is kept behind it is read as it is written. -/
theorem entries_parse_generated_append {stack : Stack} (hstack : generatesPlainly stack = true)
    {kept : List (String × String)}
    (hkept : ∀ entry ∈ kept, IsStored entry ∧ '\r' ∉ (entryText entry).toList)
    (hnodup : (kept.map Prod.fst).Nodup)
    (hnew : ∀ entry ∈ kept, entry.1 ∉ (generatedEntries stack).map Prod.fst) :
    (parse (entriesText (generatedEntries stack ++ kept))).entries = generatedEntries stack ++ kept ∧
      '\r' ∉ (entriesText (generatedEntries stack ++ kept)).toList := by
  have hall : ∀ entry ∈ generatedEntries stack ++ kept,
      IsStored entry ∧ '\r' ∉ (entryText entry).toList := by
    intro entry hmem
    rcases List.mem_append.mp hmem with hgenerated | hbehind
    · exact ⟨isStored_of_mem_generatedEntries hstack hgenerated,
        noReturn_of_mem_generatedEntries hstack hgenerated⟩
    · exact hkept entry hbehind
  have hstored : ∀ entry ∈ generatedEntries stack ++ kept, IsStored entry :=
    fun entry hmem => (hall entry hmem).1
  have hreturn : '\r' ∉ (entriesText (generatedEntries stack ++ kept)).toList :=
    noReturn_entriesText fun entry hmem => (hall entry hmem).2
  have hdistinct := nodup_append_of_new (nodup_generatedEntries stack) hnodup hnew
  exact ⟨parse_entriesText hstored (not_infix_of_noReturn hreturn) hdistinct, hreturn⟩

theorem render_eq (stack : Stack) (text : String) :
    render stack (some text) =
      if generatedEntries stack ++ keptEntries stack text = [] then none
      else some (entriesText (generatedEntries stack ++ keptEntries stack text)) := by
  unfold render
  rw [mergedEntries_eq]
  split
  · next hnil => rw [if_pos hnil]
  · next hne => rw [if_neg hne]; rfl

section text

variable {text : String} (htext : '\r' ∉ text.toList)
include htext

/-- A rendered text is read as what was merged. -/
theorem entries_parse_of_render {stack : Stack} (hstack : generatesPlainly stack = true) {new : String}
    (hrender : render stack (some text) = some new) :
    (parse new).entries = generatedEntries stack ++ keptEntries stack text ∧ '\r' ∉ new.toList := by
  have hkept : ∀ entry ∈ keptEntries stack text,
      IsStored entry ∧ '\r' ∉ (entryText entry).toList := fun _ hmem =>
    ⟨isStored_of_mem_keptEntries hmem, noReturn_of_mem_parse htext (List.mem_filter.mp hmem).1⟩
  rw [render_eq] at hrender
  split at hrender
  · cases hrender
  · obtain rfl := Option.some.inj hrender
    exact entries_parse_generated_append hstack hkept (nodup_keptEntries stack text)
      fun _ => new_of_mem_keptEntries

omit htext in
/-- There is nothing to write exactly if there is nothing to be read either. -/
theorem merged_eq_nil_of_render {stack : Stack} (hrender : render stack (some text) = none) :
    generatedEntries stack ++ keptEntries stack text = [] ∧ (parse text).entries = [] := by
  rw [render_eq] at hrender
  split at hrender
  · next hnil =>
    obtain ⟨hgenerated, hkept⟩ := List.append_eq_nil_iff.mp hnil
    refine ⟨hnil, ?_⟩
    rwa [keptEntries, hgenerated, List.map_nil, List.filter_eq_self.mpr fun _ _ => by simp] at hkept
  · cases hrender

/-- What is read of the text that a stack is rendered to. Where it is rendered to none, nothing is
read of the empty text. -/
theorem entries_parse_render {stack : Stack} (hstack : generatesPlainly stack = true) :
    (parse ((render stack (some text)).getD "")).entries =
      generatedEntries stack ++ keptEntries stack text := by
  cases hrender : render stack (some text) with
  | none => exact (merged_eq_nil_of_render hrender).1.symm
  | some new => exact (entries_parse_of_render htext hstack hrender).1

theorem entries_parse_mergeInto {stack : Stack} (hstack : generatesPlainly stack = true) :
    (parse (mergeInto text stack)).entries = generatedEntries stack ++ keptEntries stack text ∧
      '\r' ∉ (mergeInto text stack).toList := by
  unfold mergeInto
  cases hrender : render stack (some text) with
  | none =>
    obtain ⟨hmerged, hread⟩ := merged_eq_nil_of_render hrender
    exact ⟨hread.trans hmerged.symm, htext⟩
  | some new => exact entries_parse_of_render htext hstack hrender

omit htext in
/-- A name that the stack does not give has among what is kept what it has in the text. -/
theorem lookup_keptEntries {stack : Stack} {name : String}
    (hname : name ∉ (generatedEntries stack).map Prod.fst) :
    (keptEntries stack text).lookup name = (parse text).find? name := by
  have hkept : (keptEntries stack text).lookup name =
      ((parse text).filter fun name _ => name ∉ (generatedEntries stack).map Prod.fst).find? name := rfl
  rw [hkept]
  refine Option.ext fun value => ?_
  rw [OrderedMap.find?_filter]
  exact and_iff_left (decide_eq_true hname)

/-- A merge changes what the stack generates and nothing else. -/
theorem find?_mergeInto {stack : Stack} (hstack : generatesPlainly stack = true) (name : String) :
    (parse (mergeInto text stack)).find? name =
      (generatedText? name stack <|> (parse text).find? name) := by
  rw [OrderedMap.find?, (entries_parse_mergeInto htext hstack).1, List.lookup_append]
  unfold generatedText?
  cases hfound : (generatedEntries stack).lookup name with
  | some value => rfl
  | none =>
    have hname : name ∉ (generatedEntries stack).map Prod.fst := fun hmem => by
      obtain ⟨entry, hentry, rfl⟩ := List.mem_map.mp hmem
      simpa using List.lookup_eq_none_iff.mp hfound entry hentry
    exact lookup_keptEntries hname

/-- Behind a row of merges a name has the text of the last stack that generated it, and its old text
if none did. -/
theorem find?_foldl_mergeInto {history : List Stack}
    (hplain : ∀ stack ∈ history, generatesPlainly stack = true) (name : String) :
    (parse (history.foldl mergeInto text)).find? name =
      (history.reverse.findSome? (generatedText? name) <|> (parse text).find? name) := by
  induction history generalizing text with
  | nil => rfl
  | cons stack rest ih =>
    have hstack := hplain stack List.mem_cons_self
    have hrest := ih (entries_parse_mergeInto htext hstack).2
      fun other hother => hplain other (List.mem_cons_of_mem stack hother)
    rw [List.foldl_cons, hrest, find?_mergeInto htext hstack, List.reverse_cons,
      List.findSome?_append]
    simp [Option.or_assoc]

/-- What is read of a merged text is what the stack generates and behind it, as it was, what the
text had under other names. Over a row of merges every name has its text from the last stack that
generated it, or else its old one, for what is kept can be kept again. -/
theorem merge_keeps_entries {history : List Stack}
    (hplain : ∀ stack ∈ history, generatesPlainly stack = true) :
    (∀ stack ∈ history,
      (parse ((render stack (some text)).getD "")).entries = generatedEntries stack ++
        (parse text).entries.filter (fun entry => entry.1 ∉ (generatedEntries stack).map Prod.fst) ∧
      (parse ((render stack (some text)).getD "")).keys.Nodup) ∧
    ∀ name, (parse (history.foldl mergeInto text)).find? name =
      (history.reverse.findSome? (generatedText? name) <|> (parse text).find? name) :=
  ⟨fun stack hstack => ⟨entries_parse_render htext (hplain stack hstack), OrderedMap.distinct _⟩,
    find?_foldl_mergeInto htext hplain⟩

end text

/-- A text with a comment, a line that is no entry, a heredoc and a map over several lines. -/
def handwritten : String :=
  "# by hand\nregion = \"us-east-1\"\npolicy = <<EOF\n  \x7d\nEOF\njunk\nlabels = \x7b\n  # none\n\x7d\n"

/-- A stack with labels over several lines. -/
def labelledStack : Stack where
  declared := .ofList [("labels", {})]
  topLevel := .ofList [("region", .string "eu-west-1"),
    ("labels", .map [("team", .string "core"), ("zones", .list [.string "a # b", .map []])])]

/-- A stack that says nothing of labels. -/
def regionalStack : Stack where
  topLevel := .ofList [("region", .string "var.home")]

/-- The policy outlives both merges, the labels outlive the second one. -/
theorem handwritten_outlives : '\r' ∉ handwritten.toList ∧
    (∀ stack ∈ [labelledStack, regionalStack], generatesPlainly stack = true) ∧
    let merged := parse ([labelledStack, regionalStack].foldl mergeInto handwritten)
    merged.find? "policy" = some "<<EOF\n  \x7d\nEOF" ∧
      merged.find? "labels" =
        some "\x7b\n  team = \"core\"\n  zones = [\"a # b\", \x7b\n  \n\x7d]\n\x7d" ∧
      merged.find? "region" = some "var.home" := by
  have htext : '\r' ∉ handwritten.toList := by decide
  have hplain : ∀ stack ∈ [labelledStack, regionalStack], generatesPlainly stack = true := by decide
  have hnames := (merge_keeps_entries htext hplain).2
  refine ⟨htext, hplain, ?_, ?_, ?_⟩
  · exact (hnames "policy").trans (by decide)
  · exact (hnames "labels").trans (by decide)
  · exact (hnames "region").trans (by decide)

end TerraStack.Tfvars
