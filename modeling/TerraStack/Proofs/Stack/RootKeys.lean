import Mathlib.Data.List.Nodup
import TerraStack.Stack

namespace TerraStack.Stack

open Hcl (Value)

variable {fields : List (String × Yaml.Node)} {field : String × Yaml.Node} {stack : Stack}
  {name : String} {node : Yaml.Node}

/-- The root mapping with some strings as its keys. -/
def stringKeyed (fields : List (String × Yaml.Node)) : List (Yaml.Node × Yaml.Node) :=
  fields.map fun field => (.string field.1, field.2)

/-- Whether a field of a root names a section with a meaning of its own. -/
def isReserved (field : String × Yaml.Node) : Bool :=
  field.1 ∈ reservedSections

/-- Whether a field of a root configures a provider. -/
def isSection (field : String × Yaml.Node) : Bool :=
  !isReserved field && (Text.endsWith providerEnding field.1 && field.2.isMapping)

/-- Whether a field of a root gives a value. -/
def isValue (field : String × Yaml.Node) : Bool :=
  !isReserved field && !(Text.endsWith providerEnding field.1 && field.2.isMapping)

theorem isReserved_iff : isReserved field = true ↔ field.1 ∈ reservedSections := by
  simp [isReserved]

/-- A section for a provider is told by its ending, and has to be a mapping. -/
theorem isSection_iff : isSection field = true ↔ field.1 ∉ reservedSections ∧
    Text.endsWith providerEnding field.1 = true ∧ field.2.isMapping = true := by
  simp [isSection, ← isReserved_iff]

/-- All else gives a value, also what has the ending and is no mapping. -/
theorem isValue_iff : isValue field = true ↔ field.1 ∉ reservedSections ∧
    (Text.endsWith providerEnding field.1 = true → field.2.isMapping = false) := by
  simp only [isValue, ← isReserved_iff, Bool.and_eq_true, Bool.not_eq_true']
  cases Text.endsWith providerEnding field.1 <;> simp

/-- How a field of a root is read. -/
inductive Reads (field : String × Yaml.Node) : RootEntry → Prop where
  | reserved (hreserved : isReserved field = true) : Reads field .reserved
  | provider {owner : String} (hname : field.1 = owner ++ providerEnding)
    (hsection : isSection field = true) :
    Reads field (.provider owner (Hcl.settings (some field.2)))
  | value (hvalue : isValue field = true) : Reads field (.value field.1 (.ofNode field.2))

/-- Every field is read in one of these ways. -/
theorem reads_ofEntry (field : String × Yaml.Node) :
    Reads field (RootEntry.ofEntry (.string field.1) field.2) := by
  have hname : Hcl.keyText (.string field.1) = field.1 := rfl
  unfold RootEntry.ofEntry
  dsimp only
  rw [hname]
  split
  · next hreserved => exact .reserved (isReserved_iff.mpr (by simpa using hreserved))
  · next hfree =>
    have hfree : field.1 ∉ reservedSections := by simpa using hfree
    split
    · next owner howner =>
      have hname := Text.beforeEnd?_eq_some_iff.mp howner
      split
      · next hmapping =>
        have hends := Text.endsWith_iff.mpr ⟨owner, hname⟩
        exact .provider hname (isSection_iff.mpr ⟨hfree, hends, hmapping⟩)
      · next hother => exact .value (isValue_iff.mpr ⟨hfree, fun _ => by simpa using hother⟩)
    · next hnone =>
      refine .value (isValue_iff.mpr ⟨hfree, fun hends => ?_⟩)
      rw [Text.endsWith, hnone] at hends
      cases hends

/-- The provider that an entry configures, and its settings. -/
def RootEntry.provider? : RootEntry → Option (String × OrderedMap String Value)
  | .provider name settings => some (name, settings)
  | .reserved | .value _ _ => none

/-- The name for which an entry gives a value, and the value. -/
def RootEntry.value? : RootEntry → Option (String × Value)
  | .value name given => some (name, given)
  | .reserved | .provider _ _ => none

/-- With its ending, the name of a provider is the key that configures it. -/
theorem section_of_ofEntry (field : String × Yaml.Node) :
    ((RootEntry.ofEntry (.string field.1) field.2).provider?.map fun entry =>
        (entry.1 ++ providerEnding, entry.2)) =
      if isSection field = true then some (field.1, Hcl.settings (some field.2)) else none := by
  have hreads := reads_ofEntry field
  generalize RootEntry.ofEntry (.string field.1) field.2 = entry at hreads
  cases hreads with
  | reserved hreserved => simp [RootEntry.provider?, isSection, hreserved]
  | provider hname hsection => simp [RootEntry.provider?, hsection, ← hname]
  | value hvalue =>
    have hsection : isSection field = false := by
      simp only [isValue, Bool.and_eq_true, Bool.not_eq_true'] at hvalue
      simp [isSection, hvalue.2]
    simp [RootEntry.provider?, hsection]

/-- The entry for a field gives a value exactly if the field does. -/
theorem value_of_ofEntry (field : String × Yaml.Node) :
    (RootEntry.ofEntry (.string field.1) field.2).value? =
      if isValue field = true then some (field.1, .ofNode field.2) else none := by
  have hreads := reads_ofEntry field
  generalize RootEntry.ofEntry (.string field.1) field.2 = entry at hreads
  cases hreads with
  | reserved hreserved => simp [RootEntry.value?, isValue, hreserved]
  | provider hname hsection =>
    have hvalue : isValue field = false := by
      simp only [isSection, Bool.and_eq_true] at hsection
      simp [isValue, hsection.2]
    simp [RootEntry.value?, hvalue]
  | value hvalue => simp [RootEntry.value?, hvalue]

/-- The entries that are selected for a map of the stack go into it one after another. -/
theorem mapOf_foldl_addRootEntry {α : Type} {mapOf : Stack → OrderedMap String α}
    {select? : RootEntry → Option (String × α)}
    (hstep : ∀ stack entry, mapOf (addRootEntry stack entry) =
      (select? entry).elim (mapOf stack) fun selected => (mapOf stack).insert selected.1 selected.2)
    (entries : List RootEntry) (stack : Stack) :
    mapOf (entries.foldl addRootEntry stack) =
      (entries.filterMap select?).foldl (fun map entry => map.insert entry.1 entry.2)
        (mapOf stack) := by
  induction entries generalizing stack with
  | nil => rfl
  | cons entry rest ih =>
    rw [List.foldl_cons, ih, hstep, List.filterMap_cons]
    cases select? entry with
    | none => rfl
    | some selected => rfl

/-- An entry changes the sections for providers only if it is one. -/
theorem providerConfigs_addRootEntry (stack : Stack) (entry : RootEntry) :
    (addRootEntry stack entry).providerConfigs =
      entry.provider?.elim stack.providerConfigs
        fun selected => stack.providerConfigs.insert selected.1 selected.2 := by
  cases entry with
  | reserved => rfl
  | provider name settings => rfl
  | value name value => rfl

theorem topLevel_addRootEntry (stack : Stack) (entry : RootEntry) :
    (addRootEntry stack entry).topLevel =
      entry.value?.elim stack.topLevel
        fun selected => stack.topLevel.insert selected.1 selected.2 := by
  cases entry with
  | reserved => rfl
  | provider name settings => rfl
  | value name value => rfl

/-- The sections for providers are those among the fields, in their order. -/
theorem providerConfigs_ofRoot (fields : List (String × Yaml.Node)) :
    (ofRoot (stringKeyed fields)).providerConfigs =
      .ofList (fields.filterMap fun field =>
        (RootEntry.ofEntry (.string field.1) field.2).provider?) := by
  unfold ofRoot stringKeyed
  rw [mapOf_foldl_addRootEntry providerConfigs_addRootEntry, List.map_map, List.filterMap_map]
  rfl

/-- The values are those among the fields, in their order. -/
theorem topLevel_ofRoot (fields : List (String × Yaml.Node)) :
    (ofRoot (stringKeyed fields)).topLevel =
      .ofList (fields.filterMap fun field =>
        (RootEntry.ofEntry (.string field.1) field.2).value?) := by
  unfold ofRoot stringKeyed
  rw [mapOf_foldl_addRootEntry topLevel_addRootEntry, List.map_map, List.filterMap_map]
  rfl

/-- Fields with distinct names are distinct by name also where only some of them count. -/
theorem nodup_names_filter (keep : String × Yaml.Node → Bool)
    (hdistinct : (fields.map Prod.fst).Nodup) : ((fields.filter keep).map Prod.fst).Nodup :=
  hdistinct.sublist (List.filter_sublist.map Prod.fst)

/-- The sections for providers, each under the key that it has in the file. -/
def sections (stack : Stack) : List (String × OrderedMap String Value) :=
  stack.providerConfigs.entries.map fun entry => (entry.1 ++ providerEnding, entry.2)

/-- A section stands under the key that names its provider and has the ending. -/
theorem mem_sections_iff {owner : String} {settings : OrderedMap String Value} :
    (owner ++ providerEnding, settings) ∈ stack.sections ↔
      stack.providerConfigs.find? owner = some settings := by
  unfold sections
  rw [OrderedMap.find?_eq_some_iff, List.mem_map]
  constructor
  · rintro ⟨⟨other, _⟩, hentry, heq⟩
    obtain ⟨hname, rfl⟩ := Prod.mk.inj heq
    exact (String.append_left_inj providerEnding).mp hname ▸ hentry
  · intro hentry
    exact ⟨_, hentry, rfl⟩

/-- No section takes the place of another. The keys differ, and so do the names that are left of
them when the one ending is cut off. -/
theorem sections_ofRoot (hdistinct : (fields.map Prod.fst).Nodup) :
    (ofRoot (stringKeyed fields)).sections =
      (fields.filter isSection).map fun field => (field.1, Hcl.settings (some field.2)) := by
  let named := fields.filterMap fun field =>
    (RootEntry.ofEntry (.string field.1) field.2).provider?
  have hnamed : named.map (fun entry => (entry.1 ++ providerEnding, entry.2)) =
      (fields.filter isSection).map fun field => (field.1, Hcl.settings (some field.2)) := by
    rw [List.map_filterMap, ← List.filterMap_eq_map', List.filterMap_filter]
    exact List.filterMap_congr fun field _ => section_of_ofEntry field
  have hkeys : (named.map Prod.fst).map (· ++ providerEnding) =
      (fields.filter isSection).map Prod.fst := by
    have hfirst := congrArg (List.map Prod.fst) hnamed
    rw [List.map_map, List.map_map] at hfirst
    rw [List.map_map]
    exact hfirst
  have hnodup : (named.map Prod.fst).Nodup := by
    refine List.Nodup.of_map (· ++ providerEnding) ?_
    rw [hkeys]
    exact nodup_names_filter isSection hdistinct
  unfold sections
  rw [providerConfigs_ofRoot, OrderedMap.entries_ofList hnodup, hnamed]

/-- Fields with distinct names have their values in the order of the root. -/
theorem entries_topLevel_ofRoot (hdistinct : (fields.map Prod.fst).Nodup) :
    (ofRoot (stringKeyed fields)).topLevel.entries =
      (fields.filter isValue).map fun field => (field.1, .ofNode field.2) := by
  have hvalues : (fields.filterMap fun field =>
      (RootEntry.ofEntry (.string field.1) field.2).value?) =
        (fields.filter isValue).map fun field => (field.1, .ofNode field.2) := by
    rw [← List.filterMap_eq_map', List.filterMap_filter]
    exact List.filterMap_congr fun field _ => value_of_ofEntry field
  have hnodup : (((fields.filter isValue).map fun field =>
      (field.1, Value.ofNode field.2)).map Prod.fst).Nodup := by
    rw [List.map_map]
    exact nodup_names_filter isValue hdistinct
  rw [topLevel_ofRoot, hvalues, OrderedMap.entries_ofList hnodup]

/-- The value of a key at the root is kept in one place, and nowhere else. -/
inductive IsStoredOnce (stack : Stack) (name : String) (node : Yaml.Node) : Prop where
  | reserved (hreserved : name ∈ reservedSections)
    (hnoSection : name ∉ stack.sections.map Prod.fst) (hnoValue : name ∉ stack.topLevel.keys)
  | provider (owner : String) (hfree : name ∉ reservedSections)
    (hname : name = owner ++ providerEnding) (hmapping : node.isMapping = true)
    (hsection : stack.providerConfigs.find? owner = some (Hcl.settings (some node)))
    (hnoValue : name ∉ stack.topLevel.keys)
  | value (hfree : name ∉ reservedSections)
    (hother : ∀ owner, name = owner ++ providerEnding → node.isMapping = false)
    (hvalue : stack.topLevel.find? name = some (.ofNode node))
    (hnoSection : name ∉ stack.sections.map Prod.fst)

/-- The keys of a root are divided between the sections with a meaning of their own, the sections
for providers and the values. The order is that of the root, and nothing is lost or made up. -/
structure Partitions (fields : List (String × Yaml.Node)) (stack : Stack) : Prop where
  stored_once : ∀ field ∈ fields, IsStoredOnce stack field.1 field.2
  sections_eq : stack.sections =
    (fields.filter isSection).map fun field => (field.1, Hcl.settings (some field.2))
  values_eq : stack.topLevel.entries =
    (fields.filter isValue).map fun field => (field.1, .ofNode field.2)
  count_eq : fields.countP isReserved + stack.providerConfigs.keys.length +
    stack.topLevel.keys.length = fields.length

/-- A field is found by its name where fields of its kind are, and only there. -/
theorem name_mem_filter_iff {keep : String × Yaml.Node → Bool}
    (hdistinct : (fields.map Prod.fst).Nodup) (hfield : field ∈ fields) :
    field.1 ∈ (fields.filter keep).map Prod.fst ↔ keep field = true := by
  constructor
  · intro hmem
    obtain ⟨other, hother, hname⟩ := List.mem_map.mp hmem
    obtain ⟨hotherMem, hkeep⟩ := List.mem_filter.mp hother
    exact List.inj_on_of_nodup_map hdistinct hotherMem hfield hname ▸ hkeep
  · intro hkeep
    exact List.mem_map_of_mem (List.mem_filter.mpr ⟨hfield, hkeep⟩)

/-- Each field is of exactly one of the three kinds. -/
theorem countP_add_countP_add_countP (fields : List (String × Yaml.Node)) :
    fields.countP isReserved + fields.countP isSection + fields.countP isValue = fields.length := by
  induction fields with
  | nil => rfl
  | cons field rest ih =>
    have hone : (if isReserved field = true then 1 else 0) +
        (if isSection field = true then 1 else 0) + (if isValue field = true then 1 else 0) = 1 := by
      unfold isSection isValue
      generalize (Text.endsWith providerEnding field.1 && field.2.isMapping) = configures
      cases isReserved field <;> cases configures <;> rfl
    simp only [List.countP_cons, List.length_cons]
    omega

section

variable
  (hsections : stack.sections =
    (fields.filter isSection).map fun field => (field.1, Hcl.settings (some field.2)))
  (hvalues : stack.topLevel.entries =
    (fields.filter isValue).map fun field => (field.1, .ofNode field.2))

include hsections hvalues

/-- In a stack that is divided as the fields are, every field has its place. -/
theorem isStoredOnce_of_mem (hdistinct : (fields.map Prod.fst).Nodup) (hfield : field ∈ fields) :
    IsStoredOnce stack field.1 field.2 := by
  have hsectionNames : field.1 ∈ stack.sections.map Prod.fst ↔ isSection field = true := by
    rw [hsections, List.map_map]
    exact name_mem_filter_iff hdistinct hfield
  have hvalueNames : field.1 ∈ stack.topLevel.keys ↔ isValue field = true := by
    unfold OrderedMap.keys
    rw [hvalues, List.map_map]
    exact name_mem_filter_iff hdistinct hfield
  -- How the field is read tells its kind, and each kind keeps it out of the maps of the others.
  have hreads := reads_ofEntry field
  generalize RootEntry.ofEntry (.string field.1) field.2 = entry at hreads
  cases hreads with
  | reserved hreserved =>
    have hmem := isReserved_iff.mp hreserved
    refine .reserved hmem (fun hin => ?_) (fun hin => ?_)
    · exact (isSection_iff.mp (hsectionNames.mp hin)).1 hmem
    · exact (isValue_iff.mp (hvalueNames.mp hin)).1 hmem
  | @provider owner hname hsection =>
    obtain ⟨hfree, hends, hmapping⟩ := isSection_iff.mp hsection
    refine .provider owner hfree hname hmapping ?_ (fun hin => ?_)
    · rw [← mem_sections_iff, ← hname, hsections]
      exact List.mem_map_of_mem (List.mem_filter.mpr ⟨hfield, hsection⟩)
    · have hnoMapping := (isValue_iff.mp (hvalueNames.mp hin)).2 hends
      rw [hmapping] at hnoMapping
      cases hnoMapping
  | value hvalue =>
    obtain ⟨hfree, hother⟩ := isValue_iff.mp hvalue
    refine .value hfree (fun owner hname => hother (Text.endsWith_iff.mpr ⟨owner, hname⟩)) ?_
      (fun hin => ?_)
    · rw [OrderedMap.find?_eq_some_iff, hvalues]
      exact List.mem_map_of_mem (List.mem_filter.mpr ⟨hfield, hvalue⟩)
    · obtain ⟨-, hends, hmapping⟩ := isSection_iff.mp (hsectionNames.mp hin)
      rw [hother hends] at hmapping
      cases hmapping

/-- The three kinds together have as many members as there are fields. -/
theorem count_of_entries : fields.countP isReserved + stack.providerConfigs.keys.length +
    stack.topLevel.keys.length = fields.length := by
  have hsectionCount : stack.providerConfigs.keys.length = fields.countP isSection := by
    have hlength := congrArg List.length hsections
    unfold sections at hlength
    rw [List.length_map, List.length_map] at hlength
    rw [OrderedMap.keys, List.length_map, hlength, List.countP_eq_length_filter]
  have hvalueCount : stack.topLevel.keys.length = fields.countP isValue := by
    rw [OrderedMap.keys, List.length_map, hvalues, List.length_map, List.countP_eq_length_filter]
  rw [hsectionCount, hvalueCount, countP_add_countP_add_countP]

end

/-- A document with strings as its keys is a stack, in which each key has its place. That no name
comes twice is what makes it a document. -/
theorem ofNode_partitions_root (hdistinct : (fields.map Prod.fst).Nodup) :
    ∃ stack, ofNode (.mapping (stringKeyed fields)) = .ok stack ∧ Partitions fields stack := by
  have hsections := sections_ofRoot hdistinct
  have hvalues := entries_topLevel_ofRoot hdistinct
  exact ⟨ofRoot (stringKeyed fields), rfl,
    fun field hfield => isStoredOnce_of_mem hsections hvalues hdistinct hfield, hsections, hvalues,
    count_of_entries hsections hvalues⟩

/-- A root with sections whose names end alike, one of them without a name of its own. -/
def crowdedRoot : List (String × Yaml.Node) :=
  [("region", .string "us-east1"), ("_config", .mapping [(.string "a", .integer 1)]),
    ("modules", .mapping []), ("x_config_config", .mapping []), ("aws_config", .string "none"),
    ("x_config", .tagged "!prod" (.mapping []))]

/-- Each section configures the provider that is named in front of the last ending. What is no
mapping is a value, whatever its key ends with. -/
theorem crowdedRoot_partitions :
    (crowdedRoot.map Prod.fst).Nodup ∧
    ∃ stack, ofNode (.mapping (stringKeyed crowdedRoot)) = .ok stack ∧
      Partitions crowdedRoot stack ∧
      stack.providerConfigs.keys = ["", "x_config", "x"] ∧
      stack.topLevel.keys = ["region", "aws_config"] := by
  have hdistinct : (crowdedRoot.map Prod.fst).Nodup := by decide
  obtain ⟨stack, hstack, hpartitions⟩ := ofNode_partitions_root hdistinct
  obtain rfl := Except.ok.inj hstack
  exact ⟨hdistinct, _, rfl, hpartitions, by decide, by decide⟩

end TerraStack.Stack
