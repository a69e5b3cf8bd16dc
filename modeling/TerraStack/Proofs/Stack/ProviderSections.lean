import TerraStack.Proofs.Stack.RootKeys
import TerraStack.Stack.Artifacts

namespace TerraStack

open Hcl (Value)

variable {entries : List (Yaml.Node × Yaml.Node)} {node : Yaml.Node}

/-- Only mappings have entries, perhaps behind tags. -/
theorem Yaml.Node.isMapping_of_entries? (hentries : node.entries? = some entries) :
    node.isMapping = true := by
  rw [isMapping, hentries, Option.isSome_some]

/-- What has entries is a mapping or stands behind a tag. -/
theorem Yaml.Node.eq_or_tagged_of_entries? (hentries : node.entries? = some entries) :
    node = .mapping entries ∨ ∃ tag inner, node = .tagged tag inner := by
  cases node with
  | mapping own => exact .inl (congrArg _ (Option.some.inj hentries))
  | tagged tag inner => exact .inr ⟨tag, inner, rfl⟩
  | null | bool | integer | float | string | sequence => cases hentries

namespace Hcl

/-- The entries of a mapping are named by the texts of their keys. -/
theorem namedValues_eq_map (entries : List (Yaml.Node × Yaml.Node)) :
    namedValues entries = entries.map fun entry => (keyText entry.1, .ofNode entry.2) := by
  induction entries with
  | nil => rfl
  | cons entry rest ih => rw [namedValues, ih, List.map_cons, keyText]

/-- All entries of a mapping are settings: each text of a key has the place where it comes first,
and the value that it has where it comes last. -/
structure HoldsAll (settings : OrderedMap String Value) (entries : List (Yaml.Node × Yaml.Node)) :
    Prop where
  keys_eq : settings.keys = (entries.map fun entry => keyText entry.1).eraseDups
  last : ∀ before key node after, entries = before ++ (key, node) :: after →
    keyText key ∉ after.map (fun entry => keyText entry.1) →
      settings.find? (keyText key) = some (.ofNode node)

/-- The settings of a mapping hold all of its entries. Where keys get the same text, the first gives
the place and the last the value. -/
theorem holdsAll_settings (entries : List (Yaml.Node × Yaml.Node)) :
    HoldsAll (settings (some (.mapping entries))) entries where
  keys_eq := by
    rw [settings, OrderedMap.keys_ofList, namedValues_eq_map, List.map_map]
    rfl
  last before key node after hentries hlast := by
    rw [settings, namedValues_eq_map, hentries, List.map_append, List.map_cons]
    refine OrderedMap.find?_ofList_of_last ?_
    rw [List.map_map]
    exact hlast

/-- Where nothing is set no entry is held. -/
theorem holdsAll_empty_iff : HoldsAll ∅ entries ↔ entries = [] := by
  constructor
  · intro hholds
    cases entries with
    | nil => rfl
    | cons entry rest =>
      have hkeys := hholds.keys_eq
      rw [List.map_cons, List.eraseDups_cons] at hkeys
      cases hkeys
  · rintro rfl
    exact holdsAll_settings []

/-- The settings of a mapping, read through the tags or not at all. -/
theorem holdsAll_settings_iff (hentries : node.entries? = some entries) :
    HoldsAll (settings (some node)) entries ↔ node = .mapping entries ∨ entries = [] := by
  rcases Yaml.Node.eq_or_tagged_of_entries? hentries with rfl | ⟨tag, inner, rfl⟩
  · exact ⟨fun _ => .inl rfl, fun _ => holdsAll_settings entries⟩
  · have hnone : settings (some (.tagged tag inner)) = ∅ := rfl
    rw [hnone, holdsAll_empty_iff]
    exact ⟨.inr, fun h => h.resolve_left nofun⟩

/-- Behind a tag no settings are read. Whether there is a section is asked through tags, but its
settings are not. -/
theorem settings_of_ne_mapping (hentries : node.entries? = some entries)
    (htagged : node ≠ .mapping entries) : settings (some node) = ∅ := by
  rcases Yaml.Node.eq_or_tagged_of_entries? hentries with heq | ⟨tag, inner, rfl⟩
  · exact absurd heq htagged
  · rfl

end Hcl

namespace Stack

open Hcl (HoldsAll)

variable {fields : List (String × Yaml.Node)} {provider : String}

/-- No key that configures a provider names a section with a meaning of its own. -/
theorem provider_not_reserved (provider : String) : provider ++ providerEnding ∉ reservedSections := by
  have hends : ∀ name ∈ reservedSections, Text.endsWith providerEnding name = false := by decide
  intro hreserved
  have hno := hends _ hreserved
  rw [Text.endsWith_iff.mpr ⟨provider, rfl⟩] at hno
  cases hno

/-- A mapping under the key of a provider configures it, with the settings that are read from there. -/
theorem find?_providerConfigs_ofRoot (hdistinct : (fields.map Prod.fst).Nodup)
    (hfield : (provider ++ providerEnding, node) ∈ fields) (hmapping : node.isMapping = true) :
    (ofRoot (stringKeyed fields)).providerConfigs.find? provider =
      some (Hcl.settings (some node)) := by
  have hends : Text.endsWith providerEnding (provider ++ providerEnding) = true :=
    Text.endsWith_iff.mpr ⟨provider, rfl⟩
  have hsection : isSection (provider ++ providerEnding, node) = true :=
    isSection_iff.mpr ⟨provider_not_reserved provider, hends, hmapping⟩
  rw [← mem_sections_iff, sections_ofRoot hdistinct]
  exact List.mem_map_of_mem (List.mem_filter.mpr ⟨hfield, hsection⟩)

/-- The section of a provider is in the stack, and all its entries are held there exactly if no tag
stands at it or there is nothing to hold. With a tag it has no settings. -/
theorem providerSection_held_iff (hdistinct : (fields.map Prod.fst).Nodup)
    (hfield : (provider ++ providerEnding, node) ∈ fields) (hentries : node.entries? = some entries) :
    ∃ stack settings, ofNode (.mapping (stringKeyed fields)) = .ok stack ∧
      stack.providerConfigs.find? provider = some settings ∧
      (HoldsAll settings entries ↔ node = .mapping entries ∨ entries = []) ∧
      (node ≠ .mapping entries → settings = ∅) :=
  ⟨ofRoot (stringKeyed fields), Hcl.settings (some node), rfl,
    find?_providerConfigs_ofRoot hdistinct hfield (Yaml.Node.isMapping_of_entries? hentries),
    Hcl.holdsAll_settings_iff hentries, Hcl.settings_of_ne_mapping hentries⟩

/-- Settings of which two have keys with the same text. -/
def numberedSettings : List (Yaml.Node × Yaml.Node) :=
  [(.integer 1, .string "first"), (.string "zone", .string "us-east1-b"),
    (.string "1", .string "second")]

/-- The root of a stack with those settings for its provider. -/
def numberedRoot : List (String × Yaml.Node) :=
  [("google_config", .mapping numberedSettings), ("region", .string "us-east1")]

/-- The two become one setting, with the place of the first and the value of the second. -/
theorem numberedRoot_holdsAll :
    (numberedRoot.map Prod.fst).Nodup ∧
    ("google" ++ providerEnding, .mapping numberedSettings) ∈ numberedRoot ∧
    (Yaml.Node.mapping numberedSettings).entries? = some numberedSettings ∧
    ∃ stack settings, ofNode (.mapping (stringKeyed numberedRoot)) = .ok stack ∧
      stack.providerConfigs.find? "google" = some settings ∧
      HoldsAll settings numberedSettings ∧ settings.keys = ["1", "zone"] ∧
      settings.find? "1" = some (.string "second") := by
  have hdistinct : (numberedRoot.map Prod.fst).Nodup := by decide
  have hfield : ("google" ++ providerEnding, .mapping numberedSettings) ∈ numberedRoot :=
    List.mem_cons_self
  obtain ⟨stack, settings, hstack, hfound, hholds, -⟩ :=
    providerSection_held_iff hdistinct hfield rfl
  have hall : HoldsAll settings numberedSettings := hholds.mpr (.inl rfl)
  refine ⟨hdistinct, hfield, rfl, stack, settings, hstack, hfound, hall, ?_, ?_⟩
  · exact hall.keys_eq
  · have hbefore : numberedSettings =
        [(.integer 1, .string "first"), (.string "zone", .string "us-east1-b")]
          ++ (.string "1", .string "second") :: [] := rfl
    exact hall.last _ _ _ _ hbefore List.not_mem_nil

/-- A section with a tag. -/
def markedSection : Yaml.Node :=
  .tagged "!prod" (.mapping [(.string "zone", .string "us-central1-a")])

/-- The section is one, and what it sets is lost. -/
theorem markedSection_loses_zone :
    markedSection.isMapping = true ∧
    markedSection.entries? = some [(.string "zone", .string "us-central1-a")] ∧
    ∃ stack settings, ofNode (.mapping (stringKeyed [("google_config", markedSection)])) = .ok stack ∧
      stack.providerConfigs.find? "google" = some settings ∧ settings.find? "zone" = none ∧
      ¬ HoldsAll settings [(.string "zone", .string "us-central1-a")] := by
  refine ⟨rfl, rfl, _, ∅, rfl, rfl, rfl, fun hholds => ?_⟩
  cases Hcl.holdsAll_empty_iff.mp hholds

end Stack
end TerraStack
