import TerraStack.Proofs.Stack.ModuleBlocks

namespace TerraStack

open Hcl (Item Value)

variable {conventions : List Convention} {own topLevel : OrderedMap String Value}
  {provider setting expression key : String}

/-- The table with more conventions, each behind those that its provider already has. -/
def Conventions.addAll (table : Conventions) (added : List (String × Convention)) : Conventions :=
  added.foldl (fun table (provider, convention) => table.add provider convention) table

/-- A convention that is added for a provider comes behind those it has, and other providers do not
see it. -/
theorem Conventions.of_add (table : Conventions) (owner provider : String) (convention : Convention) :
    (table.add owner convention).of provider =
      if provider = owner then table.of provider ++ [convention] else table.of provider := by
  unfold Conventions.add Conventions.of
  rw [OrderedMap.find?_insert]
  split
  · next heq => simp [heq]
  · rfl

/-- What a provider has in the end are the conventions that were added for it, in their order. -/
theorem Conventions.of_addAll (table : Conventions) (added : List (String × Convention))
    (provider : String) :
    (table.addAll added).of provider =
      table.of provider ++ (added.filter fun entry => provider = entry.1).map Prod.snd := by
  induction added generalizing table with
  | nil => simp [Conventions.addAll]
  | cons entry added ih =>
    have hrest : (table.addAll (entry :: added)).of provider =
        ((table.add entry.1 entry.2).addAll added).of provider := rfl
    rw [hrest, ih, Conventions.of_add]
    by_cases howner : provider = entry.1
    · rw [if_pos howner, List.filter_cons_of_pos (by simpa using howner), List.map_cons,
        List.append_assoc, List.singleton_append]
    · rw [if_neg howner, List.filter_cons_of_neg (by simpa using howner)]

/-- A key is the first of some that the root of a stack has. -/
def IsFirstGiven (topLevel : OrderedMap String Value) (keys : List String) (key : String) : Prop :=
  ∃ before after, keys = before ++ key :: after ∧ topLevel.contains key = true ∧
    ∀ earlier ∈ before, topLevel.contains earlier = false

/-- A convention takes the first of its keys that the root has. -/
theorem Convention.select_eq_some_iff {convention : Convention} :
    convention.select topLevel.contains = some key ↔ IsFirstGiven topLevel convention.keys key := by
  unfold Convention.select IsFirstGiven
  rw [List.find?_eq_some_iff_append]
  constructor
  · rintro ⟨hgiven, before, after, hkeys, hearlier⟩
    exact ⟨before, after, hkeys, hgiven, fun earlier hmem => by simpa using hearlier earlier hmem⟩
  · rintro ⟨before, after, hkeys, hgiven, hearlier⟩
    exact ⟨hgiven, before, after, hkeys, fun earlier hmem => by simpa using hearlier earlier hmem⟩

/-- A convention adds its setting: the section leaves it open, and the root has one of the keys. -/
def Convention.Applies (own topLevel : OrderedMap String Value) (convention : Convention) : Prop :=
  own.contains convention.setting = false ∧ ∃ key ∈ convention.keys, topLevel.contains key = true

instance (convention : Convention) : Decidable (convention.Applies own topLevel) :=
  inferInstanceAs (Decidable (_ ∧ _))

/-- No two conventions that apply are for the same setting. -/
def Undisputed (conventions : List Convention) (own topLevel : OrderedMap String Value) : Prop :=
  conventions.Pairwise fun first second => first.Applies own topLevel → second.Applies own topLevel →
    first.setting ≠ second.setting

instance : Decidable (Undisputed conventions own topLevel) :=
  inferInstanceAs (Decidable (List.Pairwise _ _))

/-- A convention applies where the section leaves the setting open and some key can be taken. -/
theorem Convention.applies_iff {convention : Convention} :
    convention.Applies own topLevel ↔ own.contains convention.setting = false ∧
      ∃ key, convention.select topLevel.contains = some key := by
  unfold Convention.Applies Convention.select
  rw [← Option.isSome_iff_exists, List.find?_isSome]

/-- Each convention that applies adds its setting. -/
theorem map_fst_injectedSettings (conventions : List Convention)
    (own topLevel : OrderedMap String Value) :
    (injectedSettings conventions own topLevel).map Prod.fst =
      (conventions.filter fun convention => convention.Applies own topLevel).map Convention.setting := by
  unfold injectedSettings
  rw [List.map_filterMap, ← List.filterMap_eq_map, List.filterMap_filter]
  refine List.filterMap_congr fun convention _ => ?_
  by_cases hown : own.contains convention.setting = true
  · have hsilent : ¬ convention.Applies own topLevel := fun happlies => by
      simp [happlies.1] at hown
    simp [hown, hsilent]
  · cases hselect : convention.select topLevel.contains with
    | none =>
      have hsilent : ¬ convention.Applies own topLevel := by simp [Convention.applies_iff, hselect]
      simp [hown, hsilent]
    | some key =>
      have happlies : convention.Applies own topLevel :=
        Convention.applies_iff.mpr ⟨by simpa using hown, key, hselect⟩
      simp [hown, happlies]

/-- No setting is injected twice exactly if no two conventions that apply are for one setting.
Conventions look at the section and not at each other. -/
theorem nodup_injectedSettings_iff :
    ((injectedSettings conventions own topLevel).map Prod.fst).Nodup ↔
      Undisputed conventions own topLevel := by
  rw [map_fst_injectedSettings]
  unfold List.Nodup Undisputed
  rw [List.pairwise_map, List.pairwise_filter]
  simp only [decide_eq_true_eq]

/-- No setting is injected that the section has itself. -/
theorem not_contains_of_mem_injectedSettings
    (hmem : setting ∈ (injectedSettings conventions own topLevel).map Prod.fst) :
    own.contains setting = false := by
  obtain ⟨⟨_, key⟩, hinjected, rfl⟩ := List.mem_map.mp hmem
  obtain ⟨_, _, _, hopen, _⟩ := mem_injectedSettings.mp hinjected
  exact hopen

namespace Hcl.Item

/-- The names to which a block assigns something, as often as it does. -/
def assignedNames (item : Item) : List String :=
  item.arguments.map Prod.fst

end Hcl.Item

/-- The lines of a block that has nothing but arguments. -/
def argumentLines (head : String) (arguments : List (String × String)) : List String :=
  (head ++ " \x7b") :: (arguments.map fun (name, expression) => "  " ++ name ++ " = " ++ expression)
    ++ ["\x7d"]

theorem itemLines_arguments (indent : String) (arguments : List (String × String)) :
    Hcl.itemLines indent (arguments.map fun (name, expression) => .argument name expression) =
      arguments.map fun (name, expression) => indent ++ name ++ " = " ++ expression := by
  induction arguments with
  | nil => rfl
  | cons argument rest ih =>
    rw [List.map_cons, List.map_cons, Hcl.itemLines, ih]
    rfl

theorem text_argumentBlock (head : String) (arguments : List (String × String)) :
    (argumentBlock head arguments).text = Text.unlines (argumentLines head arguments) := by
  unfold Item.text argumentBlock argumentLines Item.lines
  rw [String.empty_append, String.empty_append, itemLines_arguments, List.cons_append]
  rfl

/-- The block of a provider has its own settings, and behind them those that are injected. -/
theorem providerBlock_eq (provider : String) (conventions : List Convention)
    (own topLevel : OrderedMap String Value) :
    providerBlock provider conventions own topLevel =
      argumentBlock (Hcl.head "provider" [provider])
        (own.entries.map (fun (setting, value) => (setting, value.format)) ++
          (injectedSettings conventions own topLevel).map
            fun (setting, key) => (setting, variableReference key)) := by
  unfold argumentBlock
  rw [List.map_append, List.map_map, List.map_map]
  rfl

theorem arguments_providerBlock (provider : String) (conventions : List Convention)
    (own topLevel : OrderedMap String Value) :
    (providerBlock provider conventions own topLevel).arguments =
      own.entries.map (fun (setting, value) => (setting, value.format)) ++
        (injectedSettings conventions own topLevel).map
          fun (setting, key) => (setting, variableReference key) := by
  rw [providerBlock_eq, arguments_argumentBlock]

theorem assignedNames_providerBlock (provider : String) (conventions : List Convention)
    (own topLevel : OrderedMap String Value) :
    (providerBlock provider conventions own topLevel).assignedNames =
      own.keys ++ (injectedSettings conventions own topLevel).map Prod.fst := by
  unfold Item.assignedNames OrderedMap.keys
  rw [arguments_providerBlock, List.map_append, List.map_map, List.map_map]
  rfl

theorem text_providerBlock (provider : String) (conventions : List Convention)
    (own topLevel : OrderedMap String Value) :
    (providerBlock provider conventions own topLevel).text =
      Text.unlines (argumentLines (Hcl.head "provider" [provider])
        (providerBlock provider conventions own topLevel).arguments) := by
  rw [providerBlock_eq, text_argumentBlock, arguments_argumentBlock]

/-- What a provider's block assigns to a setting: the value that its section has for it, or else a
reference to the first key that is there of a convention for the setting. -/
inductive Assigns (conventions : List Convention) (own topLevel : OrderedMap String Value)
    (setting : String) : String → Prop
  | own {value : Value} (hvalue : own.find? setting = some value) :
      Assigns conventions own topLevel setting value.format
  | convention {convention : Convention} {key : String} (hconvention : convention ∈ conventions)
      (hsetting : convention.setting = setting) (hopen : own.contains setting = false)
      (hkey : IsFirstGiven topLevel convention.keys key) :
      Assigns conventions own topLevel setting (variableReference key)

/-- An argument of the block is a setting with the expression that it should have. -/
theorem mem_arguments_providerBlock :
    (setting, expression) ∈ (providerBlock provider conventions own topLevel).arguments ↔
      Assigns conventions own topLevel setting expression := by
  rw [arguments_providerBlock, List.mem_append, List.mem_map, List.mem_map]
  constructor
  · rintro (⟨⟨_, value⟩, hentry, hpair⟩ | ⟨⟨_, key⟩, hinjected, hpair⟩)
    · obtain ⟨rfl, rfl⟩ := Prod.mk.inj hpair
      exact .own (OrderedMap.find?_eq_some_iff.mpr hentry)
    · obtain ⟨rfl, rfl⟩ := Prod.mk.inj hpair
      obtain ⟨convention, hconvention, hsetting, hopen, hselect⟩ := mem_injectedSettings.mp hinjected
      exact .convention hconvention hsetting hopen (Convention.select_eq_some_iff.mp hselect)
  · intro hassigns
    cases hassigns with
    | @own value hvalue =>
      exact .inl ⟨(setting, value), OrderedMap.find?_eq_some_iff.mp hvalue, rfl⟩
    | @convention convention key hconvention hsetting hopen hkey =>
      have hselect := Convention.select_eq_some_iff.mpr hkey
      exact .inr ⟨(setting, key),
        mem_injectedSettings.mpr ⟨convention, hconvention, hsetting, hopen, hselect⟩, rfl⟩

/-- No name is assigned twice exactly if no two conventions that apply are for one setting. -/
theorem nodup_assignedNames_iff :
    (providerBlock provider conventions own topLevel).assignedNames.Nodup ↔
      Undisputed conventions own topLevel := by
  rw [assignedNames_providerBlock, List.nodup_append, nodup_injectedSettings_iff]
  refine ⟨fun hnodup => hnodup.2.1, fun hundisputed => ⟨own.distinct, hundisputed, ?_⟩⟩
  intro setting hown other hinjected heq
  have hopen := not_contains_of_mem_injectedSettings hinjected
  rw [← heq, ← Bool.not_eq_true, OrderedMap.contains_iff_mem_keys] at hopen
  exact hopen hown

/-- A setting of the provider's own section is assigned once, whatever the conventions are. -/
theorem count_assignedNames_of_own (hown : own.contains setting = true) :
    (providerBlock provider conventions own topLevel).assignedNames.count setting = 1 := by
  have hinjected : setting ∉ (injectedSettings conventions own topLevel).map Prod.fst := fun hmem => by
    rw [not_contains_of_mem_injectedSettings hmem] at hown
    cases hown
  have hkeys : own.keys.count setting = 1 :=
    List.count_eq_one_of_mem own.distinct (OrderedMap.contains_iff_mem_keys.mp hown)
  rw [assignedNames_providerBlock, List.count_append, List.count_eq_zero.mpr hinjected, hkeys]

/-- The block that a stack gives a provider. -/
def Stack.providerBlock (stack : Stack) (conventions : Conventions) (provider : String) : Item :=
  TerraStack.providerBlock provider (conventions.of provider) (stack.ownSettings provider)
    stack.topLevel

/-- Each block of a provider assigns every argument at most once, exactly if no two conventions that
apply to the provider are for one setting, be they of the table or added to it. In any case a
setting of the provider's own section is assigned once and has its value from there, and every other
takes the variable of the first key that is there of a convention for it. -/
theorem providerBlocks_assignOnce_iff (table : Conventions) (added : List (String × Convention))
    (stack : Stack) :
    providerBlocks stack (table.addAll added) =
        stack.terraform.requiredProviders.keys.map (stack.providerBlock (table.addAll added)) ∧
      ∀ provider,
        (table.addAll added).of provider =
          table.of provider ++ (added.filter fun entry => provider = entry.1).map Prod.snd ∧
        (stack.providerBlock (table.addAll added) provider).text =
          Text.unlines (argumentLines (Hcl.head "provider" [provider])
            (stack.providerBlock (table.addAll added) provider).arguments) ∧
        ((stack.providerBlock (table.addAll added) provider).assignedNames.Nodup ↔
          Undisputed ((table.addAll added).of provider) (stack.ownSettings provider)
            stack.topLevel) ∧
        (∀ setting, (stack.ownSettings provider).contains setting = true →
          (stack.providerBlock (table.addAll added) provider).assignedNames.count setting = 1) ∧
        ∀ setting expression,
          (setting, expression) ∈ (stack.providerBlock (table.addAll added) provider).arguments ↔
            Assigns ((table.addAll added).of provider) (stack.ownSettings provider) stack.topLevel
              setting expression := by
  refine ⟨rfl, fun provider => ⟨Conventions.of_addAll table added provider, ?_⟩⟩
  exact ⟨text_providerBlock provider _ (stack.ownSettings provider) stack.topLevel,
    nodup_assignedNames_iff, fun setting => count_assignedNames_of_own,
    fun setting expression => mem_arguments_providerBlock⟩

/-- A network whose provider has a zone of its own, takes its region from the root and has been
given further conventions for both. -/
def zonedStack : Stack where
  terraform := { requiredProviders := .ofList [("google", ∅)] }
  providerConfigs := .ofList [("google", .ofList [("zone", .string "us-east1-b")])]
  topLevel := .ofList [("region", .string "us-east1"), ("zone", .string "us-east1-c")]

/-- Further conventions for the region and the zone. -/
def zonedConventions : List (String × Convention) :=
  [("google", ⟨"zone", ["zone"]⟩), ("google", ⟨"region", ["location"]⟩)]

/-- The section keeps the convention for the zone away, and no key is there for the second
convention for the region. -/
theorem zonedStack_assignsOnce :
    Undisputed ((Conventions.standard.addAll zonedConventions).of "google")
        (zonedStack.ownSettings "google") zonedStack.topLevel ∧
      (zonedStack.ownSettings "google").contains "zone" = true ∧
      (zonedStack.providerBlock (Conventions.standard.addAll zonedConventions) "google").arguments =
        [("zone", "\"us-east1-b\""), ("region", "var.region")] ∧
      (zonedStack.providerBlock (Conventions.standard.addAll zonedConventions)
        "google").assignedNames.Nodup ∧
      (zonedStack.providerBlock (Conventions.standard.addAll zonedConventions)
        "google").assignedNames.count "zone" = 1 := by
  have hblock := (providerBlocks_assignOnce_iff .standard zonedConventions zonedStack).2 "google"
  obtain ⟨-, -, honce, hcount, -⟩ := hblock
  have hundisputed : Undisputed ((Conventions.standard.addAll zonedConventions).of "google")
      (zonedStack.ownSettings "google") zonedStack.topLevel := by decide
  have hzone : (zonedStack.ownSettings "google").contains "zone" = true := by decide
  exact ⟨hundisputed, hzone, by decide, honce.mpr hundisputed, hcount "zone" hzone⟩

/-- A network with a region and a location, where the location is to give the region as well. -/
def locatedStack : Stack where
  terraform := { requiredProviders := .ofList [("google", ∅)] }
  topLevel := .ofList [("region", .string "us-east1"), ("location", .string "US")]

/-- A convention that takes the region from the location. -/
def locatedConventions : List (String × Convention) :=
  [("google", ⟨"region", ["location"]⟩)]

/-- Both conventions for the region apply, and the block assigns it twice. -/
theorem locatedStack_assigns_twice :
    (locatedStack.providerBlock (Conventions.standard.addAll locatedConventions) "google").arguments =
        [("region", "var.region"), ("region", "var.location")] ∧
      ¬ (locatedStack.providerBlock (Conventions.standard.addAll locatedConventions)
        "google").assignedNames.Nodup ∧
      blocksText (providerBlocks locatedStack (Conventions.standard.addAll locatedConventions)) =
        "provider \"google\" \x7b\n  region = var.region\n  region = var.location\n\x7d" :=
  ⟨by decide, by decide, by decide +kernel⟩

end TerraStack
