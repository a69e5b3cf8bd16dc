import TerraStack.Stack.Order

namespace TerraStack.Order

variable {modules : OrderedMap String Module}

/-- There is a module of this name, and it is enabled. -/
def Enabled (modules : OrderedMap String Module) (name : String) : Prop :=
  ∃ module, modules.find? name = some module ∧ module.enabled = true

/-- An enabled module lists a name among its needs. -/
def Needs (modules : OrderedMap String Module) (name need : String) : Prop :=
  ∃ module, modules.find? name = some module ∧ module.enabled = true ∧ need ∈ module.dependsOn

/-- All that enabled modules need is enabled. -/
def Closed (modules : OrderedMap String Module) : Prop :=
  ∀ name need, Needs modules name need → Enabled modules need

/-- No enabled module needs itself, be it through others. -/
def Acyclic (modules : OrderedMap String Module) : Prop :=
  ∀ name, ¬ Relation.TransGen (Needs modules) name name

/-- An order of the enabled modules, each once and behind all that it needs. -/
structure Sorted (modules : OrderedMap String Module) (order : List String) : Prop where
  nodup : order.Nodup
  mem_iff : ∀ name, name ∈ order ↔ Enabled modules name
  before : ∀ name need, Needs modules name need → order.idxOf need < order.idxOf name

/-- What an error says of the modules. A cycle is one through the module itself and through enabled
modules only, since no others have needs. -/
inductive Diagnosis (modules : OrderedMap String Module) : StackError → Prop where
  | cycle {name : String} (henabled : Enabled modules name)
      (hcycle : Relation.TransGen (Needs modules) name name) : Diagnosis modules (.cycle name)
  | unresolved {name need : String} (hneeds : Needs modules name need)
      (hmissing : ¬ Enabled modules need) : Diagnosis modules (.unresolved name need)

/-- The enabled modules are found as the modules are, if they are enabled. -/
theorem find?_enabled {name : String} {module : Module} :
    (enabled modules).find? name = some module ↔
      modules.find? name = some module ∧ module.enabled = true :=
  OrderedMap.find?_filter

/-- A name is enabled if an enabled module is found for it. -/
theorem enabled_iff {name : String} :
    Enabled modules name ↔ ∃ module, (enabled modules).find? name = some module :=
  exists_congr fun _ => find?_enabled.symm

/-- The needs of a name are those that its enabled module lists. -/
theorem needs_iff {name need : String} :
    Needs modules name need ↔
      ∃ module, (enabled modules).find? name = some module ∧ need ∈ module.dependsOn :=
  exists_congr fun _ => by rw [find?_enabled, and_assoc]

/-- The names of the enabled modules are the enabled names. -/
theorem mem_keys_enabled {name : String} : name ∈ (enabled modules).keys ↔ Enabled modules name := by
  rw [OrderedMap.mem_keys_iff, enabled_iff]

/-- With the module at hand, its needs are those that it lists. -/
theorem needs_iff_of_find? {name need : String} {module : Module}
    (hmodule : (enabled modules).find? name = some module) :
    Needs modules name need ↔ need ∈ module.dependsOn := by
  rw [needs_iff]
  constructor
  · rintro ⟨actual, hactual, hneed⟩
    rw [hmodule] at hactual
    cases hactual
    exact hneed
  · exact fun hneed => ⟨module, hmodule, hneed⟩

/-- What has needs is enabled. -/
theorem Needs.enabled {name need : String} (hneeds : Needs modules name need) :
    Enabled modules name := by
  obtain ⟨module, hmodule, henabled, _⟩ := hneeds
  exact ⟨module, hmodule, henabled⟩

/-- What is enabled is declared. -/
theorem Enabled.mem_keys {name : String} (henabled : Enabled modules name) : name ∈ modules.keys := by
  obtain ⟨module, hmodule, -⟩ := henabled
  exact OrderedMap.mem_keys_iff.mpr ⟨module, hmodule⟩

/-- The needs of modules are the same in whatever order the modules are declared. -/
theorem needs_congr {other : OrderedMap String Module} (hperm : other.entries.Perm modules.entries) :
    Needs other = Needs modules := by
  funext name need
  unfold Needs
  rw [OrderedMap.find?_congr hperm]

/-- The same modules are enabled in whatever order they are declared. -/
theorem enabled_congr {other : OrderedMap String Module}
    (hperm : other.entries.Perm modules.entries) : Enabled other = Enabled modules := by
  funext name
  unfold Enabled
  rw [OrderedMap.find?_congr hperm]

/-- What has an earlier place than a name stands before it, also where names have been left out. -/
theorem mem_before_of_idxOf_lt {places before after : List String} {name need : String}
    (hnodup : places.Nodup) (hsub : (before ++ name :: after).Sublist places)
    (hmem : need ∈ before ++ name :: after) (hlt : places.idxOf need < places.idxOf name) :
    need ∈ before := by
  have hplaces : places.Pairwise fun first second => places.idxOf first < places.idxOf second := by
    rw [List.pairwise_iff_getElem]
    intro i j hi hj hij
    rwa [hnodup.idxOf_getElem i hi, hnodup.idxOf_getElem j hj]
  have hbehind := (List.pairwise_append.mp (hplaces.sublist hsub)).2.1
  rcases List.mem_append.mp hmem with hbefore | hrest
  · exact hbefore
  · rcases List.mem_cons.mp hrest with rfl | hafter
    · exact absurd hlt (Nat.lt_irrefl _)
    · exact absurd hlt (Nat.lt_asymm (List.rel_of_pairwise_cons hbehind hafter))

namespace Sorted

variable {order : List String}

/-- If there is an order, then all needs are enabled. -/
theorem closed (hsorted : Sorted modules order) : Closed modules := by
  intro name need hneeds
  have hmem := (hsorted.mem_iff name).mpr hneeds.enabled
  have hplace := hsorted.before name need hneeds
  rw [← hsorted.mem_iff, ← List.idxOf_lt_length_iff]
  exact Nat.lt_trans hplace (List.idxOf_lt_length_of_mem hmem)

/-- What is needed through others stands before as well. -/
theorem before_of_transGen (hsorted : Sorted modules order) {name need : String}
    (hchain : Relation.TransGen (Needs modules) name need) : order.idxOf need < order.idxOf name := by
  induction hchain with
  | single hneeds => exact hsorted.before _ _ hneeds
  | tail _ hneeds ih => exact Nat.lt_trans (hsorted.before _ _ hneeds) ih

/-- What is needed stands in the part before the one that needs it. -/
theorem mem_of_needs {before after : List String} {name need : String} (hsorted : Sorted modules order)
    (hsplit : order = before ++ name :: after) (hneeds : Needs modules name need) : need ∈ before := by
  have hplace := hsorted.before name need hneeds
  have hneed := (hsorted.mem_iff need).mpr (hsorted.closed name need hneeds)
  subst hsplit
  exact mem_before_of_idxOf_lt hsorted.nodup (.refl _) hneed hplace

/-- If there is an order, then no module needs itself, for it would stand before itself. -/
theorem acyclic (hsorted : Sorted modules order) : Acyclic modules :=
  fun _ hcycle => Nat.lt_irrefl _ (hsorted.before_of_transGen hcycle)

end Sorted

/-- Names of enabled modules, the last first, each behind all that it needs. -/
inductive Settled (modules : OrderedMap String Module) : List String → Prop where
  | nil : Settled modules []
  | cons {name : String} {finished : List String} (hfresh : name ∉ finished)
      (henabled : Enabled modules name) (hneeds : ∀ need, Needs modules name need → need ∈ finished)
      (hfinished : Settled modules finished) : Settled modules (name :: finished)

namespace Settled

variable {finished : List String}

/-- Settled names are all different. -/
theorem nodup (hsettled : Settled modules finished) : finished.Nodup := by
  induction hsettled with
  | nil => exact List.nodup_nil
  | cons hfresh _ _ _ ih => exact List.nodup_cons.mpr ⟨hfresh, ih⟩

/-- Settled names are enabled. -/
theorem enabled (hsettled : Settled modules finished) {name : String} (hmem : name ∈ finished) :
    Enabled modules name := by
  induction hsettled with
  | nil => cases hmem
  | cons _ henabled _ _ ih =>
    rcases List.mem_cons.mp hmem with rfl | hmem
    · exact henabled
    · exact ih hmem

/-- What a settled name needs is settled. -/
theorem mem_of_needs (hsettled : Settled modules finished) {name need : String} (hmem : name ∈ finished)
    (hneeded : Needs modules name need) : need ∈ finished := by
  induction hsettled with
  | nil => cases hmem
  | cons _ _ hneeds _ ih =>
    rcases List.mem_cons.mp hmem with rfl | hmem
    · exact List.mem_cons_of_mem _ (hneeds need hneeded)
    · exact List.mem_cons_of_mem _ (ih hmem)

/-- Turned round, settled names stand behind what they need. -/
theorem before (hsettled : Settled modules finished) {name need : String} (hmem : name ∈ finished)
    (hneeded : Needs modules name need) :
    finished.reverse.idxOf need < finished.reverse.idxOf name := by
  induction hsettled with
  | nil => cases hmem
  | @cons last finished hfresh _ hneeds hfinished ih =>
    rw [List.reverse_cons, List.idxOf_append, List.idxOf_append]
    rcases List.mem_cons.mp hmem with rfl | hmem
    · have hneed := List.mem_reverse.mpr (hneeds need hneeded)
      rw [if_pos hneed, if_neg (by simpa using hfresh)]
      exact Nat.lt_of_lt_of_le (List.idxOf_lt_length_of_mem hneed) (Nat.le_add_left _ _)
    · have hneed := hfinished.mem_of_needs hmem hneeded
      rw [if_pos (List.mem_reverse.mpr hneed), if_pos (List.mem_reverse.mpr hmem)]
      exact ih hmem

/-- Once every enabled module is there, the names make up an order of the modules. -/
theorem sorted (hsettled : Settled modules finished)
    (hall : ∀ name, Enabled modules name → name ∈ finished) : Sorted modules finished.reverse where
  nodup := (List.reverse_perm finished).nodup_iff.mpr hsettled.nodup
  mem_iff name := List.mem_reverse.trans ⟨hsettled.enabled, hall name⟩
  before _ _ hneeds := hsettled.before (hall _ hneeds.enabled) hneeds

end Settled
end TerraStack.Order
