import TerraStack.Proofs.Order.Reached

namespace TerraStack.Order

variable {modules other : OrderedMap String Module} {colouring : Colouring} {name : String}

/-- Every enabled module is declared behind all that it needs, enabled or not. -/
def DeclaredInOrder (modules : OrderedMap String Module) : Prop :=
  ∀ name need, Needs modules name need → modules.keys.idxOf need < modules.keys.idxOf name

/-- To be declared in order is a matter of the places of the names alone. -/
theorem declaredInOrder_iff : DeclaredInOrder modules ↔ ∀ entry ∈ modules.entries,
    entry.2.enabled = true → ∀ need ∈ entry.2.dependsOn,
      modules.keys.idxOf need < modules.keys.idxOf entry.1 := by
  constructor
  · rintro hdeclared ⟨name, module⟩ hentry henabled need hneed
    exact hdeclared name need ⟨module, OrderedMap.find?_eq_some_iff.mpr hentry, henabled, hneed⟩
  · rintro hentries name need ⟨module, hmodule, henabled, hneed⟩
    exact hentries (name, module) (OrderedMap.find?_eq_some_iff.mp hmodule) henabled need hneed

instance : Decidable (DeclaredInOrder modules) :=
  decidable_of_iff _ declaredInOrder_iff.symm

/-- The same modules are declared: the same ones are enabled, and each lists the same needs, be it
in another order. -/
def Redeclares (modules other : OrderedMap String Module) : Prop :=
  ∀ name, Option.Rel
    (fun module again => again.enabled = module.enabled ∧ again.dependsOn.Perm module.dependsOn)
    (modules.find? name) (other.find? name)

/-- The first need of a module that no module meets, behind the name of the module. -/
def unmetNeed? (modules : OrderedMap String Module) (entry : String × Module) :
    Option (String × String) :=
  (entry.2.dependsOn.find? fun need => !modules.contains need).map (entry.1, ·)

/-- The first enabled module with a need that is not enabled, and the first such need that it
lists. -/
def firstUnmet? (modules : OrderedMap String Module) : Option (String × String) :=
  (enabled modules).entries.findSome? (unmetNeed? (enabled modules))

/-- A name is a key of the enabled modules if it is enabled. -/
theorem contains_enabled_iff : (enabled modules).contains name = true ↔ Enabled modules name := by
  rw [OrderedMap.contains_iff_mem_keys, mem_keys_enabled]

/-- No need is found unmet exactly if all that is needed is enabled. -/
theorem firstUnmet?_eq_none_iff : firstUnmet? modules = none ↔ Closed modules := by
  simp only [firstUnmet?, unmetNeed?, List.findSome?_eq_none_iff, Option.map_eq_none_iff,
    List.find?_eq_none, Bool.not_eq_true', Bool.not_eq_false, contains_enabled_iff]
  constructor
  · intro hmet name need hneeds
    obtain ⟨module, hmodule, hneed⟩ := needs_iff.mp hneeds
    exact hmet (name, module) (OrderedMap.find?_eq_some_iff.mp hmodule) need hneed
  · rintro hclosed ⟨name, module⟩ hentry need hneed
    exact hclosed name need (needs_iff.mpr ⟨module, OrderedMap.find?_eq_some_iff.mpr hentry, hneed⟩)

/-- Some modules are finished, the first one first, and no others have been reached. -/
def Colouring.ofFinished (names : List String) : Colouring where
  colour name := if name ∈ names then .black else .white
  finished := names.reverse

/-- A module that is finished as soon as it is reached is just finished behind the others. -/
theorem Colouring.finish_paint_ofFinished (names : List String) (name : String) :
    ((Colouring.ofFinished names).paint name .grey).finish name =
      Colouring.ofFinished (names ++ [name]) := by
  unfold Colouring.ofFinished Colouring.finish Colouring.paint
  rw [List.reverse_append, List.reverse_singleton, List.singleton_append, Colouring.mk.injEq]
  refine ⟨?_, rfl⟩
  funext other
  by_cases hother : other = name <;> simp [hother]

/-- Needs that are finished are passed over, and the first one that is not can only be no module. -/
theorem searchEach_of_met {referrer : String} {needs : List String}
    (hmet : ∀ need ∈ needs,
      colouring.colour need = if modules.contains need = true then .black else .white) :
    reached (searchEach modules referrer needs colouring) =
      (needs.find? fun need => !modules.contains need).elim (.ok colouring)
        fun need => .error (.unresolved referrer need) := by
  induction needs with
  | nil => exact reached_searchEach_nil modules referrer colouring
  | cons need needs ih =>
    rw [List.forall_mem_cons] at hmet
    rw [reached_searchEach_cons]
    by_cases hneed : modules.contains need = true
    · have hblack : colouring.colour need = .black := hmet.1.trans (if_pos hneed)
      rw [reached_search_of_black hblack, List.find?_cons_of_neg (by simpa using hneed)]
      exact ih hmet.2
    · have hwhite : colouring.colour need = .white := hmet.1.trans (if_neg hneed)
      have hmissing : modules.find? need = none := by simpa [OrderedMap.contains] using hneed
      rw [reached_search, hwhite, hmissing, List.find?_cons_of_pos (by simpa using hneed)]
      rfl

/-- All modules are in order, in a list of places of their names, as far as they are enabled. -/
structure Placed (modules : OrderedMap String Module) (places : List String) : Prop where
  nodup : places.Nodup
  sublist : (enabled modules).keys.Sublist places
  before : ∀ name need, Needs modules name need → Enabled modules need →
    places.idxOf need < places.idxOf name

namespace Placed

variable {places : List String} {before after : List (String × Module)} {module : Module}

/-- No name is declared twice. -/
theorem not_mem_before (hentries : (enabled modules).entries = before ++ (name, module) :: after) :
    name ∉ before.map Prod.fst := by
  have hdistinct := (enabled modules).distinct
  rw [hentries, List.map_append, List.map_cons] at hdistinct
  exact fun hmem => (List.nodup_append.mp hdistinct).2.2 name hmem name List.mem_cons_self rfl

/-- When a module is reached, what it needs is finished or not enabled. -/
theorem met (hplaced : Placed modules places)
    (hentries : (enabled modules).entries = before ++ (name, module) :: after) :
    ∀ need ∈ module.dependsOn,
      ((Colouring.ofFinished (before.map Prod.fst)).paint name .grey).colour need =
        if (enabled modules).contains need = true then .black else .white := by
  intro need hneed
  have hkeys : (enabled modules).keys = before.map Prod.fst ++ name :: after.map Prod.fst := by
    simp [OrderedMap.keys, hentries]
  rw [Colouring.colour_paint]
  by_cases hcontains : (enabled modules).contains need = true
  · have henabled : Enabled modules need := contains_enabled_iff.mp hcontains
    have hmodule : (enabled modules).find? name = some module := by
      rw [OrderedMap.find?_eq_some_iff, hentries]
      simp
    have hneeds : Needs modules name need := needs_iff.mpr ⟨module, hmodule, hneed⟩
    have hbefore : need ∈ before.map Prod.fst :=
      mem_before_of_idxOf_lt hplaced.nodup (hkeys ▸ hplaced.sublist)
        (hkeys ▸ mem_keys_enabled.mpr henabled) (hplaced.before name need hneeds henabled)
    have hother : need ≠ name := fun heq => not_mem_before hentries (heq ▸ hbefore)
    rw [if_neg hother, if_pos hcontains]
    exact if_pos hbefore
  · have hmissing : need ∉ before.map Prod.fst ++ name :: after.map Prod.fst := by
      rwa [← hkeys, ← OrderedMap.contains_iff_mem_keys]
    rw [List.mem_append, List.mem_cons, not_or, not_or] at hmissing
    rw [if_neg hmissing.2.1, if_neg hcontains]
    exact if_neg hmissing.1

/-- A root is finished at once, unless a need of its own is not met. -/
theorem search_eq (hplaced : Placed modules places)
    (hentries : (enabled modules).entries = before ++ (name, module) :: after) :
    reached (search (enabled modules) name name (.ofFinished (before.map Prod.fst))) =
      (unmetNeed? (enabled modules) (name, module)).elim
        (.ok (.ofFinished (before.map Prod.fst ++ [name])))
        fun unmet => .error (.unresolved unmet.1 unmet.2) := by
  have hmodule : (enabled modules).find? name = some module := by
    rw [OrderedMap.find?_eq_some_iff, hentries]
    simp
  have hwhite : (Colouring.ofFinished (before.map Prod.fst)).colour name = .white :=
    if_neg (not_mem_before hentries)
  rw [reached_search, hwhite, hmodule]
  dsimp only
  rw [searchEach_of_met (hplaced.met hentries), unmetNeed?]
  cases module.dependsOn.find? fun need => !(enabled modules).contains need with
  | some need => rfl
  | none => exact congrArg Except.ok (Colouring.finish_paint_ofFinished _ name)

/-- From any module on, the search of modules in order finishes each at once, up to the first need
that is not met. It never goes deeper than the root it is at. -/
theorem searchRoots_eq (hplaced : Placed modules places) (before after : List (String × Module))
    (hentries : (enabled modules).entries = before ++ after) :
    searchRoots (enabled modules) (after.map Prod.fst) (.ofFinished (before.map Prod.fst)) =
      (after.findSome? (unmetNeed? (enabled modules))).elim
        (.ok (.ofFinished (enabled modules).keys)) fun unmet => .error (.unresolved unmet.1 unmet.2) := by
  induction after generalizing before with
  | nil =>
    rw [List.append_nil] at hentries
    unfold OrderedMap.keys
    rw [hentries]
    rfl
  | cons entry after ih =>
    obtain ⟨name, module⟩ := entry
    rw [List.map_cons, searchRoots_cons, hplaced.search_eq hentries, List.findSome?_cons]
    cases unmetNeed? (enabled modules) (name, module) with
    | some unmet => rfl
    | none =>
      have hrest := ih (before ++ [(name, module)])
        (by rw [hentries, List.append_assoc, List.singleton_append])
      rw [List.map_append, List.map_singleton] at hrest
      exact hrest

/-- Modules in order are given back in their order, unless a need is not met. -/
theorem resolve_eq (hplaced : Placed modules places) :
    resolve modules = (firstUnmet? modules).elim (.ok (enabled modules).keys)
      fun unmet => .error (.unresolved unmet.1 unmet.2) := by
  have hroots := hplaced.searchRoots_eq [] (enabled modules).entries rfl
  have hstart : Colouring.ofFinished ([].map (Prod.fst : String × Module → String)) = {} := by
    simp [Colouring.ofFinished]
  rw [hstart] at hroots
  rw [resolve_eq_searchRoots]
  unfold OrderedMap.keys at hroots ⊢
  rw [hroots, firstUnmet?]
  cases (enabled modules).entries.findSome? (unmetNeed? (enabled modules)) with
  | some unmet => rfl
  | none => exact congrArg Except.ok (List.reverse_reverse _)

end Placed

/-- Modules that are declared in order are in place by the order of their declarations. -/
theorem DeclaredInOrder.placed (hdeclared : DeclaredInOrder modules) : Placed modules modules.keys where
  nodup := modules.distinct
  sublist := List.filter_sublist.map Prod.fst
  before name need hneeds _ := hdeclared name need hneeds

/-- To declare modules again enables the same ones. -/
theorem Redeclares.enabled_iff (hagain : Redeclares modules other) :
    Enabled other name ↔ Enabled modules name := by
  have hsame := hagain name
  unfold Enabled
  generalize modules.find? name = found, other.find? name = again at hsame ⊢
  cases hsame with
  | none => rfl
  | some hsame => simp [hsame.1]

theorem Redeclares.needs_iff (hagain : Redeclares modules other) {need : String} :
    Needs other name need ↔ Needs modules name need := by
  have hsame := hagain name
  unfold Needs
  generalize modules.find? name = found, other.find? name = again at hsame ⊢
  cases hsame with
  | none => rfl
  | some hsame => simp [hsame.1, hsame.2.mem_iff]

/-- Modules are given back in the order in which they are declared again, if it is the one that was
found. -/
theorem Redeclares.resolve_eq {order : List String} (hagain : Redeclares modules other)
    (hresolve : resolve modules = .ok order) (horder : (enabled other).keys = order) :
    resolve other = .ok order := by
  have hsorted := resolve_sorted hresolve
  have hplaced : Placed other order := {
    nodup := hsorted.nodup
    sublist := horder ▸ List.Sublist.refl _
    before := fun name need hneeds _ => hsorted.before name need (hagain.needs_iff.mp hneeds) }
  have hclosed : Closed other := fun name need hneeds =>
    hagain.enabled_iff.mpr (hsorted.closed name need (hagain.needs_iff.mp hneeds))
  rw [hplaced.resolve_eq, firstUnmet?_eq_none_iff.mpr hclosed, horder]
  rfl

/-- The order that is found is a fixed point: to declare the same modules in this order, wherever
the others are and in whatever order each lists its needs, gives it again. More generally, modules
that are declared behind their needs are given back as they are declared, if all that they need is
enabled, and if not, the first need that is not enabled is reported. -/
theorem resolve_redeclared (modules : OrderedMap String Module) :
    (∀ order other, resolve modules = .ok order → Redeclares modules other →
      (enabled other).keys = order → resolve other = .ok order) ∧
    (DeclaredInOrder modules → Closed modules → resolve modules = .ok (enabled modules).keys) ∧
    (DeclaredInOrder modules → ¬ Closed modules →
      ∃ name need, firstUnmet? modules = some (name, need) ∧
        resolve modules = .error (.unresolved name need)) := by
  refine ⟨fun order other hresolve hagain horder => hagain.resolve_eq hresolve horder, ?_, ?_⟩
  · intro hdeclared hclosed
    rw [hdeclared.placed.resolve_eq, firstUnmet?_eq_none_iff.mpr hclosed]
    rfl
  · intro hdeclared hopen
    obtain ⟨⟨name, need⟩, hunmet⟩ :=
      Option.ne_none_iff_exists'.mp fun hnone => hopen (firstUnmet?_eq_none_iff.mp hnone)
    refine ⟨name, need, hunmet, ?_⟩
    rw [hdeclared.placed.resolve_eq, hunmet]
    rfl

/-- The layered modules in the order that is found for them. The disabled one has moved and one
lists its needs in another order. -/
def relaid : OrderedMap String Module := .ofList
  [("net", Module.ofAddress "net" "./net"),
    ("db", (Module.ofAddress "db" "./db").needing ["net"]),
    ("old", (Module.ofAddress "old" "./old").needing ["gone"] |>.disabled),
    ("app", (Module.ofAddress "app" "./app").needing ["net", "db", "db"])]

/-- The layered modules are declared again, in another order. -/
theorem layered_relaid : Redeclares layered relaid := by
  intro name
  by_cases happ : name = "app"
  · subst happ
    exact .some ⟨rfl, by decide⟩
  by_cases hdb : name = "db"
  · subst hdb
    exact .some ⟨rfl, .refl _⟩
  by_cases hnet : name = "net"
  · subst hnet
    exact .some ⟨rfl, .refl _⟩
  by_cases hold : name = "old"
  · subst hold
    exact .some ⟨rfl, .refl _⟩
  have hlayered : layered.find? name = none := by
    simp only [layered, OrderedMap.ofList, List.foldl, OrderedMap.find?_insert, happ, hdb, hnet, hold,
      if_false]
    rfl
  have hrelaid : relaid.find? name = none := by
    simp only [relaid, OrderedMap.ofList, List.foldl, OrderedMap.find?_insert, happ, hdb, hnet, hold,
      if_false]
    rfl
  rw [hlayered, hrelaid]
  exact .none

/-- A module behind its only need, which is disabled. -/
def shelved : OrderedMap String Module := .ofList
  [("db", (Module.ofAddress "db" "./db").disabled),
    ("app", (Module.ofAddress "app" "./app").needing ["db"])]

/-- The layered modules are given back in the order that was found for them, and where a need is
disabled it is reported although its module stands before. -/
theorem relaid_given_back_shelved_reported :
    (resolve layered = .ok ["net", "db", "app"] ∧ Redeclares layered relaid ∧
      (enabled relaid).keys = ["net", "db", "app"] ∧ DeclaredInOrder relaid ∧ Closed relaid ∧
      resolve relaid = .ok ["net", "db", "app"]) ∧
    DeclaredInOrder shelved ∧ ¬ Closed shelved ∧
      resolve shelved = .error (.unresolved "app" "db") := by
  have hrelaid : resolve relaid = .ok ["net", "db", "app"] :=
    (resolve_redeclared layered).1 _ relaid rfl layered_relaid rfl
  have hclosed : Closed relaid := (resolve_sorted hrelaid).closed
  have hdeclared : DeclaredInOrder relaid := by decide
  have hbehind : DeclaredInOrder shelved := by decide
  have hfirst : firstUnmet? shelved = some ("app", "db") := rfl
  have hopen : ¬ Closed shelved := fun hshelved => by
    rw [firstUnmet?_eq_none_iff.mpr hshelved] at hfirst
    cases hfirst
  obtain ⟨name, need, hunmet, hreported⟩ := (resolve_redeclared shelved).2.2 hbehind hopen
  rw [hfirst] at hunmet
  cases hunmet
  exact ⟨⟨rfl, layered_relaid, rfl, hdeclared, hclosed,
    (resolve_redeclared relaid).2.1 hdeclared hclosed⟩, hbehind, hopen, hreported⟩

/-- To be declared behind all needs is not enough where a need is disabled. -/
theorem shelved_not_given_back :
    DeclaredInOrder shelved ∧ resolve shelved = .error (.unresolved "app" "db") ∧
      ¬ (DeclaredInOrder shelved → resolve shelved = .ok (enabled shelved).keys) := by
  have hdeclared : DeclaredInOrder shelved := by decide
  have hresolve : resolve shelved = .error (.unresolved "app" "db") := rfl
  refine ⟨hdeclared, hresolve, fun hgiven => ?_⟩
  rw [hgiven hdeclared] at hresolve
  cases hresolve

end TerraStack.Order
