import TerraStack.Proofs.Order.Reached

namespace TerraStack.Order

variable {modules added whole : OrderedMap String Module} {name need : String} {order : List String}

section appended

variable (hwhole : whole.entries = modules.entries ++ added.entries)

include hwhole

theorem entries_enabled_append :
    (enabled whole).entries = (enabled modules).entries ++ (enabled added).entries := by
  simp only [enabled, OrderedMap.filter, hwhole, List.filter_append]

theorem find?_enabled_append :
    (enabled whole).find? name = ((enabled modules).find? name).or ((enabled added).find? name) := by
  unfold OrderedMap.find?
  rw [entries_enabled_append hwhole, List.lookup_append]

theorem enabled_append_iff : Enabled whole name ↔ Enabled modules name ∨ Enabled added name := by
  simp only [← mem_keys_enabled, OrderedMap.keys, entries_enabled_append hwhole, List.map_append,
    List.mem_append]

/-- A module that is enabled before is found there, whatever is declared behind. -/
theorem find?_enabled_of_enabled (henabled : Enabled modules name) :
    (enabled whole).find? name = (enabled modules).find? name := by
  obtain ⟨module, hmodule⟩ := enabled_iff.mp henabled
  rw [find?_enabled_append hwhole, hmodule, Option.some_or]

/-- What a module needs that was there before, it needs still. -/
theorem needs_append_iff (henabled : Enabled modules name) :
    Needs whole name need ↔ Needs modules name need := by
  rw [needs_iff, needs_iff, find?_enabled_of_enabled hwhole henabled]

/-- Modules that need nothing but each other reach nothing that comes behind them. -/
theorem transGen_of_append (hclosed : Closed modules) (henabled : Enabled modules name)
    (hchain : Relation.TransGen (Needs whole) name need) :
    Relation.TransGen (Needs modules) name need ∧ Enabled modules need := by
  induction hchain with
  | single hneeds =>
    have hneeds := (needs_append_iff hwhole henabled).mp hneeds
    exact ⟨.single hneeds, hclosed _ _ hneeds⟩
  | tail _ hneeds ih =>
    have hneeds := (needs_append_iff hwhole ih.2).mp hneeds
    exact ⟨.tail ih.1 hneeds, hclosed _ _ hneeds⟩

/-- What goes wrong is about a module that comes behind. -/
theorem Diagnosis.names_added {error : StackError} (hdiagnosis : Diagnosis whole error)
    (hclosed : Closed modules) (hacyclic : Acyclic modules) :
    ∃ name, Enabled added name ∧
      (error = .cycle name ∨ ∃ need, error = .unresolved name need) := by
  cases hdiagnosis with
  | @cycle name henabled hcycle =>
    refine ⟨name, ?_, .inl rfl⟩
    refine ((enabled_append_iff hwhole).mp henabled).resolve_left fun hbefore => ?_
    exact hacyclic name (transGen_of_append hwhole hclosed hbefore hcycle).1
  | @unresolved name need hneeds hmissing =>
    refine ⟨name, ?_, .inr ⟨need, rfl⟩⟩
    refine ((enabled_append_iff hwhole).mp hneeds.enabled).resolve_left fun hbefore => ?_
    have hneed := hclosed name need ((needs_append_iff hwhole hbefore).mp hneeds)
    exact hmissing ((enabled_append_iff hwhole).mpr (.inl hneed))

/-- The search of the roots that were there before is the same as without those behind: what can be
put in order needs nothing of what comes behind. -/
theorem searchRoots_append_eq (hclosed : Closed modules) :
    searchRoots (enabled whole) (enabled modules).keys {} =
      searchRoots (enabled modules) (enabled modules).keys {} := by
  refine (searchRoots_congr (Enabled modules) ?_ ?_ ?_ {}).symm
  · intro name henabled
    unfold NeedsAlike
    rw [find?_enabled_of_enabled hwhole henabled]
  · intro name module _ hmodule need hneed
    exact hclosed name need (needs_iff.mpr ⟨module, hmodule, hneed⟩)
  · exact fun root hroot => mem_keys_enabled.mp hroot

/-- The order of the whole starts with the order of what was there before. -/
theorem prefix_of_resolve_append {longer : List String} (hresolve : resolve modules = .ok order)
    (hlonger : resolve whole = .ok longer) : order <+: longer := by
  have hclosed := (resolve_sorted hresolve).closed
  have hkeys : (enabled whole).keys = (enabled modules).keys ++ (enabled added).keys := by
    simp only [OrderedMap.keys, entries_enabled_append hwhole, List.map_append]
  rw [resolve_eq_searchRoots] at hresolve hlonger
  obtain ⟨middle, hmiddle, rfl⟩ := map_eq_ok.mp hresolve
  obtain ⟨last, hlast, rfl⟩ := map_eq_ok.mp hlonger
  rw [hkeys, searchRoots_append, searchRoots_append_eq hwhole hclosed, hmiddle] at hlast
  have hprecedes : middle.Precedes last := precedes_of_searchRoots hlast
  exact List.reverse_prefix.mpr hprecedes.finished

end appended

/-- Modules with new names, declared behind modules that can be put in order, change nothing about
that order: it is where the order of the whole starts, and the enabled ones among the new modules
follow. If there is none, the error names one of the new modules. -/
theorem resolve_append (hresolve : resolve modules = .ok order)
    (hnew : ∀ name ∈ added.keys, name ∉ modules.keys) :
    (∀ longer, resolve (.ofList (modules.entries ++ added.entries)) = .ok longer →
      ∃ rest, longer = order ++ rest ∧ rest.Nodup ∧ ∀ name, name ∈ rest ↔ Enabled added name) ∧
    ∀ error, resolve (.ofList (modules.entries ++ added.entries)) = .error error →
      ∃ name, Enabled added name ∧
        (error = .cycle name ∨ ∃ need, error = .unresolved name need) := by
  have hdistinct : ((modules.entries ++ added.entries).map Prod.fst).Nodup := by
    rw [List.map_append, List.nodup_append]
    refine ⟨modules.distinct, added.distinct, fun name hname other hother heq => ?_⟩
    exact hnew other hother (heq ▸ hname)
  have hwhole : (OrderedMap.ofList (modules.entries ++ added.entries)).entries =
      modules.entries ++ added.entries := OrderedMap.entries_foldl_insert hdistinct
  generalize OrderedMap.ofList (modules.entries ++ added.entries) = whole at hwhole ⊢
  have hsorted := resolve_sorted hresolve
  refine ⟨fun longer hlonger => ?_, fun error herror => ?_⟩
  · obtain ⟨rest, rfl⟩ := prefix_of_resolve_append hwhole hresolve hlonger
    have hlong := resolve_sorted hlonger
    obtain ⟨-, hrest, hapart⟩ := List.nodup_append.mp hlong.nodup
    refine ⟨rest, rfl, hrest, fun name => ⟨fun hname => ?_, fun henabled => ?_⟩⟩
    · have hboth := (hlong.mem_iff name).mp (List.mem_append_right order hname)
      refine ((enabled_append_iff hwhole).mp hboth).resolve_left fun hbefore => ?_
      exact hapart name ((hsorted.mem_iff name).mpr hbefore) name hname rfl
    · have hmem := (hlong.mem_iff name).mpr ((enabled_append_iff hwhole).mpr (.inr henabled))
      refine (List.mem_append.mp hmem).resolve_left fun hbefore => ?_
      have hold := (hsorted.mem_iff name).mp hbefore
      exact hnew name henabled.mem_keys hold.mem_keys
  · have hdiagnosis := (resolve_truthful whole).of_error herror
    exact hdiagnosis.names_added hwhole hsorted.closed hsorted.acyclic

/-- Modules to be declared behind the layered ones: one needs some of those and a new one, and the
other new one is disabled. -/
def monitored : OrderedMap String Module := .ofList
  [("alerts", (Module.ofAddress "alerts" "./alerts").needing ["app", "metrics"]),
    ("beta", (Module.ofAddress "beta" "./beta").needing ["alerts"] |>.disabled),
    ("metrics", (Module.ofAddress "metrics" "./metrics").needing ["net"])]

/-- A module to be declared behind the layered ones that needs the disabled one among them. -/
def needingDisabled : OrderedMap String Module := .ofList
  [("museum", (Module.ofAddress "museum" "./museum").needing ["net", "old"])]

/-- One list of modules behind the layered ones can be put in order as well and the other cannot,
and the order and the error are both about the new modules only. -/
theorem layered_begins :
    resolve layered = .ok ["net", "db", "app"] ∧
      ((∀ name ∈ monitored.keys, name ∉ layered.keys) ∧
        resolve (.ofList (layered.entries ++ monitored.entries)) =
          .ok (["net", "db", "app"] ++ ["metrics", "alerts"]) ∧
        ∀ name, name ∈ ["metrics", "alerts"] ↔ Enabled monitored name) ∧
      (∀ name ∈ needingDisabled.keys, name ∉ layered.keys) ∧
        resolve (.ofList (layered.entries ++ needingDisabled.entries)) =
          .error (.unresolved "museum" "old") ∧
        Enabled needingDisabled "museum" := by
  have hnew : ∀ name ∈ monitored.keys, name ∉ layered.keys := by decide
  have hlonger : resolve (.ofList (layered.entries ++ monitored.entries)) =
      .ok (["net", "db", "app"] ++ ["metrics", "alerts"]) := rfl
  obtain ⟨rest, hrest, -, hmem⟩ := (resolve_append rfl hnew).1 _ hlonger
  obtain rfl := List.append_cancel_left hrest
  have hother : ∀ name ∈ needingDisabled.keys, name ∉ layered.keys := by decide
  have herror : resolve (.ofList (layered.entries ++ needingDisabled.entries)) =
      .error (.unresolved "museum" "old") := rfl
  obtain ⟨name, hname, hcycle | ⟨need, hunresolved⟩⟩ := (resolve_append rfl hother).2 _ herror
  · cases hcycle
  · cases hunresolved
    exact ⟨rfl, ⟨hnew, hlonger, hmem⟩, hother, herror, hname⟩

end TerraStack.Order
