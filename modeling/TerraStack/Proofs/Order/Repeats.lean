import TerraStack.Proofs.Order.Reached

namespace TerraStack.Order

variable {modules : OrderedMap String Module} {name : String}

/-- The module with each need in its first place only. -/
def needingOnce (module : Module) : Module :=
  { module with dependsOn := module.dependsOn.eraseDups }

/-- The modules with each need in its first place only. A need that is listed again has been walked
since its first place, or the walk has ended there. -/
def withoutRepeats (modules : OrderedMap String Module) : OrderedMap String Module where
  entries := modules.entries.map fun (name, module) => (name, needingOnce module)
  distinct := by
    have hnames : (Prod.fst ∘ fun entry : String × Module => (entry.1, needingOnce entry.2)) = Prod.fst :=
      rfl
    rw [List.map_map, hnames]
    exact modules.distinct

theorem keys_withoutRepeats (modules : OrderedMap String Module) :
    (withoutRepeats modules).keys = modules.keys := by
  simp [OrderedMap.keys, withoutRepeats]

theorem find?_withoutRepeats :
    (withoutRepeats modules).find? name = (modules.find? name).map needingOnce := by
  refine Option.ext fun module => ?_
  simp only [OrderedMap.find?_eq_some_iff, Option.map_eq_some_iff, withoutRepeats, List.mem_map,
    Prod.mk.injEq, Prod.exists]
  constructor
  · rintro ⟨_, old, hentry, rfl, rfl⟩
    exact ⟨old, hentry, rfl⟩
  · rintro ⟨old, hentry, rfl⟩
    exact ⟨name, old, hentry, rfl, rfl⟩

/-- It makes no difference whether modules are disabled first or last. -/
theorem enabled_withoutRepeats (modules : OrderedMap String Module) :
    enabled (withoutRepeats modules) = withoutRepeats (enabled modules) := by
  simp only [enabled, withoutRepeats, OrderedMap.filter, List.filter_map]
  rfl

/-- Once repeats are left out there are none. -/
theorem eraseDups_eraseDups (names : List String) : names.eraseDups.eraseDups = names.eraseDups := by
  cases names with
  | nil => rfl
  | cons name rest =>
    have hrest : (rest.filter fun other => !other == name).eraseDups.filter (fun other => !other == name) =
        (rest.filter fun other => !other == name).eraseDups :=
      List.filter_eq_self.mpr fun other hother => (List.mem_filter.mp (List.mem_eraseDups.mp hother)).2
    rw [List.eraseDups_cons, List.eraseDups_cons, hrest, eraseDups_eraseDups]
termination_by names.length
decreasing_by exact Nat.lt_succ_of_le (List.length_filter_le _ _)

/-- To a search, modules without repeated needs look like those with them. -/
theorem needsAlike_withoutRepeats (modules : OrderedMap String Module) (name : String) :
    NeedsAlike (withoutRepeats modules) modules name := by
  unfold NeedsAlike
  rw [find?_withoutRepeats, Option.map_map]
  congr 1
  funext module
  exact eraseDups_eraseDups module.dependsOn

/-- To list a need again behind its first place changes nothing: neither an order nor an error and
the modules that it names. -/
theorem resolve_withoutRepeats (modules : OrderedMap String Module) :
    resolve (withoutRepeats modules) = resolve modules := by
  have hsearches : searchRoots (withoutRepeats (enabled modules)) (enabled modules).keys {} =
      searchRoots (enabled modules) (enabled modules).keys {} :=
    searchRoots_congr (fun _ => True)
      (fun name _ => needsAlike_withoutRepeats (enabled modules) name)
      (fun _ _ _ _ _ _ => trivial) (fun _ _ => trivial) {}
  rw [resolve_eq_searchRoots, resolve_eq_searchRoots, enabled_withoutRepeats, keys_withoutRepeats,
    hsearches]

end TerraStack.Order
