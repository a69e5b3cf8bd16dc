import TerraStack.Proofs.Order.Search
import TerraStack.Proofs.Result

namespace TerraStack.Order

variable {modules other : OrderedMap String Module} {colouring last : Colouring}
  {referrer name : String} {names : List String}

/-- What holds of a search of no names holds of all searches, if it is carried over from the needs
of a new module and from the remaining names to the whole list: to search a list is to search the
first name, with all that it needs if it is new, and then the rest. -/
theorem searchEach_induction (modules : OrderedMap String Module)
    {motive : String → List String → Colouring → Prop}
    (nil : ∀ referrer colouring, motive referrer [] colouring)
    (cons : ∀ referrer name rest colouring,
      (∀ module, colouring.colour name = .white → modules.find? name = some module →
        motive name module.dependsOn (colouring.paint name .grey)) →
      (∀ middle, reached (search modules referrer name colouring) = .ok middle →
        motive referrer rest middle) →
      motive referrer (name :: rest) colouring)
    (referrer : String) (names : List String) (colouring : Colouring) :
    motive referrer names colouring := by
  -- The motive for a single name is what the case of a list asks of it.
  refine searchEach.induct modules
    (fun _ name colouring => ∀ module, colouring.colour name = .white →
      modules.find? name = some module → motive name module.dependsOn (colouring.paint name .grey))
    motive ?black ?grey ?missing ?module nil ?cons referrer names colouring
  case black =>
    intro _ name colouring hblack module hwhite
    rw [hblack] at hwhite
    cases hwhite
  case grey =>
    intro _ name colouring hgrey module hwhite
    rw [hgrey] at hwhite
    cases hwhite
  case missing =>
    intro _ name colouring _ hmissing module _ hmodule
    rw [hmissing] at hmodule
    cases hmodule
  case module =>
    intro _ name colouring _ module hmodule hneeds found _ hfound
    rw [hmodule] at hfound
    cases hfound
    exact hneeds
  case cons =>
    intro referrer colouring name rest hneeds hrest
    refine cons referrer name rest colouring hneeds fun middle hmiddle => ?_
    obtain ⟨later, -, rfl⟩ := map_eq_ok.mp hmiddle
    exact hrest later later.property

/-- A search for one name is one for a list of names. -/
theorem reached_search_eq (modules : OrderedMap String Module) (referrer name : String)
    (colouring : Colouring) :
    reached (search modules referrer name colouring) =
      reached (searchEach modules referrer [name] colouring) := by
  rw [reached_searchEach_cons]
  cases reached (search modules referrer name colouring) with
  | error error => rfl
  | ok last => exact (reached_searchEach_nil modules referrer last).symm

/-- A search for a finished module does nothing. -/
theorem reached_search_of_black (hblack : colouring.colour name = .black) :
    reached (search modules referrer name colouring) = .ok colouring := by
  rw [reached_search, hblack]

/-- To paint a module changes its colour and no other. -/
theorem Colouring.colour_paint (colouring : Colouring) (name other : String) (colour : Colour) :
    (colouring.paint name colour).colour other =
      if other = name then colour else colouring.colour other :=
  rfl

theorem Colouring.colour_finish (colouring : Colouring) (name other : String) :
    (colouring.finish name).colour other = if other = name then .black else colouring.colour other :=
  rfl

/-- What was finished still is, and comes first in the order. -/
structure Colouring.Precedes (first last : Colouring) : Prop where
  black : ∀ name, first.colour name = .black → last.colour name = .black
  finished : first.finished <:+ last.finished

namespace Colouring.Precedes

variable {first middle : Colouring}

theorem refl (colouring : Colouring) : colouring.Precedes colouring :=
  ⟨fun _ => id, List.suffix_rfl⟩

theorem trans (hfirst : first.Precedes middle) (hlast : middle.Precedes last) :
    first.Precedes last :=
  ⟨fun name hblack => hlast.black name (hfirst.black name hblack), hfirst.finished.trans hlast.finished⟩

/-- To reach a new module undoes nothing that was finished. -/
theorem paint (hwhite : colouring.colour name = .white) (colour : Colour) :
    colouring.Precedes (colouring.paint name colour) where
  black other hblack := by
    have hother : other ≠ name := fun heq => by simp [heq, hwhite] at hblack
    rw [Colouring.colour_paint, if_neg hother, hblack]
  finished := List.suffix_rfl

/-- To finish a module puts it in front of what was finished. -/
theorem finish (colouring : Colouring) (name : String) : colouring.Precedes (colouring.finish name) where
  black other hblack := by
    rw [Colouring.colour_finish, hblack, ite_self]
  finished := List.suffix_cons name colouring.finished

end Colouring.Precedes

/-- A search that comes to its end has finished all names and touched nothing that was finished. -/
theorem precedes_of_searchEach (hlast : reached (searchEach modules referrer names colouring) = .ok last) :
    colouring.Precedes last ∧ ∀ name ∈ names, last.colour name = .black := by
  induction referrer, names, colouring using searchEach_induction modules generalizing last with
  | nil referrer colouring =>
    rw [reached_searchEach_nil] at hlast
    cases hlast
    exact ⟨.refl colouring, nofun⟩
  | cons referrer name rest colouring hneeds hrest =>
    rw [reached_searchEach_cons] at hlast
    obtain ⟨middle, hmiddle, hlast⟩ := bind_eq_ok.mp hlast
    obtain ⟨hlater, hblack⟩ := hrest middle hmiddle hlast
    have hname : colouring.Precedes middle ∧ middle.colour name = .black := by
      rw [reached_search] at hmiddle
      split at hmiddle
      · next hcolour =>
        cases hmiddle
        exact ⟨.refl colouring, hcolour⟩
      · cases hmiddle
      · cases hmiddle
      · next module hwhite hmodule =>
        obtain ⟨next, hnext, rfl⟩ := map_eq_ok.mp hmiddle
        have hpainted := Colouring.Precedes.paint hwhite .grey
        have hfinished := Colouring.Precedes.finish next name
        refine ⟨(hpainted.trans (hneeds module hwhite hmodule hnext).1).trans hfinished, ?_⟩
        rw [Colouring.colour_finish, if_pos rfl]
    refine ⟨hname.1.trans hlater, fun other hother => ?_⟩
    rcases List.mem_cons.mp hother with rfl | hother
    · exact hlater.black other hname.2
    · exact hblack other hother

/-- A search that comes to its end has finished its module and undone nothing. -/
theorem precedes_of_search (hlast : reached (search modules referrer name colouring) = .ok last) :
    colouring.Precedes last ∧ last.colour name = .black := by
  rw [reached_search_eq] at hlast
  obtain ⟨hprecedes, hblack⟩ := precedes_of_searchEach hlast
  exact ⟨hprecedes, hblack name List.mem_cons_self⟩

/-- A name that is finished may be left out of a search. -/
theorem searchEach_filter_of_black {known : String} (hblack : colouring.colour known = .black) :
    reached (searchEach modules referrer (names.filter fun name => !name == known) colouring) =
      reached (searchEach modules referrer names colouring) := by
  induction names generalizing colouring with
  | nil => rfl
  | cons name rest ih =>
    rw [reached_searchEach_cons]
    by_cases hknown : name = known
    · subst hknown
      have hsearch : reached (search modules referrer name colouring) = .ok colouring :=
        reached_search_of_black hblack
      rw [List.filter_cons_of_neg (by simp), ih hblack, hsearch]
      rfl
    · rw [List.filter_cons_of_pos (by simpa using hknown), reached_searchEach_cons]
      cases hname : reached (search modules referrer name colouring) with
      | error error => rfl
      | ok middle => exact ih ((precedes_of_search hname).1.black known hblack)

/-- To search names again behind their first places changes nothing: they are finished by then. -/
theorem searchEach_eraseDups (modules : OrderedMap String Module) (referrer : String)
    (names : List String) (colouring : Colouring) :
    reached (searchEach modules referrer names.eraseDups colouring) =
      reached (searchEach modules referrer names colouring) := by
  cases names with
  | nil => rfl
  | cons name rest =>
    rw [List.eraseDups_cons, reached_searchEach_cons, reached_searchEach_cons]
    cases hname : reached (search modules referrer name colouring) with
    | error error => rfl
    | ok middle =>
      have hrest := searchEach_eraseDups modules referrer (rest.filter fun other => !other == name) middle
      have hblack : middle.colour name = .black := (precedes_of_search hname).2
      exact hrest.trans (searchEach_filter_of_black hblack)
termination_by names.length
decreasing_by exact Nat.lt_succ_of_le (List.length_filter_le _ _)

/-- A name stands for no module in either map, or for modules that list the same needs, each in the
same first place. -/
def NeedsAlike (modules other : OrderedMap String Module) (name : String) : Prop :=
  (modules.find? name).map (·.dependsOn.eraseDups) = (other.find? name).map (·.dependsOn.eraseDups)

/-- Searches have the same result where all modules within reach need the same. -/
theorem searchEach_congr (within : String → Prop)
    (halike : ∀ name, within name → NeedsAlike modules other name)
    (hclosed : ∀ name module, within name → modules.find? name = some module →
      ∀ need ∈ module.dependsOn, within need)
    (hnames : ∀ name ∈ names, within name) :
    reached (searchEach modules referrer names colouring) =
      reached (searchEach other referrer names colouring) := by
  induction referrer, names, colouring using searchEach_induction modules with
  | nil referrer colouring => rw [reached_searchEach_nil, reached_searchEach_nil]
  | cons referrer name rest colouring hneeds hrest =>
    have hname : within name := hnames name List.mem_cons_self
    have hsearch : reached (search modules referrer name colouring) =
        reached (search other referrer name colouring) := by
      have hsame := halike name hname
      unfold NeedsAlike at hsame
      rw [reached_search, reached_search]
      cases hcolour : colouring.colour name with
      | black => rfl
      | grey => rfl
      | white =>
        cases hmodule : modules.find? name with
        | none =>
          rw [hmodule, Option.map_none, eq_comm, Option.map_eq_none_iff] at hsame
          rw [hsame]
        | some module =>
          rw [hmodule, Option.map_some, eq_comm, Option.map_eq_some_iff] at hsame
          obtain ⟨counterpart, hcounterpart, hdependsOn⟩ := hsame
          have hreach := hneeds module hcolour hmodule (hclosed name module hname hmodule)
          rw [hcounterpart]
          dsimp only
          rw [hreach, ← searchEach_eraseDups other name module.dependsOn, ← hdependsOn,
            searchEach_eraseDups]
    rw [reached_searchEach_cons, reached_searchEach_cons, hsearch]
    cases hmiddle : reached (search other referrer name colouring) with
    | error error => rfl
    | ok middle =>
      exact hrest middle (hsearch.trans hmiddle) fun name hmem => hnames name (List.mem_cons_of_mem _ hmem)

/-- Search names one after another, each on its own account. -/
def searchRoots (modules : OrderedMap String Module) (roots : List String) (colouring : Colouring) :
    Except StackError Colouring :=
  roots.foldlM (fun colouring root => reached (search modules root root colouring)) colouring

/-- The order that is found is the one in which a search of all roots finishes them. -/
theorem resolve_eq_searchRoots (modules : OrderedMap String Module) :
    resolve modules =
      (searchRoots (enabled modules) (enabled modules).keys {}).map fun last => last.finished.reverse := by
  rw [resolve_eq_searchAll]
  unfold searchAll searchRoots
  cases List.foldlM (fun colouring root => reached (search (enabled modules) root root colouring)) {}
    (enabled modules).keys with
  | error error => rfl
  | ok last => rfl

theorem searchRoots_cons (modules : OrderedMap String Module) (root : String) (roots : List String)
    (colouring : Colouring) :
    searchRoots modules (root :: roots) colouring =
      reached (search modules root root colouring) >>= searchRoots modules roots :=
  List.foldlM_cons

theorem searchRoots_append (modules : OrderedMap String Module) (roots more : List String)
    (colouring : Colouring) :
    searchRoots modules (roots ++ more) colouring =
      searchRoots modules roots colouring >>= searchRoots modules more :=
  List.foldlM_append

/-- Roots are searched alike where all modules within their reach list the same needs. -/
theorem searchRoots_congr (within : String → Prop) {roots : List String}
    (halike : ∀ name, within name → NeedsAlike modules other name)
    (hclosed : ∀ name module, within name → modules.find? name = some module →
      ∀ need ∈ module.dependsOn, within need)
    (hroots : ∀ root ∈ roots, within root) (colouring : Colouring) :
    searchRoots modules roots colouring = searchRoots other roots colouring := by
  induction roots generalizing colouring with
  | nil => rfl
  | cons root roots ih =>
    rw [List.forall_mem_cons] at hroots
    have hsearch : reached (search modules root root colouring) =
        reached (search other root root colouring) := by
      rw [reached_search_eq, reached_search_eq]
      exact searchEach_congr within halike hclosed (List.forall_mem_singleton.mpr hroots.1)
    rw [searchRoots_cons, searchRoots_cons, hsearch]
    cases reached (search other root root colouring) with
    | error error => rfl
    | ok middle => exact ih hroots.2 middle

/-- Whatever roots are searched, nothing that was finished is undone. -/
theorem precedes_of_searchRoots {roots : List String}
    (hlast : searchRoots modules roots colouring = .ok last) : colouring.Precedes last := by
  induction roots generalizing colouring with
  | nil =>
    cases hlast
    exact .refl _
  | cons root roots ih =>
    rw [searchRoots_cons] at hlast
    obtain ⟨middle, hmiddle, hlast⟩ := bind_eq_ok.mp hlast
    exact (precedes_of_search hmiddle).1.trans (ih hlast)

end TerraStack.Order
