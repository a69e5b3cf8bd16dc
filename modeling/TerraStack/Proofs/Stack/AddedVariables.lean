import Mathlib.Data.List.Nodup
import TerraStack.Stack.WellKnown

namespace TerraStack

variable {declared : OrderedMap String Variable} {topLevel : OrderedMap String Hcl.Value}
  {table : List WellKnownVariable}

/-- The variables of a table for which there is a value and no declaration. -/
def addedFrom (table : List WellKnownVariable) (declared : OrderedMap String Variable)
    (topLevel : OrderedMap String Hcl.Value) : List (String × Variable) :=
  table.filterMap fun known =>
    if declared.contains known.name then none
    else (topLevel.find? known.name).map fun value => (known.name, known.declaration value)

/-- A declaration under another name leaves open what was open. -/
theorem addedFrom_insert {name : String} (variable_ : Variable)
    (hother : name ∉ table.map WellKnownVariable.name) :
    addedFrom table (declared.insert name variable_) topLevel = addedFrom table declared topLevel := by
  refine List.filterMap_congr fun known hknown => ?_
  have hne : known.name ≠ name := by
    rintro rfl
    exact hother (List.mem_map_of_mem hknown)
  have hcontains : (declared.insert name variable_).contains known.name =
      declared.contains known.name := by
    unfold OrderedMap.contains
    rw [OrderedMap.find?_insert, if_neg hne]
  rw [hcontains]

/-- The fold asks the map that it fills, and still what it adds is found by asking the declared
variables alone: the names of the table are distinct. -/
theorem entries_foldl_declareKnown (hnames : (table.map WellKnownVariable.name).Nodup) :
    (table.foldl (declareKnown topLevel) declared).entries =
      declared.entries ++ addedFrom table declared topLevel := by
  induction table generalizing declared with
  | nil => exact (List.append_nil _).symm
  | cons known rest ih =>
    rw [List.map_cons, List.nodup_cons] at hnames
    rw [List.foldl_cons, ih hnames.2]
    by_cases hdeclared : declared.contains known.name = true
    · simp [declareKnown, addedFrom, hdeclared]
    · cases hvalue : topLevel.find? known.name with
      | none => simp [declareKnown, addedFrom, hdeclared, hvalue]
      | some value =>
        have hnew : known.name ∉ declared.entries.map Prod.fst := by
          rwa [OrderedMap.contains_iff_mem_keys] at hdeclared
        have hstep : declareKnown topLevel declared known =
            declared.insert known.name (known.declaration value) := by
          simp [declareKnown, hdeclared, hvalue]
        rw [hstep, addedFrom_insert _ hnames.1, OrderedMap.entries_insert,
          OrderedMap.setEntry_of_not_mem hnew]
        simp [addedFrom, hdeclared, hvalue]

theorem map_fst_addedFrom (table : List WellKnownVariable) (declared : OrderedMap String Variable)
    (topLevel : OrderedMap String Hcl.Value) :
    (addedFrom table declared topLevel).map Prod.fst =
      (table.map WellKnownVariable.name).filter fun name =>
        topLevel.contains name && !declared.contains name := by
  unfold addedFrom
  induction table with
  | nil => rfl
  | cons known rest ih =>
    rw [List.filterMap_cons, List.map_cons, List.filter_cons, ← ih]
    unfold OrderedMap.contains
    cases topLevel.find? known.name <;> cases declared.find? known.name <;> simp

/-- No two well-known variables have one name. -/
theorem nodup_wellKnownVariables : (wellKnownVariables.map WellKnownVariable.name).Nodup := by
  decide

/-- The well-known variables that a stack gets. -/
def addedVariables (declared : OrderedMap String Variable) (topLevel : OrderedMap String Hcl.Value) :
    List (String × Variable) :=
  addedFrom wellKnownVariables declared topLevel

/-- What a stack declares comes first, and behind it what is added. -/
theorem entries_allVariables (declared : OrderedMap String Variable)
    (topLevel : OrderedMap String Hcl.Value) :
    (allVariables declared topLevel).entries = declared.entries ++ addedVariables declared topLevel :=
  entries_foldl_declareKnown nodup_wellKnownVariables

/-- What a stack declares it has as it declares it. -/
theorem find?_allVariables_of_declared {name : String} {variable_ : Variable}
    (hdeclared : declared.find? name = some variable_) :
    (allVariables declared topLevel).find? name = some variable_ := by
  rw [OrderedMap.find?_eq_some_iff, entries_allVariables]
  exact List.mem_append_left _ (OrderedMap.find?_eq_some_iff.mp hdeclared)

theorem names_addedVariables (declared : OrderedMap String Variable)
    (topLevel : OrderedMap String Hcl.Value) :
    (addedVariables declared topLevel).map Prod.fst =
      (wellKnownVariables.map WellKnownVariable.name).filter fun name =>
        topLevel.contains name && !declared.contains name :=
  map_fst_addedFrom wellKnownVariables declared topLevel

theorem nodup_names_addedVariables (declared : OrderedMap String Variable)
    (topLevel : OrderedMap String Hcl.Value) :
    ((addedVariables declared topLevel).map Prod.fst).Nodup := by
  rw [names_addedVariables]
  exact nodup_wellKnownVariables.filter _

/-- A declaration that says what the table says of a variable. The default is that of the table, or
the value at hand if the table has none. -/
structure WellKnownVariable.IsDeclaredAs (known : WellKnownVariable) (value : Hcl.Value)
    (variable_ : Variable) : Prop where
  description : variable_.description = some known.description
  type : variable_.type = some known.type
  own_default : ∀ text, known.default = some text → variable_.default = some (.string text)
  open_default : known.default = none → variable_.default = some value
  sensitive : variable_.sensitive = false
  validation : variable_.validation = none

/-- A declaration that is made for a well-known variable says what the table says of it. -/
theorem WellKnownVariable.isDeclaredAs_declaration (known : WellKnownVariable) (value : Hcl.Value) :
    known.IsDeclaredAs value (known.declaration value) where
  description := rfl
  type := rfl
  own_default text htext := by simp [declaration, htext]
  open_default hnone := by simp [declaration, hnone]
  sensitive := rfl
  validation := rfl

/-- Each variable that is added is declared for a well-known one that has a value. -/
theorem exists_known_of_mem_addedVariables {entry : String × Variable}
    (hentry : entry ∈ addedVariables declared topLevel) :
    ∃ known ∈ wellKnownVariables, ∃ value, topLevel.find? known.name = some value ∧
      entry = (known.name, known.declaration value) := by
  obtain ⟨known, hknown, hadded⟩ := List.mem_filterMap.mp hentry
  split at hadded
  · cases hadded
  · obtain ⟨value, hvalue, rfl⟩ := Option.map_eq_some_iff.mp hadded
    exact ⟨known, hknown, value, hvalue, rfl⟩

/-- Each variable that is added is declared as the table says. -/
theorem isDeclaredAs_of_mem_addedVariables {entry : String × Variable}
    (hentry : entry ∈ addedVariables declared topLevel) :
    ∃ known ∈ wellKnownVariables, ∃ value, entry.1 = known.name ∧
      topLevel.find? known.name = some value ∧ known.IsDeclaredAs value entry.2 := by
  obtain ⟨known, hknown, value, hvalue, rfl⟩ := exists_known_of_mem_addedVariables hentry
  exact ⟨known, hknown, value, rfl, hvalue, known.isDeclaredAs_declaration value⟩

/-- The names of all variables: the declared ones, and the added ones in the order of the table. -/
theorem keys_allVariables (declared : OrderedMap String Variable)
    (topLevel : OrderedMap String Hcl.Value) :
    (allVariables declared topLevel).keys =
      declared.keys ++ (wellKnownVariables.map WellKnownVariable.name).filter fun name =>
        topLevel.contains name && !declared.contains name := by
  unfold OrderedMap.keys
  rw [entries_allVariables, List.map_append, names_addedVariables]

/-- The variables of a stack are those that it declares, and those that are well known and have a
value. -/
theorem contains_allVariables {name : String} :
    (allVariables declared topLevel).contains name = true ↔
      declared.contains name = true ∨
        topLevel.contains name = true ∧ name ∈ wellKnownVariables.map WellKnownVariable.name := by
  rw [OrderedMap.contains_iff_mem_keys, keys_allVariables, List.mem_append,
    ← OrderedMap.contains_iff_mem_keys, List.mem_filter, Bool.and_eq_true, Bool.not_eq_true']
  cases declared.contains name <;> simp [and_comm]

/-- Behind the well-known variables nothing is left to be added. -/
theorem addedVariables_allVariables (declared : OrderedMap String Variable)
    (topLevel : OrderedMap String Hcl.Value) :
    addedVariables (allVariables declared topLevel) topLevel = [] := by
  rw [← List.map_eq_nil_iff, names_addedVariables, List.filter_eq_nil_iff]
  intro name hknown hadded
  rw [Bool.and_eq_true, Bool.not_eq_true', ← Bool.not_eq_true] at hadded
  obtain ⟨hgiven, hmissing⟩ := hadded
  exact hmissing (contains_allVariables.mpr (.inr ⟨hgiven, hknown⟩))

/-- A variable that has been added is declared from then on, so nothing is added twice. -/
theorem allVariables_allVariables (declared : OrderedMap String Variable)
    (topLevel : OrderedMap String Hcl.Value) :
    allVariables (allVariables declared topLevel) topLevel = allVariables declared topLevel := by
  apply OrderedMap.ext
  rw [entries_allVariables, addedVariables_allVariables, List.append_nil]

/-- Of the root of a stack only what stands under well-known names matters. -/
theorem allVariables_congr {other : OrderedMap String Hcl.Value}
    (hsame : ∀ name ∈ wellKnownVariables.map WellKnownVariable.name,
      other.find? name = topLevel.find? name) :
    allVariables declared other = allVariables declared topLevel := by
  apply OrderedMap.ext
  have hadded : addedVariables declared other = addedVariables declared topLevel := by
    unfold addedVariables addedFrom
    refine List.filterMap_congr fun known hknown => ?_
    rw [hsame known.name (List.mem_map_of_mem hknown)]
  rw [entries_allVariables, entries_allVariables, hadded]

/-- The variables of a stack are the declared ones as they are, and behind them, in the order of the
table, the well-known ones that have a value and no declaration. To add them again changes nothing,
and of the root only the values under well-known names count. -/
theorem allVariables_extends_declared (declared : OrderedMap String Variable)
    (topLevel : OrderedMap String Hcl.Value) :
    (∃ added, (allVariables declared topLevel).entries = declared.entries ++ added ∧
      added.map Prod.fst = (wellKnownVariables.map WellKnownVariable.name).filter
        (fun name => topLevel.contains name && !declared.contains name) ∧
      (added.map Prod.fst).Nodup ∧
      ∀ entry ∈ added, ∃ known ∈ wellKnownVariables, ∃ value, entry.1 = known.name ∧
        topLevel.find? known.name = some value ∧ known.IsDeclaredAs value entry.2) ∧
    allVariables (allVariables declared topLevel) topLevel = allVariables declared topLevel ∧
    ∀ other : OrderedMap String Hcl.Value,
      (∀ name ∈ wellKnownVariables.map WellKnownVariable.name,
        other.find? name = topLevel.find? name) →
      allVariables declared other = allVariables declared topLevel := by
  refine ⟨⟨addedVariables declared topLevel, entries_allVariables declared topLevel,
    names_addedVariables declared topLevel, nodup_names_addedVariables declared topLevel,
    fun entry => isDeclaredAs_of_mem_addedVariables⟩, ?_, ?_⟩
  · exact allVariables_allVariables declared topLevel
  · intro other hsame
    exact allVariables_congr hsame

/-- Variables of which one is well known. -/
def stagedVariables : OrderedMap String Variable :=
  .ofList [("custom", {}), ("environment", { description := some "Deployment stage" })]

/-- The root of a stack with a value under two well-known names and one that is not. -/
def zonalRoot : OrderedMap String Hcl.Value :=
  .ofList [("zone", .string "us-east1-b"), ("team", .string "core"), ("region", .string "us-east1"),
    ("environment", .string "prod")]

/-- The same values under well-known names, in another order and without the team. -/
def reorderedRoot : OrderedMap String Hcl.Value :=
  .ofList [("environment", .string "prod"), ("region", .string "us-east1"),
    ("zone", .string "us-east1-b")]

/-- From both roots the region comes before the zone, with the default of the table. -/
theorem reorderedRoot_extends_alike :
    (∀ name ∈ wellKnownVariables.map WellKnownVariable.name,
      reorderedRoot.find? name = zonalRoot.find? name) ∧
    allVariables stagedVariables reorderedRoot = allVariables stagedVariables zonalRoot ∧
    (allVariables stagedVariables zonalRoot).keys = ["custom", "environment", "region", "zone"] ∧
    ((allVariables stagedVariables zonalRoot).find? "region").map Variable.default =
      some (some (.string "us-central1")) := by
  have hsame : ∀ name ∈ wellKnownVariables.map WellKnownVariable.name,
      reorderedRoot.find? name = zonalRoot.find? name := by
    intro name hname
    simp only [wellKnownVariables, List.map_cons, List.map_nil, List.mem_cons, List.not_mem_nil,
      or_false] at hname
    rcases hname with rfl | rfl | rfl | rfl | rfl | rfl <;> rfl
  have hextends := allVariables_extends_declared stagedVariables zonalRoot
  exact ⟨hsame, hextends.2.2 reorderedRoot hsame, rfl, rfl⟩

end TerraStack
