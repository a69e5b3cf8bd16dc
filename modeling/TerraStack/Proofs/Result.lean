namespace TerraStack

variable {ε δ α β : Type}

/-- A computation in two parts ends well if both parts do. -/
theorem bind_eq_ok {result : Except ε α} {next : α → Except ε β} {value : β} :
    (result >>= next) = .ok value ↔ ∃ middle, result = .ok middle ∧ next middle = .ok value := by
  cases result with
  | error error => exact ⟨nofun, nofun⟩
  | ok middle =>
    refine ⟨fun hnext => ⟨middle, rfl, hnext⟩, ?_⟩
    rintro ⟨_, hmiddle, hnext⟩
    cases hmiddle
    exact hnext

/-- A computation in two parts fails as the first fails, or as the second does behind the first. -/
theorem bind_eq_error {result : Except ε α} {next : α → Except ε β} {error : ε} :
    (result >>= next) = .error error ↔
      result = .error error ∨ ∃ middle, result = .ok middle ∧ next middle = .error error := by
  cases result with
  | error actual =>
    refine ⟨fun herror => .inl (congrArg Except.error (Except.error.inj herror)), ?_⟩
    rintro (herror | ⟨_, hmiddle, _⟩)
    · exact congrArg Except.error (Except.error.inj herror)
    · cases hmiddle
  | ok middle =>
    refine ⟨fun hnext => .inr ⟨middle, rfl, hnext⟩, ?_⟩
    rintro (herror | ⟨_, hmiddle, hnext⟩)
    · cases herror
    · cases hmiddle
      exact hnext

/-- A changed result is a good one if the result was. -/
theorem map_eq_ok {result : Except ε α} {change : α → β} {value : β} :
    result.map change = .ok value ↔ ∃ old, result = .ok old ∧ change old = value := by
  cases result with
  | error error => exact ⟨nofun, nofun⟩
  | ok old => simp [Except.map]

/-- To change a good result changes no error. -/
theorem map_eq_error {result : Except ε α} {change : α → β} {error : ε} :
    result.map change = .error error ↔ result = .error error := by
  cases result with
  | error actual => simp [Except.map]
  | ok value => exact iff_of_false nofun nofun

/-- To change an error changes no good result. -/
theorem mapError_eq_ok {result : Except ε α} {change : ε → δ} {value : α} :
    result.mapError change = .ok value ↔ result = .ok value := by
  cases result with
  | error error => exact ⟨nofun, nofun⟩
  | ok actual =>
    constructor
    · intro hok
      cases hok
      rfl
    · intro hok
      cases hok
      rfl

/-- A value that is there was no error. -/
theorem eq_ok_of_toOption {result : Except ε α} {value : α} (hvalue : result.toOption = some value) :
    result = .ok value := by
  cases result with
  | error error => cases hvalue
  | ok actual =>
    cases hvalue
    rfl

end TerraStack
