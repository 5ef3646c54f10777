/-! # Steps that can fail

When a step that can fail succeeds: a sequence if both of its parts do
(`Except.bind_eq_ok`), and a check if what it refuses does not hold (`Except.check_eq_ok`). A
sequence fails where the first of its parts does that fails (`Except.bind_eq_error`), and so it
fails with what its parts fail with (`Except.FailsWith.bind`). A sequence of steps that also move a
state succeeds in the same way, its second part where the first has left off
(`EStateM.bind_eq_ok`).
-/

namespace WasmGas

variable {ε α β : Type}

/-- A sequence succeeds if both of its parts do. -/
theorem Except.bind_eq_ok {first : Except ε α} {next : α → Except ε β} {b : β} :
    (first >>= next) = .ok b ↔ ∃ a, first = .ok a ∧ next a = .ok b := by
  cases first with
  | ok a =>
      constructor
      · intro done
        exact ⟨a, rfl, done⟩
      · rintro ⟨_, same, done⟩
        cases same
        exact done
  | error fault =>
      constructor
      · intro done
        cases done
      · rintro ⟨_, same, _⟩
        cases same

/-- A sequence fails where the first of its parts does that fails. -/
theorem Except.bind_eq_error {first : Except ε α} {next : α → Except ε β} {fault : ε} :
    (first >>= next) = .error fault ↔
      first = .error fault ∨ ∃ a, first = .ok a ∧ next a = .error fault := by
  cases first with
  | ok a =>
      constructor
      · intro failed
        exact Or.inr ⟨a, rfl, failed⟩
      · rintro (failed | ⟨_, same, failed⟩)
        · cases failed
        · cases same
          exact failed
  | error other =>
      constructor
      · intro failed
        cases failed
        exact Or.inl rfl
      · rintro (failed | ⟨_, same, _⟩)
        · cases failed
          rfl
        · cases same

/-- A check succeeds if what it refuses does not hold. -/
theorem Except.check_eq_ok {p : Prop} [Decidable p] {fault : ε} {a b : α} :
    (if p then throw fault else return a : Except ε α) = .ok b ↔ ¬ p ∧ a = b := by
  by_cases refused : p
  · rw [if_pos refused]
    constructor
    · intro done
      cases done
    · rintro ⟨accepted, _⟩
      exact absurd refused accepted
  · rw [if_neg refused]
    constructor
    · intro done
      cases done
      exact ⟨refused, rfl⟩
    · rintro ⟨_, rfl⟩
      rfl

/-- Another name for the fault does not matter where there is none. -/
theorem Except.mapError_eq_ok {ε' : Type} {step : Except ε α} {rename : ε → ε'} {a : α} :
    step.mapError rename = .ok a ↔ step = .ok a := by
  cases step with
  | ok other =>
      change Except.ok other = .ok a ↔ Except.ok other = .ok a
      rw [Except.ok.injEq, Except.ok.injEq]
  | error fault =>
      constructor
      · intro done
        cases done
      · intro done
        cases done

/-- Whatever a step fails with is of some kind. -/
def Except.FailsWith (kind : ε → Prop) (step : Except ε α) : Prop :=
  ∀ fault, step = .error fault → kind fault

namespace Except.FailsWith

variable {kind other : ε → Prop}

theorem pure (a : α) : FailsWith kind (Pure.pure a : Except ε α) := by
  intro fault failed
  cases failed

theorem throw {fault : ε} (known : kind fault) :
    FailsWith kind (MonadExcept.throw fault : Except ε α) := by
  intro _ failed
  cases failed
  exact known

theorem bind {first : Except ε α} {next : α → Except ε β} (one : FailsWith kind first)
    (rest : ∀ a, FailsWith kind (next a)) : FailsWith kind (first >>= next) := by
  intro fault failed
  rcases Except.bind_eq_error.mp failed with failed | ⟨a, _, failed⟩
  · exact one fault failed
  · exact rest a fault failed

theorem check {p : Prop} [Decidable p] {fault : ε} {a : α} (known : p → kind fault) :
    FailsWith kind (if p then MonadExcept.throw fault else Pure.pure a : Except ε α) := by
  by_cases refused : p
  · rw [if_pos refused]
    exact throw (known refused)
  · rw [if_neg refused]
    exact pure a

theorem of_ok {step : Except ε α} {a : α} (done : step = .ok a) : FailsWith kind step := by
  intro fault failed
  rw [done] at failed
  cases failed

/-- What a sequence fails with, its first part fails with. -/
theorem first {first : Except ε α} {next : α → Except ε β}
    (fails : FailsWith kind (first >>= next)) : FailsWith kind first :=
  fun fault failed => fails fault (Except.bind_eq_error.mpr (Or.inl failed))

theorem mono {step : Except ε α} (fails : FailsWith kind step)
    (wider : ∀ fault, kind fault → other fault) : FailsWith other step :=
  fun fault failed => wider fault (fails fault failed)

end Except.FailsWith

/-! ## Steps that move a state -/

variable {σ : Type} {first : EStateM ε σ α} {next : α → EStateM ε σ β} {s t : σ}

/-- A sequence goes on where its first part has left off. -/
theorem EStateM.bind_of_ok {a : α} (done : first s = .ok a t) : (first >>= next) s = next a t := by
  change EStateM.bind first next s = next a t
  rw [EStateM.bind, done]

/-- A sequence succeeds if both of its parts do, one after the other. -/
theorem EStateM.bind_eq_ok {b : β} :
    (first >>= next) s = .ok b t ↔
      ∃ a between, first s = .ok a between ∧ next a between = .ok b t := by
  constructor
  · intro done
    change EStateM.bind first next s = .ok b t at done
    rw [EStateM.bind] at done
    cases one : first s with
    | ok a between =>
        rw [one] at done
        exact ⟨a, between, rfl, done⟩
    | error fault left =>
        rw [one] at done
        cases done
  · rintro ⟨a, between, one, done⟩
    rw [EStateM.bind_of_ok one, done]

end WasmGas
