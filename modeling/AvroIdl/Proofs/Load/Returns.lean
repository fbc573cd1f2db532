import AvroIdl.Schema.Load

/-
Loads that succeed: what each building block returns, and in which state it leaves off.
-/
set_option autoImplicit false

namespace AvroIdl.Load

variable {α β : Type} {s t : Loading}

def outcome (action : Load α) (s : Loading) : Except LoadError α × Loading :=
  action.run.run s

/-- The load succeeds in the state `s`, gives `a` and leaves the state `t`. -/
def Returns (action : Load α) (s : Loading) (a : α) (t : Loading) : Prop :=
  outcome action s = (.ok a, t)

theorem returns_iff_of_outcome {action : Load α} {a b : α} {m : Loading}
    (same : outcome action s = (.ok a, m)) : Returns action s b t ↔ a = b ∧ m = t := by
  rw [Returns, same, Prod.mk.injEq, Except.ok.injEq]

theorem not_returns_of_outcome {action : Load α} {e : LoadError} {b : α} {m : Loading}
    (same : outcome action s = (.error e, m)) : ¬ Returns action s b t := by
  intro run
  rw [Returns, same] at run
  cases congrArg Prod.fst run

@[simp] theorem returns_pure_iff (a b : α) : Returns (pure a) s b t ↔ a = b ∧ s = t :=
  returns_iff_of_outcome rfl

@[simp] theorem not_returns_throw (e : LoadError) (a : α) : ¬ Returns (throw e) s a t :=
  not_returns_of_outcome rfl

theorem outcome_bind (action : Load α) (next : α → Load β) (s : Loading) :
    outcome (action >>= next) s =
      match outcome action s with
      | (.ok a, m) => outcome (next a) m
      | (.error e, m) => (.error e, m) := by
  change (ExceptT.bindCont next (outcome action s).1).run (outcome action s).2 = _
  rcases outcome action s with ⟨_ | _, m⟩ <;> rfl

theorem outcome_bind_of_returns {action : Load α} {a : α} (returns : Returns action s a t)
    (next : α → Load β) : outcome (action >>= next) s = outcome (next a) t := by
  rw [outcome_bind, returns]

theorem outcome_bind_of_error {action : Load α} {e : LoadError}
    (fails : outcome action s = (.error e, t)) (next : α → Load β) :
    outcome (action >>= next) s = (.error e, t) := by
  rw [outcome_bind, fails]

@[simp] theorem returns_bind_iff (action : Load α) (next : α → Load β) (b : β) :
    Returns (action >>= next) s b t ↔ ∃ a m, Returns action s a m ∧ Returns (next a) m b t := by
  rw [Returns, outcome_bind]
  rcases first : outcome action s with ⟨e | a, m⟩
  · simp [Returns, first]
  · constructor
    · intro run
      exact ⟨a, m, first, run⟩
    · rintro ⟨a', m', run, rest⟩
      rw [Returns, first, Prod.mk.injEq, Except.ok.injEq] at run
      obtain ⟨rfl, rfl⟩ := run
      exact rest

@[simp] theorem returns_map_iff (f : α → β) (action : Load α) (b : β) :
    Returns (f <$> action) s b t ↔ ∃ a, Returns action s a t ∧ f a = b := by
  rw [← bind_pure_comp, returns_bind_iff]
  simp only [returns_pure_iff]
  constructor
  · rintro ⟨a, m, run, same, rfl⟩
    exact ⟨a, run, same⟩
  · rintro ⟨a, run, same⟩
    exact ⟨a, t, run, same, rfl⟩

@[simp] theorem returns_get_iff (a : Loading) : Returns get s a t ↔ s = a ∧ s = t :=
  returns_iff_of_outcome rfl

@[simp] theorem returns_set_iff (new : Loading) (u : PUnit) :
    Returns (set new) s u t ↔ new = t := by
  rw [returns_iff_of_outcome (show outcome (set new) s = (.ok PUnit.unit, new) from rfl)]
  exact and_iff_right rfl

@[simp] theorem returns_warn_iff (w : Warning) (u : Unit) :
    Returns (warn w) s u t ↔ { s with warnings := s.warnings ++ [w] } = t := by
  rw [returns_iff_of_outcome (show outcome (warn w) s = (.ok (), _) from rfl)]
  exact and_iff_right rfl

/-- Where a fault lies matters to its message only. -/
theorem outcome_within (context : LoadError → LoadError) (action : Load α) (s : Loading) :
    outcome (within context action) s =
      match outcome action s with
      | (.ok a, m) => (.ok a, m)
      | (.error e, m) => (.error (context e), m) :=
  rfl

theorem outcome_within_of_error {action : Load α} {e : LoadError}
    (fails : outcome action s = (.error e, t)) (context : LoadError → LoadError) :
    outcome (within context action) s = (.error (context e), t) := by
  rw [outcome_within, fails]

@[simp] theorem returns_within_iff (context : LoadError → LoadError) (action : Load α) (a : α) :
    Returns (within context action) s a t ↔ Returns action s a t := by
  rw [Returns, outcome_within, Returns]
  rcases outcome action s with ⟨e | b, m⟩ <;> simp

@[simp] theorem returns_ofOption_iff (e : LoadError) (value : Option α) (a : α) :
    Returns (ofOption e value) s a t ↔ value = some a ∧ s = t := by
  cases value <;> simp [ofOption]

/-- A check that finds something wrong ends the load. -/
@[simp] theorem returns_check_iff (wrong : Prop) [Decidable wrong] (e : LoadError)
    (after : β → Load α) (rest : Load α) (a : α) :
    Returns (if wrong then throw e >>= after else rest) s a t ↔ ¬ wrong ∧ Returns rest s a t := by
  by_cases held : wrong <;> simp [held]

end AvroIdl.Load
