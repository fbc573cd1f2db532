import AvroIdl.Proofs.Load.Calls

/-
What a load does to its state, also where it fails: it leaves a state that steps lead to.
-/
set_option autoImplicit false

namespace AvroIdl

namespace Loading

/-- Steps lead from one state to the other, and the names that they define have no dot. -/
def Reaches (s t : Loading) : Prop :=
  ∃ steps, s.Runs steps t ∧ ∀ d ∈ Load.defined steps, isDotted d.simple = false

variable {s m t : Loading}

theorem Reaches.refl (s : Loading) : s.Reaches s :=
  ⟨[], rfl, fun _ member => absurd member List.not_mem_nil⟩

theorem Reaches.trans (first : s.Reaches m) (later : m.Reaches t) : s.Reaches t := by
  obtain ⟨steps, runs, plain⟩ := first
  obtain ⟨rest, runsRest, plainRest⟩ := later
  refine ⟨steps ++ rest, runs.append runsRest, fun d member => ?_⟩
  rw [Load.defined_append] at member
  exact (List.mem_append.mp member).elim (plain d) (plainRest d)

theorem Reaches.mem (reaches : s.Reaches t) {d : TypeName} (member : d ∈ s.defined) :
    d ∈ t.defined := by
  obtain ⟨steps, runs, -⟩ := reaches
  rw [defined_of_runs runs]
  exact List.mem_append_left _ member

theorem Reaches.orderly (reaches : s.Reaches t) (orderly : s.Orderly) : t.Orderly := by
  obtain ⟨steps, runs, -⟩ := reaches
  exact orderly.of_runs runs

theorem Reaches.plain (reaches : start.Reaches t) : ∀ d ∈ t.defined, isDotted d.simple = false := by
  obtain ⟨steps, runs, plain⟩ := reaches
  rw [defined_of_runs runs]
  exact plain

end Loading

namespace Load

variable {α : Type}

/-- Whatever comes of the run, steps lead to the state that it leaves. -/
def Advances (action : Load α) (s : Loading) : Prop :=
  s.Reaches (outcome action s).2

theorem Advances.of_returns {action : Load α} {s t : Loading} {a : α}
    (advances : Advances action s) (returns : Returns action s a t) : s.Reaches t := by
  rwa [Advances, returns] at advances

theorem advances_bind {β : Type} {action : Load α} {next : α → Load β} {s : Loading}
    (first : Advances action s)
    (later : ∀ a t, Returns action s a t → Advances (next a) t) : Advances (action >>= next) s := by
  rw [Advances, outcome_bind]
  rcases ran : outcome action s with ⟨e | a, m⟩
  · rwa [Advances, ran] at first
  · exact (first.of_returns ran).trans (later a m ran)

theorem advances_within {action : Load α} {s : Loading} (advances : Advances action s)
    (context : LoadError → LoadError) : Advances (within context action) s := by
  have same : (outcome (within context action) s).2 = (outcome action s).2 := by
    rw [outcome_within]
    rcases outcome action s with ⟨_ | _, _⟩ <;> rfl
  rwa [Advances, same]

/-- A definition that does not pass leaves the state as it is. -/
theorem outcome_define (name : TypeName) (s : Loading) :
    outcome (define name) s =
      if s.defined ≠ [] ∧ name.nameSpace ≠ s.home then
        (.error (.foreignNameSpace name s.home), s)
      else if s.isDefined name.full then (.error (.definedTwice name), s)
      else (.ok (), s.after (.define name)) := by
  have read : outcome (define name) s = outcome (do
      if s.defined ≠ [] ∧ name.nameSpace ≠ s.home then
        throw (.foreignNameSpace name s.home)
      if s.isDefined name.full then
        throw (.definedTwice name)
      set { s with defined := s.defined ++ [name] }) s := rfl
  rw [read]
  dsimp only
  by_cases foreign : s.defined ≠ [] ∧ name.nameSpace ≠ s.home
  · rw [if_pos foreign, if_pos foreign]
    rfl
  · rw [if_neg foreign, if_neg foreign]
    split <;> rfl

theorem advances_define {name : TypeName} (plain : isDotted name.simple = false) (s : Loading) :
    Advances (define name) s := by
  rw [Advances, outcome_define]
  split
  · exact .refl s
  · rename_i fits
    split
    · exact .refl s
    · rename_i fresh
      rw [not_and_or, not_not, not_not] at fits
      refine ⟨[.define name], ⟨⟨fits, Bool.not_eq_true _ ▸ fresh⟩, rfl⟩, ?_⟩
      rw [defined_define, defined_nil, List.forall_mem_singleton]
      exact plain

/-- A word leaves the state as it is. -/
theorem outcome_word (name : String) (around : Option String) (s : Loading) :
    outcome (word name around) s =
      (match primitive? name none with
        | some type => .ok type
        | none =>
          if name ∈ unsupported then .error (.unsupportedType name)
          else if s.resolves name around then .ok (.reference name)
          else .error (.undefinedType name (Hint.closest name (knownNames s))), s) := by
  rw [word]
  cases primitive? name none with
  | some type => rfl
  | none =>
    have read : outcome (reference name around) s =
        outcome (do
          if s.resolves name around then return AvroType.reference name
          throw (LoadError.undefinedType name (Hint.closest name (knownNames s)))) s := rfl
    dsimp only
    split
    · rfl
    · rw [read]
      split <;> rfl

theorem advances_word (name : String) (around : Option String) (s : Loading) :
    Advances (word name around) s := by
  rw [Advances, outcome_word]
  exact .refl s

theorem compositional_advances : Compositional fun _ _ action s => Advances action s where
  ofPure _ _ := .refl _
  ofThrow _ _ := .refl _
  ofBind := advances_bind
  ofWithin _ inner := advances_within inner _
  ofWarn w _ := ⟨[.warn w], ⟨trivial, rfl⟩, fun _ member => absurd member List.not_mem_nil⟩
  ofDefine := advances_define
  ofWord := advances_word
  ofCall _ inner := inner

end Load

end AvroIdl
