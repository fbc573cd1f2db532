import AvroIdl.Proofs.Load.Activities

/-
A load that fails over an undefined type was looking the type up, and it leaves the state in which
it did so.
-/
set_option autoImplicit false

namespace AvroIdl

/-- The message of the fault itself comes last. -/
theorem LoadError.exists_message_eq (e : LoadError) :
    ∃ place, e.message = place ++ e.cause.message := by
  have further {first rest text : String} (known : ∃ place, rest = place ++ text) :
      ∃ place, first ++ rest = place ++ text := by
    obtain ⟨place, rfl⟩ := known
    exact ⟨first ++ place, String.append_assoc.symm⟩
  induction e with
  | inUnionMember _ _ ih | inArrayItems _ ih | inMapValues _ ih | inField _ _ _ ih
  | inFieldType _ _ ih | inFieldDefault _ _ ih => exact further ih
  | _ => exact ⟨"", String.empty_append.symm⟩

namespace Load

variable {α β : Type} {s : Loading} {P : String → Option String → Loading → Prop}

/-- If the action fails over an undefined type, then this holds of the type, of what may have been
meant by it and of the state that is left. -/
def Locates (P : String → Option String → Loading → Prop) (action : Load α) (s : Loading) : Prop :=
  ∀ e t, outcome action s = (.error e, t) →
    ∀ x meant, e.cause = .undefinedType x meant → P x meant t

theorem Locates.mono {Q : String → Option String → Loading → Prop} {action : Load α}
    (locates : Locates P action s) (weaker : ∀ x meant t, P x meant t → Q x meant t) :
    Locates Q action s :=
  fun e t fails x meant isCause => weaker x meant t (locates e t fails x meant isCause)

theorem locates_throw {e : LoadError} (other : e.isLookup = false) :
    Locates P (throw e : Load α) s := by
  intro _ t fails x meant isCause
  cases fails
  rw [LoadError.isLookup, isCause] at other
  cases other

theorem Locates.bind {action : Load α} {next : α → Load β} (first : Locates P action s)
    (later : ∀ a t, Returns action s a t → Locates P (next a) t) :
    Locates P (action >>= next) s := by
  intro e t fails
  rw [outcome_bind] at fails
  rcases ran : outcome action s with ⟨e' | a, m⟩
  · rw [ran] at fails
    cases fails
    exact first e t ran
  · rw [ran] at fails
    exact later a m ran e t fails

theorem Locates.within {action : Load α} (locates : Locates P action s)
    (context : LoadError → LoadError) (kept : ∀ e, (context e).cause = e.cause) :
    Locates P (within context action) s := by
  intro e t fails
  rw [outcome_within] at fails
  rcases ran : outcome action s with ⟨e' | a, m⟩
  · rw [ran] at fails
    cases fails
    rw [kept]
    exact locates e' t ran
  · rw [ran] at fails
    cases fails

theorem locates_define (name : TypeName) : Locates P (define name) s := by
  intro e t fails x meant isCause
  rw [outcome_define] at fails
  split at fails
  · cases fails
    cases isCause
  · split at fails
    · cases fails
      cases isCause
    · cases fails

/-- The activity leads to a lookup of `x` that fails in the state `t`. -/
def Misses (a : Activity) (x : String) (meant : Option String) (t : Loading) : Prop :=
  ∃ around, Leads a ⟨.type (.string x), around, t⟩ ∧
    outcome (word x around) t = (.error (.undefinedType x meant), t)

theorem Misses.of_calls {a b : Activity} {x : String} {meant : Option String} {t : Loading}
    (misses : Misses b x meant t) (calls : Calls a b) : Misses a x meant t := by
  obtain ⟨around, leads, fails⟩ := misses
  exact ⟨around, leads.head calls, fails⟩

theorem locates_word (name : String) (around : Option String) (s : Loading) :
    Locates (Misses ⟨.type (.string name), around, s⟩) (word name around) s := by
  intro e t fails x meant isCause
  have read := outcome_word name around s
  rw [fails, Prod.mk.injEq] at read
  obtain ⟨isFault, rfl⟩ := read
  split at isFault
  · cases isFault
  · split at isFault
    · cases isFault
      cases isCause
    · split at isFault
      · cases isFault
      · cases isFault
        cases isCause
        exact ⟨around, .refl, fails⟩

theorem compositional_locates : Compositional fun a _ action s => Locates (Misses a) action s where
  ofPure _ _ := fun _ _ fails => by cases fails
  ofThrow _ other := locates_throw other
  ofBind := Locates.bind
  ofWithin kept inner := inner.within _ kept
  ofWarn _ _ := fun _ _ fails => by cases fails
  ofDefine _ _ := locates_define _
  ofWord := locates_word
  ofCall calls inner := inner.mono fun _ _ _ misses => misses.of_calls calls

end Load

end AvroIdl
