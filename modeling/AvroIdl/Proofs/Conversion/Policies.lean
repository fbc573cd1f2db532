import AvroIdl.Proofs.Load.WellNamed

/-
Converting a text under either policy. What loading accepts has no repeated names, so the
policies only differ on schemas that were built by hand.
-/
set_option autoImplicit false

namespace AvroIdl

theorem Schema.WellNamed.declarations {s : Schema} (named : s.WellNamed) (policy : Policy) :
    s.declarations policy = .ok (definitionsOf s.roots) := by
  cases policy with
  | redeclare => exact s.declarations_redeclare
  | deduplicate =>
    rw [Schema.declarations_deduplicate_of_nodup named.distinct, s.declarations_redeclare]

theorem Schema.WellNamed.renderWith {s : Schema} (named : s.WellNamed) (policy : Policy) :
    s.renderWith policy = .ok s.render := by
  rw [Schema.renderWith, named.declarations, Schema.render_eq]
  rfl

namespace Converter

theorem render_eq (c : Converter) (s : Schema) :
    c.render s = (s.renderWith c.policy).mapError .conflict := by
  rw [render, renderNoting, Schema.renderWith]
  cases s.declarations c.policy <;> rfl

/-- Besides its events, a conversion loads and then renders. -/
theorem convert_eq (c : Converter) (source name : String) :
    c.convert source name = Schema.load source name >>= c.render := by
  rw [convert, convertNoting, Schema.load]
  rcases Schema.ofSource source with ⟨e | s, progress⟩ <;> rfl

theorem convert_of_load (c : Converter) (source name : String) :
    c.convert source name = (Schema.load source name).map Schema.render := by
  rw [convert_eq]
  cases loaded : Schema.load source name with
  | error e => rfl
  | ok s =>
    have rendered : c.render s = .ok s.render := by
      rw [render_eq, (Schema.wellNamed_of_load loaded).renderWith]
      rfl
    exact rendered

theorem not_conflict_of_load (source name : String) (e : NameConflict) :
    Schema.load source name ≠ .error (.conflict e) := by
  rw [Schema.load]
  intro same
  cases read : (Schema.ofSource source).1 with
  | error e =>
    rw [read] at same
    cases same
  | ok s =>
    rw [read] at same
    cases same

/-- On every text that loads, declaring each name once succeeds and renders the same protocol as
declaring every definition. So a conversion does not depend on the policy, and names never
conflict in it. -/
theorem policies_agree (source name : String) :
    (∀ s, Schema.load source name = .ok s → s.renderWith .deduplicate = .ok s.render) ∧
      (Converter.mk .deduplicate).convert source name =
        (Converter.mk .redeclare).convert source name ∧
      ∀ policy e, (Converter.mk policy).convert source name ≠ .error (.conflict e) := by
  refine ⟨?_, ?_, ?_⟩
  · intro s loaded
    exact (Schema.wellNamed_of_load loaded).renderWith .deduplicate
  · rw [convert_of_load, convert_of_load]
  · intro policy e
    rw [convert_of_load]
    intro same
    cases loaded : Schema.load source name with
    | error other =>
      rw [loaded] at same
      rw [Except.error.inj same] at loaded
      exact not_conflict_of_load source name e loaded
    | ok s =>
      rw [loaded] at same
      cases same

theorem policies_agree_on_nested :
    Schema.load Schema.nestedSource "nested.avsc" = .ok Schema.nested ∧
      Schema.nested.renderWith .deduplicate = .ok Schema.nested.render := by
  have loaded := Schema.load_nestedSource "nested.avsc"
  exact ⟨loaded, (policies_agree Schema.nestedSource "nested.avsc").1 Schema.nested loaded⟩

end Converter

end AvroIdl
