import AvroIdl.Proofs.Declaration.Definitions
import AvroIdl.Proofs.Declaration.Registry
import AvroIdl.Proofs.Declaration.Visit

/-
A visit passes over a repeated definition as a whole. Nothing is lost by that: the visit
finds what offering every definition in turn finds, those inside of repeated definitions
included.
-/
set_option autoImplicit false

namespace AvroIdl

open Declaration
open Findings (nothing)

/-- Offers definitions one after another, up to the first conflict. -/
def declareAll : List Declaration → Option Registry → Findings
  | [] => nothing
  | d :: rest => fun registry => (meet d nothing registry).andThen (declareAll rest)

theorem declareAll_cons (d : Declaration) (rest : List Declaration)
    (registry : Option Registry) :
    declareAll (d :: rest) registry = (meet d nothing registry).andThen (declareAll rest) := rfl

theorem declareAll_append (ds es : List Declaration) (registry : Option Registry) :
    declareAll (ds ++ es) registry = (declareAll ds registry).andThen (declareAll es) := by
  induction ds generalizing registry with
  | nil => rfl
  | cons d ds ih =>
    rw [List.cons_append, declareAll_cons, declareAll_cons, Findings.andThen_assoc]
    congr 1
    funext registry
    exact ih registry

/-- Without a registry every definition is declared, and nothing fails. -/
theorem visitAll_none (types : List AvroType) :
    visitAll types none = ⟨(definitionsOf types).map .ok, none, false⟩ := by
  induction size : sizeOf types using Nat.strongRecOn generalizing types with
  | ind bound ih =>
    subst size
    cases types with
    | nil => rfl
    | cons type rest =>
      have parts := ih (sizeOf type.parts)
        (by have := AvroType.sizeOf_parts_le type; rw [List.cons.sizeOf_spec]; omega) type.parts rfl
      have others := ih (sizeOf rest) (sizeOf_pass type rest) rest rfl
      rw [visitAll_cons, AvroType.visit_eq, definitionsOf_cons]
      cases Declaration.ofType? type with
      | none =>
        dsimp only
        simp [parts, others, Findings.andThen]
      | some d =>
        have offered : Walk.offer none d = (.new, none) := rfl
        dsimp only
        rw [meet_of_new offered]
        simp [parts, others, Findings.andThen, Findings.after]

theorem Walk.declared_redeclare (types : List AvroType) :
    (Walk.redeclare types).declared = definitionsOf types := by
  have found : (Walk.redeclare types).toList = (definitionsOf types).map .ok := by
    rw [Walk.toList_eq_findings, Walk.redeclare, Walk.findings_of_not_failed, visitAll_none]
  rw [Walk.declared, found, List.filterMap_map]
  exact List.filterMap_some

namespace Findings

/-- Findings without a conflict leave a registry of this kind. -/
def Leaves (f : Findings) (kind : Registry → Prop) : Prop :=
  f.failed = false → ∃ r, f.registry = some r ∧ kind r

theorem leaves_nothing {kind : Registry → Prop} {r : Registry} (holds : kind r) :
    (nothing (some r)).Leaves kind := fun _ => ⟨r, rfl, holds⟩

theorem Leaves.mono {f : Findings} {kind weaker : Registry → Prop} (leaves : f.Leaves kind)
    (imp : ∀ r, kind r → weaker r) : f.Leaves weaker := by
  intro succeeded
  obtain ⟨r, left, holds⟩ := leaves succeeded
  exact ⟨r, left, imp r holds⟩

theorem Leaves.and {f : Findings} {kind other : Registry → Prop} (leaves : f.Leaves kind)
    (also : f.Leaves other) : f.Leaves fun r => kind r ∧ other r := by
  intro succeeded
  obtain ⟨r, left, holds⟩ := leaves succeeded
  obtain ⟨again, leftAgain, holdsAgain⟩ := also succeeded
  cases left.symm.trans leftAgain
  exact ⟨r, left, holds, holdsAgain⟩

theorem Leaves.after {f : Findings} {kind : Registry → Prop}
    {earlier : List (Except NameConflict Declaration)} (leaves : f.Leaves kind) :
    (f.after earlier).Leaves kind := leaves

theorem Leaves.andThen {f : Findings} {next : Option Registry → Findings}
    {kind last : Registry → Prop} (leaves : f.Leaves kind)
    (step : ∀ r, kind r → (next (some r)).Leaves last) : (f.andThen next).Leaves last := by
  intro succeeded
  cases failed : f.failed with
  | true => simp [Findings.andThen, failed] at succeeded
  | false =>
    obtain ⟨r, left, holds⟩ := leaves failed
    simp only [Findings.andThen, failed, left, Bool.false_eq_true, ↓reduceIte] at succeeded ⊢
    exact step r holds succeeded

theorem andThen_congr {f : Findings} {next other : Option Registry → Findings}
    {kind : Registry → Prop} (leaves : f.Leaves kind)
    (same : ∀ r, kind r → next (some r) = other (some r)) :
    f.andThen next = f.andThen other := by
  cases failed : f.failed with
  | true => simp [Findings.andThen, failed]
  | false =>
    obtain ⟨r, left, holds⟩ := leaves failed
    simp [Findings.andThen, failed, left, same r holds]

end Findings

/-- One registry declares all that another declares, and beyond that only some of a list. -/
structure Registry.Grows (r next : Registry) (ds : List Declaration) : Prop where
  keeps : ∀ e, r.Holds e → next.Holds e
  holds : ∀ d ∈ ds, next.Holds d
  only : ∀ e, next.Holds e → r.Holds e ∨ e ∈ ds

theorem declareAll_leaves (ds : List Declaration) (r : Registry) :
    (declareAll ds (some r)).Leaves fun next => r.Grows next ds := by
  induction ds generalizing r with
  | nil => exact Findings.leaves_nothing ⟨fun _ held => held, by simp, fun _ held => Or.inl held⟩
  | cons d rest ih =>
    rw [declareAll_cons]
    rcases r.offer_cases d with ⟨fresh, offered⟩ | ⟨held, offered⟩ | ⟨first, _, _, offered⟩
    · rw [meet_of_new offered, Findings.after_andThen, Findings.nothing_andThen]
      apply ((ih (r.add d fresh)).mono _).after
      intro next grown
      refine ⟨fun e held => grown.keeps e (held.add fresh), ?_, ?_⟩
      · intro e member
        rcases List.mem_cons.mp member with rfl | member
        · exact grown.keeps _ (Registry.holds_add_self fresh)
        · exact grown.holds e member
      · intro e held
        rcases grown.only e held with before | member
        · rcases Registry.holds_of_holds_add fresh before with rfl | before
          · exact Or.inr (List.mem_cons_self)
          · exact Or.inl before
        · exact Or.inr (List.mem_cons_of_mem _ member)
    · rw [meet_of_repeated offered, Findings.nothing_andThen]
      apply (ih r).mono
      intro next grown
      refine ⟨grown.keeps, ?_, ?_⟩
      · intro e member
        rcases List.mem_cons.mp member with rfl | member
        · exact grown.keeps _ held
        · exact grown.holds e member
      · intro e held
        exact (grown.only e held).imp_right (List.mem_cons_of_mem d)
    · rw [meet_of_conflicting offered]
      intro succeeded
      cases succeeded

theorem declareAll_of_holds {ds : List Declaration} {r : Registry}
    (held : ∀ d ∈ ds, r.Holds d) : declareAll ds (some r) = nothing (some r) := by
  induction ds with
  | nil => rfl
  | cons d rest ih =>
    have first : Walk.offer (some r) d = (.repeated, some r) := by
      rw [Walk.offer, Registry.register_of_found (held d (List.mem_cons_self)), if_pos rfl]
    rw [declareAll_cons, meet_of_repeated first, Findings.nothing_andThen]
    exact ih fun e member => held e (List.mem_cons_of_mem d member)

/-- Whatever is inside of a small enough definition is declared if that definition is. While
a definition is being visited only larger ones can be incomplete. -/
def Registry.CompleteBelow (r : Registry) (bound : Nat) : Prop :=
  ∀ d, r.Holds d → sizeOf d < bound → ∀ e ∈ d.inner, r.Holds e

theorem Registry.CompleteBelow.add {r : Registry} {d : Declaration} {bound : Nat}
    (complete : r.CompleteBelow bound) (small : sizeOf d < bound)
    (fresh : r.find? d.name = none) : (r.add d fresh).CompleteBelow (sizeOf d) := by
  intro e held smaller inside member
  rcases holds_of_holds_add fresh held with rfl | before
  · exact absurd smaller (Nat.lt_irrefl _)
  · exact (complete e before (Nat.lt_trans smaller small) inside member).add fresh

/-- Once everything inside of a new definition is declared, no more is missing than before. -/
theorem Registry.CompleteBelow.of_inner {r next : Registry} {d : Declaration} {bound : Nat}
    (complete : r.CompleteBelow bound) (fresh : r.find? d.name = none)
    (grown : (r.add d fresh).Grows next d.inner) (below : next.CompleteBelow (sizeOf d)) :
    next.CompleteBelow bound := by
  intro e held small inside member
  rcases grown.only e held with before | new
  · rcases holds_of_holds_add fresh before with rfl | before
    · exact grown.holds inside member
    · exact grown.keeps _ ((complete e before small inside member).add fresh)
  · exact below e held (Declaration.sizeOf_lt_of_mem_inner new) inside member

/-- A definition that is met together with what is inside of it, or passed over together
with what is inside of it. -/
theorem meet_eq_declareAll {d : Declaration} {r : Registry} {bound : Nat}
    (complete : r.CompleteBelow bound) (small : sizeOf d < bound)
    (inside : ∀ fresh : r.find? d.name = none,
      visitAll d.toType.parts (some (r.add d fresh)) = declareAll d.inner (some (r.add d fresh)) ∧
        (visitAll d.toType.parts (some (r.add d fresh))).Leaves fun next =>
          next.CompleteBelow (sizeOf d)) :
    meet d (visitAll d.toType.parts) (some r) = declareAll (d :: d.inner) (some r) ∧
      (meet d (visitAll d.toType.parts) (some r)).Leaves fun next => next.CompleteBelow bound := by
  rw [declareAll_cons]
  rcases r.offer_cases d with ⟨fresh, offered⟩ | ⟨held, offered⟩ | ⟨first, _, _, offered⟩
  · obtain ⟨same, leaves⟩ := inside fresh
    rw [meet_of_new offered, meet_of_new offered, Findings.after_andThen, Findings.nothing_andThen,
      ← same]
    refine ⟨rfl, ?_⟩
    have grows := declareAll_leaves d.inner (r.add d fresh)
    rw [← same] at grows
    apply ((grows.and leaves).mono _).after
    rintro next ⟨grown, below⟩
    exact complete.of_inner fresh grown below
  · rw [meet_of_repeated offered, meet_of_repeated offered, Findings.nothing_andThen,
      declareAll_of_holds (complete d held small)]
    exact ⟨rfl, Findings.leaves_nothing complete⟩
  · rw [meet_of_conflicting offered, meet_of_conflicting offered]
    refine ⟨rfl, ?_⟩
    intro succeeded
    cases succeeded

/-- A visit that starts with nothing missing finds what offering every definition finds. -/
theorem visitAll_eq_declareAll (types : List AvroType) (r : Registry) (bound : Nat)
    (complete : r.CompleteBelow bound) (small : ∀ d ∈ definitionsOf types, sizeOf d < bound) :
    visitAll types (some r) = declareAll (definitionsOf types) (some r) ∧
      (visitAll types (some r)).Leaves fun next => next.CompleteBelow bound := by
  induction size : sizeOf types using Nat.strongRecOn generalizing types r bound with
  | ind measure ih =>
    subst size
    cases types with
    | nil => exact ⟨rfl, Findings.leaves_nothing complete⟩
    | cons type rest =>
      rw [definitionsOf_cons] at small ⊢
      have smallerParts : sizeOf type.parts < sizeOf (type :: rest) := by
        have := AvroType.sizeOf_parts_le type
        rw [List.cons.sizeOf_spec]
        omega
      have first : type.visit (some r) =
            declareAll ((Declaration.ofType? type).toList ++ definitionsOf type.parts) (some r) ∧
          (type.visit (some r)).Leaves fun next => next.CompleteBelow bound := by
        rw [AvroType.visit_eq]
        cases isDefinition : Declaration.ofType? type with
        | none =>
          apply ih _ smallerParts type.parts r bound complete _ rfl
          intro d member
          exact small d (by simp [member])
        | some d =>
          have same := (Declaration.ofType?_eq_some_iff type d).mp isDefinition
          subst same
          apply meet_eq_declareAll complete (small d (by simp [isDefinition]))
          intro fresh
          exact ih _ smallerParts _ (r.add d fresh) (sizeOf d)
            (complete.add (small d (by simp [isDefinition])) fresh)
            (fun e member => Declaration.sizeOf_lt_of_mem_inner member) rfl
      have others : ∀ next : Registry, next.CompleteBelow bound →
          visitAll rest (some next) = declareAll (definitionsOf rest) (some next) ∧
            (visitAll rest (some next)).Leaves fun last => last.CompleteBelow bound := by
        intro next completeNext
        apply ih _ (sizeOf_pass type rest) rest next bound completeNext _ rfl
        intro d member
        exact small d (by simp [member])
      refine ⟨?_, first.2.andThen fun next completeNext => (others next completeNext).2⟩
      rw [visitAll_cons, declareAll_append, ← first.1]
      exact Findings.andThen_congr first.2 fun next completeNext => (others next completeNext).1

theorem mapM_ok_cons (d : Declaration) (items : List (Except NameConflict Declaration)) :
    (.ok d :: items : List (Except NameConflict Declaration)).mapM id =
      (items.mapM id).map (d :: ·) := by
  rw [List.mapM_cons]
  cases items.mapM id <;> rfl

/-- What a sequence of definitions makes of a registry: the first definition of each new name
is declared, and the first one that differs from the first of its name is a conflict. -/
theorem declared?_declareAll (ds : List Declaration) (r : Registry) :
    (declareAll ds (some r)).items.mapM id =
      match ds.find? (differsFromFirst (r.declared ++ ds)) with
      | some d => .error ⟨d.name⟩
      | none => .ok ((firstOfEachName ds).filter fun e => e.name ∉ r.names) := by
  induction ds generalizing r with
  | nil => rfl
  | cons d rest ih =>
    have isFirst : firstNamed (r.declared ++ d :: rest) d.name = (r.find? d.name).or (some d) :=
      firstNamed_append_self r.declared d rest
    rw [declareAll_cons, List.find?_cons, filter_firstOfEachName_cons]
    rcases r.offer_cases d with ⟨fresh, offered⟩ | ⟨held, offered⟩ | ⟨first, found, other, offered⟩
    · have agrees : differsFromFirst (r.declared ++ d :: rest) d = false := by
        rw [differsFromFirst_eq_false, isFirst, fresh, Option.none_or]
      have later := ih (r.add d fresh)
      have grown : (r.add d fresh).declared ++ rest = r.declared ++ d :: rest :=
        List.append_assoc _ _ _
      rw [grown, Registry.names_add] at later
      have entered : ((declareAll rest (some (r.add d fresh))).after [.ok d]).items.mapM id =
          ((declareAll rest (some (r.add d fresh))).items.mapM id).map (d :: ·) := mapM_ok_cons d _
      rw [meet_of_new offered, Findings.after_andThen, Findings.nothing_andThen, entered, later,
        agrees, if_neg ((r.find?_eq_none_iff d.name).mp fresh)]
      cases rest.find? (differsFromFirst (r.declared ++ d :: rest)) <;> rfl
    · have agrees : differsFromFirst (r.declared ++ d :: rest) d = false := by
        rw [differsFromFirst_eq_false, isFirst, held, Option.some_or]
      rw [meet_of_repeated offered, Findings.nothing_andThen, ih, agrees,
        differsFromFirst_append_of_held held, if_pos held.name_mem]
    · have differs : differsFromFirst (r.declared ++ d :: rest) d = true := by
        rw [differsFromFirst, isFirst, found, Option.some_or]
        simpa using other
      rw [meet_of_conflicting offered, differs]
      rfl

end AvroIdl
