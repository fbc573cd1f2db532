import AvroIdl.Proofs.Schema.Nodes

/-
The walk over a stack of types, told by recursion over the types instead. A visit hands
the registry from each type to the next, and what a conflict leaves unvisited is not
looked at.
-/
set_option autoImplicit false

namespace AvroIdl

/-- What a visit finds, the registry it leaves, and whether a conflict has ended it. -/
structure Findings where
  items : List (Except NameConflict Declaration)
  registry : Option Registry
  failed : Bool

namespace Findings

def nothing (registry : Option Registry) : Findings := ⟨[], registry, false⟩

def andThen (first : Findings) (next : Option Registry → Findings) : Findings :=
  if first.failed then first
  else
    ⟨first.items ++ (next first.registry).items, (next first.registry).registry,
      (next first.registry).failed⟩

/-- The same findings with others before them. -/
def after (f : Findings) (earlier : List (Except NameConflict Declaration)) : Findings :=
  { f with items := earlier ++ f.items }

@[simp] theorem nothing_andThen (registry : Option Registry)
    (next : Option Registry → Findings) :
    (nothing registry).andThen next = next registry := rfl

@[simp] theorem andThen_nothing (first : Findings) : first.andThen nothing = first := by
  obtain ⟨items, registry, failed⟩ := first
  cases failed <;> simp [andThen, nothing]

theorem andThen_assoc (first : Findings) (next last : Option Registry → Findings) :
    (first.andThen next).andThen last = first.andThen fun r => (next r).andThen last := by
  obtain ⟨items, registry, failed⟩ := first
  cases failed with
  | true => rfl
  | false =>
    cases ended : (next registry).failed <;> simp [andThen, ended]

@[simp] theorem after_nil (f : Findings) : f.after [] = f := rfl

theorem after_andThen (f : Findings) (earlier : List (Except NameConflict Declaration))
    (next : Option Registry → Findings) :
    (f.after earlier).andThen next = (f.andThen next).after earlier := by
  obtain ⟨items, registry, failed⟩ := f
  cases failed <;> simp [andThen, after]

end Findings

open Findings (nothing)

/-- A definition is offered to the registry, and only a new one is entered. -/
def meet (d : Declaration) (inside : Option Registry → Findings) (registry : Option Registry) :
    Findings :=
  match Walk.offer registry d with
  | (.new, registry) => (inside registry).after [.ok d]
  | (.repeated, registry) => nothing registry
  | (.conflicting, registry) => ⟨[.error ⟨d.name⟩], registry, true⟩

section Meet

variable {d : Declaration} {inside : Option Registry → Findings} {registry next : Option Registry}

theorem meet_of_new (offered : Walk.offer registry d = (.new, next)) :
    meet d inside registry = (inside next).after [.ok d] := by
  rw [meet, offered]

theorem meet_of_repeated (offered : Walk.offer registry d = (.repeated, next)) :
    meet d inside registry = nothing next := by
  rw [meet, offered]

theorem meet_of_conflicting (offered : Walk.offer registry d = (.conflicting, next)) :
    meet d inside registry = ⟨[.error ⟨d.name⟩], next, true⟩ := by
  rw [meet, offered]

end Meet

mutual

def AvroType.visit : AvroType → Option Registry → Findings
  | .null => nothing
  | .int _ => nothing
  | .long _ => nothing
  | .string _ => nothing
  | .boolean _ => nothing
  | .enum type => meet (.enum type) nothing
  | .record type => meet (.record type) (visitRecord type)
  | .union members => visitAll members
  | .map values _ _ => values.visit
  | .array items _ _ => items.visit
  | .reference _ => nothing

def visitAll : List AvroType → Option Registry → Findings
  | [] => nothing
  | type :: rest => fun registry => (type.visit registry).andThen (visitAll rest)

def visitRecord : RecordOf AvroType → Option Registry → Findings
  | ⟨_, _, fields⟩ => visitFields fields

def visitFields : List (FieldOf AvroType) → Option Registry → Findings
  | [] => nothing
  | field :: rest => fun registry => (visitField field registry).andThen (visitFields rest)

def visitField : FieldOf AvroType → Option Registry → Findings
  | ⟨_, type, _, _, _⟩ => type.visit

end

theorem visitRecord_eq (type : RecordType) :
    visitRecord type = visitAll (RecordType.fieldTypes type) := by
  obtain ⟨name, doc, fields⟩ := type
  simp only [visitRecord, RecordType.fieldTypes]
  induction fields with
  | nil => rfl
  | cons field rest ih =>
    obtain ⟨name, type, doc, default, hint⟩ := field
    rw [visitFields, ih, List.map_cons, visitAll, visitField]

@[simp] theorem visitAll_nil : visitAll [] = nothing := rfl

theorem visitAll_cons (type : AvroType) (rest : List AvroType) (registry : Option Registry) :
    visitAll (type :: rest) registry = (type.visit registry).andThen (visitAll rest) := rfl

theorem visitAll_append (types rest : List AvroType) (registry : Option Registry) :
    visitAll (types ++ rest) registry = (visitAll types registry).andThen (visitAll rest) := by
  induction types generalizing registry with
  | nil => rfl
  | cons type types ih =>
    rw [List.cons_append, visitAll_cons, visitAll_cons, Findings.andThen_assoc]
    congr 1
    funext registry
    exact ih registry

/-- Only definitions are met; the parts of other types are visited in their place. -/
theorem AvroType.visit_eq (type : AvroType) :
    type.visit = match Declaration.ofType? type with
      | some d => meet d (visitAll type.parts)
      | none => visitAll type.parts := by
  cases type with
  | record type => simp [visit, Declaration.ofType?, parts, visitRecord_eq]
  | enum type => simp [visit, Declaration.ofType?, parts]
  | union members => simp [visit, Declaration.ofType?, parts]
  | map values keyClass javaClass =>
    funext registry
    simp [visit, Declaration.ofType?, parts, visitAll_cons]
  | array items keyClass javaClass =>
    funext registry
    simp [visit, Declaration.ofType?, parts, visitAll_cons]
  | _ => rfl

namespace Walk

/-- All that a walk will still find. -/
def findings (w : Walk) : Findings :=
  if w.failed then ⟨[], w.registry, true⟩ else visitAll w.pending w.registry

@[simp] theorem findings_of_not_failed (pending : List AvroType) (registry : Option Registry) :
    (Walk.mk pending registry false).findings = visitAll pending registry := rfl

/-- What the walk does with the type on top of its stack. -/
theorem advance_cons (registry : Option Registry) (type : AvroType) (rest : List AvroType) :
    advance registry (type :: rest) = match Declaration.ofType? type with
      | none => advance registry (type.parts ++ rest)
      | some d => match offer registry d with
        | (.new, registry) => (some (.ok d), ⟨type.parts ++ rest, registry, false⟩)
        | (.repeated, registry) => advance registry rest
        | (.conflicting, registry) => (some (.error ⟨d.name⟩), ⟨rest, registry, true⟩) := by
  cases type <;> rw [advance] <;> rfl

theorem sizeOf_parts_append_lt (type : AvroType) (rest : List AvroType) :
    sizeOf (type.parts ++ rest) < sizeOf (type :: rest) := by
  have less := @sizeOf_append_lt type.parts rest (sizeOf type + 1)
    (Nat.lt_succ_of_le (AvroType.sizeOf_parts_le type))
  rw [List.cons.sizeOf_spec]
  omega

/-- The loop of the walk finds one item of the visit at a time. -/
theorem visitAll_eq_advance (pending : List AvroType) (registry : Option Registry) :
    visitAll pending registry =
      (advance registry pending).2.findings.after (advance registry pending).1.toList := by
  induction size : sizeOf pending using Nat.strongRecOn generalizing pending registry with
  | ind bound ih =>
    subst size
    cases pending with
    | nil => simp [advance]
    | cons type rest =>
      rw [advance_cons, visitAll_cons, AvroType.visit_eq]
      cases Declaration.ofType? type with
      | none =>
        have same := ih _ (sizeOf_parts_append_lt type rest) (type.parts ++ rest) registry rfl
        rw [visitAll_append] at same
        exact same
      | some d =>
        dsimp only
        cases offered : offer registry d with
        | mk standing next =>
          cases standing with
          | new =>
            rw [meet_of_new offered, Findings.after_andThen]
            simp [visitAll_append]
          | repeated =>
            rw [meet_of_repeated offered, Findings.nothing_andThen]
            exact ih _ (sizeOf_pass type rest) rest next rfl
          | conflicting =>
            rw [meet_of_conflicting offered]
            rfl

theorem findings_of_advance_none {registry : Option Registry} {pending : List AvroType}
    {after : Walk} (ended : advance registry pending = (none, after)) :
    after.findings.items = [] := by
  induction size : sizeOf pending using Nat.strongRecOn generalizing pending registry with
  | ind bound ih =>
    subst size
    cases pending with
    | nil =>
      rw [advance] at ended
      cases ended
      rfl
    | cons type rest =>
      rw [advance_cons] at ended
      split at ended
      · exact ih _ (sizeOf_parts_append_lt type rest) ended rfl
      · split at ended
        · cases ended
        · exact ih _ (sizeOf_pass type rest) ended rfl
        · cases ended

/-- A call gives the first item that is still to be found, if there is one. -/
theorem findings_eq_next (w : Walk) : w.findings = w.next.2.findings.after w.next.1.toList := by
  obtain ⟨pending, registry, failed⟩ := w
  cases failed with
  | true => rfl
  | false => exact visitAll_eq_advance pending registry

theorem findings_of_next_none {w after : Walk} (ended : w.next = (none, after)) :
    after.findings.items = [] := by
  obtain ⟨pending, registry, failed⟩ := w
  cases failed with
  | true =>
    cases ended
    rfl
  | false => exact findings_of_advance_none ended

theorem toList_eq_findings (w : Walk) : w.toList = w.findings.items := by
  fun_induction toList w with
  | case1 w after step =>
    rw [findings_eq_next, step]
    exact (findings_of_next_none step).symm
  | case2 w found after step shorter ih =>
    rw [findings_eq_next, step, ih]
    rfl

end Walk

end AvroIdl
