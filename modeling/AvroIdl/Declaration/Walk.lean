import AvroIdl.Declaration.Registry

/-
A walk over the declarations that a list of types needs, one at a time: parents before
children, fields and union members in order. The types still to be visited form a stack
whose top stands first.
-/
set_option autoImplicit false

namespace AvroIdl

/-- With a registry each name is declared at most once. A walk that has met a name
conflict is over. -/
structure Walk where
  pending : List AvroType
  registry : Option Registry
  failed : Bool

def RecordType.fieldTypes (type : RecordType) : List AvroType :=
  type.fields.map FieldOf.type

theorem sizeOf_append_lt {types rest : List AvroType} {n : Nat} (h : sizeOf types < n) :
    sizeOf (types ++ rest) < n + sizeOf rest := by
  suffices eq : sizeOf (types ++ rest) + 1 = sizeOf types + sizeOf rest by omega
  clear h
  induction types with
  | nil => simp; omega
  | cons type types ih => simp; omega

theorem RecordType.sizeOf_fieldTypes (type : RecordType) :
    sizeOf (RecordType.fieldTypes type) < sizeOf type := by
  obtain ⟨name, doc, fields⟩ := type
  suffices le : sizeOf (fields.map FieldOf.type) ≤ sizeOf fields by
    simp only [RecordType.fieldTypes, RecordOf.mk.sizeOf_spec]
    omega
  induction fields with
  | nil => simp
  | cons field fields ih =>
    obtain ⟨_, _, _, _, _⟩ := field
    simp only [List.map_cons, List.cons.sizeOf_spec, FieldOf.mk.sizeOf_spec]
    omega

theorem sizeOf_pass (type : AvroType) (rest : List AvroType) :
    sizeOf rest < sizeOf (type :: rest) := by
  simp only [List.cons.sizeOf_spec]
  omega

namespace Walk

/-- Visits every type in order, declaring each definition that is met. -/
def redeclare (roots : List AvroType) : Walk := ⟨roots, none, false⟩

/-- Declares each name once; the names in the registry count as declared. -/
def deduplicate (roots : List AvroType) (registry : Registry) : Walk :=
  ⟨roots, some registry, false⟩

def offer (registry : Option Registry) (d : Declaration) : Standing × Option Registry :=
  match registry with
  | none => (.new, none)
  | some r => ((r.register d).1, some (r.register d).2)

/-- The next declaration or conflict on the stack. A repeated definition is passed over as
a whole. -/
def advance (registry : Option Registry) :
    List AvroType → Option (Except NameConflict Declaration) × Walk
  | [] => (none, ⟨[], registry, false⟩)
  | .record type :: rest =>
    match offer registry (.record type) with
    | (.new, registry) =>
      (some (.ok (.record type)), ⟨RecordType.fieldTypes type ++ rest, registry, false⟩)
    | (.repeated, registry) => advance registry rest
    | (.conflicting, registry) => (some (.error ⟨type.name⟩), ⟨rest, registry, true⟩)
  | .enum type :: rest =>
    match offer registry (.enum type) with
    | (.new, registry) => (some (.ok (.enum type)), ⟨rest, registry, false⟩)
    | (.repeated, registry) => advance registry rest
    | (.conflicting, registry) => (some (.error ⟨type.name⟩), ⟨rest, registry, true⟩)
  | .union members :: rest => advance registry (members ++ rest)
  | .map values _ _ :: rest => advance registry (values :: rest)
  | .array items _ _ :: rest => advance registry (items :: rest)
  | .null :: rest => advance registry rest
  | .int _ :: rest => advance registry rest
  | .long _ :: rest => advance registry rest
  | .string _ :: rest => advance registry rest
  | .boolean _ :: rest => advance registry rest
  | .reference _ :: rest => advance registry rest
termination_by pending => sizeOf pending
decreasing_by
  case _ => exact sizeOf_pass _ _
  case _ => exact sizeOf_pass _ _
  case _ =>
    have := @sizeOf_append_lt members rest (sizeOf (AvroType.union members)) (by simp)
    simp only [List.cons.sizeOf_spec]
    omega
  case _ => simp; omega
  case _ => simp; omega
  all_goals exact sizeOf_pass _ _

/-- The next thing the walk finds, with the walk after it. -/
def next (w : Walk) : Option (Except NameConflict Declaration) × Walk :=
  if w.failed then (none, w) else advance w.registry w.pending

/-- A walk that finds something has less left to visit. -/
theorem advance_pending_lt {registry : Option Registry} {pending : List AvroType}
    {found : Except NameConflict Declaration} {w : Walk}
    (h : advance registry pending = (some found, w)) : sizeOf w.pending < sizeOf pending := by
  fun_induction advance registry pending with
  | case1 => simp at h
  | case2 registry type rest next _ =>
    cases h
    have := @sizeOf_append_lt (RecordType.fieldTypes type) rest (sizeOf (AvroType.record type))
      (by have := RecordType.sizeOf_fieldTypes type; simp; omega)
    simp only [List.cons.sizeOf_spec]
    omega
  | case3 registry type rest next _ ih => exact Nat.lt_trans (ih h) (sizeOf_pass _ _)
  | case4 => cases h; exact sizeOf_pass _ _
  | case5 => cases h; exact sizeOf_pass _ _
  | case6 registry type rest next _ ih => exact Nat.lt_trans (ih h) (sizeOf_pass _ _)
  | case7 => cases h; exact sizeOf_pass _ _
  | case8 registry members rest ih =>
    have := @sizeOf_append_lt members rest (sizeOf (AvroType.union members)) (by simp)
    have := ih h
    simp only [List.cons.sizeOf_spec]
    omega
  | case9 registry values _ _ rest ih =>
    have := ih h
    simp only [List.cons.sizeOf_spec, AvroType.map.sizeOf_spec] at this ⊢
    omega
  | case10 registry items _ _ rest ih =>
    have := ih h
    simp only [List.cons.sizeOf_spec, AvroType.array.sizeOf_spec] at this ⊢
    omega
  | _ =>
    rename_i ih
    exact Nat.lt_trans (ih h) (sizeOf_pass _ _)

theorem next_pending_lt {w after : Walk} {found : Except NameConflict Declaration}
    (h : w.next = (some found, after)) : sizeOf after.pending < sizeOf w.pending := by
  unfold next at h
  split at h
  · simp at h
  · exact advance_pending_lt h

/-- All that the walk finds, in order. -/
def toList (w : Walk) : List (Except NameConflict Declaration) :=
  match h : w.next with
  | (none, _) => []
  | (some found, after) =>
    have := next_pending_lt h
    found :: toList after
termination_by sizeOf w.pending

/-- What the walk declares, conflicts left out. -/
def declared (w : Walk) : List Declaration :=
  w.toList.filterMap Except.toOption

/-- What the walk declares, unless it meets a conflict. -/
def declared? (w : Walk) : Except NameConflict (List Declaration) :=
  w.toList.mapM id

end Walk

/-- The declarations that one type needs, each as often as it is defined. -/
def AvroType.declarations (type : AvroType) : List Declaration :=
  (Walk.redeclare [type]).declared

end AvroIdl
