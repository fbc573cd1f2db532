import AvroIdl.Declaration.Basic

/-
The declarations made so far, in order, no two of one name.
-/
set_option autoImplicit false

namespace AvroIdl

structure Registry where
  declared : List Declaration
  nodup_names : (declared.map Declaration.name).Nodup

/-- How a declaration compares with those made before it. -/
inductive Standing
  | new
  | repeated
  | conflicting
  deriving DecidableEq

namespace Registry

def empty : Registry := ⟨[], List.nodup_nil⟩

def names (r : Registry) : List String :=
  r.declared.map Declaration.name

def find? (r : Registry) (name : String) : Option Declaration :=
  r.declared.find? fun d => d.name = name

theorem find?_eq_none_iff (r : Registry) (name : String) :
    r.find? name = none ↔ name ∉ r.names := by
  simp [find?, names]

def add (r : Registry) (d : Declaration) (fresh : r.find? d.name = none) : Registry where
  declared := r.declared ++ [d]
  nodup_names := by
    rw [List.map_append, List.nodup_append]
    refine ⟨r.nodup_names, by simp, ?_⟩
    intro a ha b hb
    have hb : b = d.name := by simpa using hb
    subst hb
    intro same
    exact (r.find?_eq_none_iff d.name).1 fresh (same ▸ ha)

/-- Only a new name changes the registry. -/
def register (r : Registry) (d : Declaration) : Standing × Registry :=
  match fresh : r.find? d.name with
  | none => (.new, r.add d fresh)
  | some earlier => (if earlier = d then .repeated else .conflicting, r)

end Registry

/-- What a registration can come to that meets no conflict. -/
inductive Registration
  | new
  | repeated
  deriving DecidableEq

/-- A conflict is reported by the name that two definitions share. -/
def Standing.answer (d : Declaration) : Standing → Except NameConflict Registration
  | .new => .ok .new
  | .repeated => .ok .repeated
  | .conflicting => .error ⟨d.name⟩

/-- What is answered to whoever registers a declaration. -/
def Registry.answer (r : Registry) (d : Declaration) : Except NameConflict Registration :=
  (r.register d).1.answer d

end AvroIdl
