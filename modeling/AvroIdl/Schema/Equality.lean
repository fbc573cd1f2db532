import AvroIdl.Schema.Basic

/-
Types are compared in full: kind, names, docs, hints, defaults and order.
-/
set_option autoImplicit false

namespace AvroIdl

mutual

def AvroType.same : AvroType → AvroType → Bool
  | .null, .null => true
  | .int a, .int b => a == b
  | .long a, .long b => a == b
  | .string a, .string b => a == b
  | .boolean a, .boolean b => a == b
  | .enum a, .enum b => a == b
  | .record a, .record b => RecordType.same a b
  | .union a, .union b => sameMembers a b
  | .map a k c, .map a' k' c' => a.same a' && k == k' && c == c'
  | .array a k c, .array a' k' c' => a.same a' && k == k' && c == c'
  | .reference a, .reference b => a == b
  | _, _ => false

def sameMembers : List AvroType → List AvroType → Bool
  | [], [] => true
  | a :: as, b :: bs => a.same b && sameMembers as bs
  | _, _ => false

def RecordType.same : RecordOf AvroType → RecordOf AvroType → Bool
  | ⟨name, doc, fields⟩, ⟨name', doc', fields'⟩ =>
    name == name' && doc == doc' && sameFields fields fields'

def sameFields : List (FieldOf AvroType) → List (FieldOf AvroType) → Bool
  | [], [] => true
  | a :: as, b :: bs => Field.same a b && sameFields as bs
  | _, _ => false

def Field.same : FieldOf AvroType → FieldOf AvroType → Bool
  | ⟨name, type, doc, default, hint⟩, ⟨name', type', doc', default', hint'⟩ =>
    name == name' && type.same type' && doc == doc' && default == default' && hint == hint'

end

mutual

theorem AvroType.same_iff (a b : AvroType) : a.same b = true ↔ a = b := by
  cases a with
  | record r =>
    cases b <;> simp [AvroType.same]
    exact RecordType.same_iff r _
  | union ms =>
    cases b <;> simp [AvroType.same]
    exact sameMembers_iff ms _
  | map v k c =>
    cases b <;> simp [AvroType.same, and_assoc, AvroType.same_iff v]
  | array v k c =>
    cases b <;> simp [AvroType.same, and_assoc, AvroType.same_iff v]
  | _ => cases b <;> simp [AvroType.same]

theorem sameMembers_iff (as bs : List AvroType) : sameMembers as bs = true ↔ as = bs := by
  match as, bs with
  | [], [] => simp [sameMembers]
  | [], b :: bs => simp [sameMembers]
  | a :: as, [] => simp [sameMembers]
  | a :: as, b :: bs =>
    simp only [sameMembers, Bool.and_eq_true, List.cons.injEq]
    rw [AvroType.same_iff a, sameMembers_iff as]

theorem RecordType.same_iff (a b : RecordOf AvroType) : RecordType.same a b = true ↔ a = b := by
  match a, b with
  | ⟨name, doc, fields⟩, ⟨name', doc', fields'⟩ =>
    simp only [RecordType.same, Bool.and_eq_true, beq_iff_eq, RecordOf.mk.injEq, and_assoc]
    rw [sameFields_iff fields]

theorem sameFields_iff (as bs : List (FieldOf AvroType)) :
    sameFields as bs = true ↔ as = bs := by
  match as, bs with
  | [], [] => simp [sameFields]
  | [], b :: bs => simp [sameFields]
  | a :: as, [] => simp [sameFields]
  | a :: as, b :: bs =>
    simp only [sameFields, Bool.and_eq_true, List.cons.injEq]
    rw [Field.same_iff a, sameFields_iff as]

theorem Field.same_iff (a b : FieldOf AvroType) : Field.same a b = true ↔ a = b := by
  match a, b with
  | ⟨name, type, doc, default, hint⟩, ⟨name', type', doc', default', hint'⟩ =>
    simp only [Field.same, Bool.and_eq_true, beq_iff_eq, FieldOf.mk.injEq, and_assoc]
    rw [AvroType.same_iff type]

end

instance : DecidableEq AvroType := fun a b => decidable_of_iff _ (AvroType.same_iff a b)

deriving instance DecidableEq for Schema

end AvroIdl
