import AvroIdl.Schema.TypeName
import Mathlib.Data.List.TakeWhile

/-
Simple names have no dot, so a full name is split again where it was joined.
-/
set_option autoImplicit false

namespace AvroIdl.TypeName

theorem isDotted_eq_false_iff (name : String) : isDotted name = false ↔ '.' ∉ name.toList := by
  simp [isDotted]

theorem simple_ofDotted (raw : String) :
    (ofDotted raw).simple =
      String.ofList (raw.toList.reverse.takeWhile (· ≠ '.')).reverse := by
  rw [ofDotted]
  split <;> rfl

theorem isDotted_simple_ofDotted (raw : String) : isDotted (ofDotted raw).simple = false := by
  rw [isDotted_eq_false_iff, simple_ofDotted, String.toList_ofList, List.mem_reverse]
  intro member
  have plain := List.mem_takeWhile_imp member
  exact absurd rfl (of_decide_eq_true plain)

/-- Reading from the end, the dot comes right after the simple name. -/
theorem reverse_full (simple nameSpace : String) :
    (full ⟨simple, some nameSpace⟩).toList.reverse =
      simple.toList.reverse ++ '.' :: nameSpace.toList.reverse := by
  simp [full]

theorem ofDotted_full (name : TypeName) (plain : isDotted name.simple = false) :
    ofDotted name.full = name := by
  obtain ⟨simple, nameSpace⟩ := name
  rw [isDotted_eq_false_iff] at plain
  have kept : ∀ c ∈ simple.toList.reverse, decide (c ≠ '.') = true := by
    intro c member
    rw [List.mem_reverse] at member
    exact decide_eq_true (fun same => plain (same ▸ member))
  cases nameSpace with
  | none =>
    have whole := List.takeWhile_eq_self_iff.mpr kept
    have nothing := List.dropWhile_eq_nil_iff.mpr kept
    simp only [ofDotted, full, whole, nothing, List.reverse_reverse, String.ofList_toList]
  | some nameSpace =>
    rw [ofDotted, reverse_full, List.takeWhile_append_of_pos kept,
      List.dropWhile_append_of_pos kept]
    simp

theorem full_injective {a b : TypeName} (plainA : isDotted a.simple = false)
    (plainB : isDotted b.simple = false) (same : a.full = b.full) : a = b := by
  rw [← ofDotted_full a plainA, same, ofDotted_full b plainB]

end AvroIdl.TypeName
