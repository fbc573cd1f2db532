import AvroIdl.Proofs.Json.Held

/-
A value that was read holds no number that is not spelled like one.
-/
set_option autoImplicit false

namespace AvroIdl.Json

def isNumberChar (c : Char) : Bool :=
  c.isDigit || c = '-' || c = '+' || c = '.' || c = 'e'

/-- A number begins with a digit or a minus sign. -/
structure IsNumeral (text : List Char) : Prop where
  begins : ∃ first rest, text = first :: rest ∧ (first.isDigit = true ∨ first = '-')
  only : ∀ c ∈ text, isNumberChar c = true

theorem IsWhole.begins {whole : List Char} (isWhole : IsWhole whole) :
    ∃ first rest, whole = first :: rest ∧ first.isDigit = true := by
  cases isWhole with
  | zero => exact ⟨'0', [], rfl, rfl⟩
  | positive digit => exact ⟨_, _, rfl, digit⟩

/-- A number in the spelling that is kept. -/
theorem Numeral.isNumeral (n : Numeral) : IsNumeral n.normal.text := by
  constructor
  · rw [text_normal, signText]
    split
    · exact ⟨'-', _, rfl, .inr rfl⟩
    · obtain ⟨first, rest, same, digit⟩ := n.isWhole.begins
      rw [same]
      exact ⟨first, _, rfl, .inl digit⟩
  · intro c member
    rcases of_mem_text member with digit | sign | ⟨e, given, rfl⟩
    · rw [isNumberChar, digit]
      rfl
    · rcases sign with rfl | rfl | rfl <;> rfl
    · obtain ⟨original, -, rfl⟩ := Option.map_eq_some_iff.mp given
      rfl

mutual

/-- Every number in a value is spelled like one. -/
def WellSpelled : Json → Prop
  | .null | .bool _ | .string _ => True
  | .number text => IsNumeral text.toList
  | .array items => ItemsSpelled items
  | .object members => MembersSpelled members

def ItemsSpelled : List Json → Prop
  | [] => True
  | item :: rest => item.WellSpelled ∧ ItemsSpelled rest

def MembersSpelled : List (String × Json) → Prop
  | [] => True
  | (_, value) :: rest => value.WellSpelled ∧ MembersSpelled rest

end

theorem itemsSpelled_iff (items : List Json) :
    ItemsSpelled items ↔ ∀ item ∈ items, item.WellSpelled := by
  induction items with
  | nil => simp [ItemsSpelled]
  | cons item rest ih => simp [ItemsSpelled, ih]

theorem membersSpelled_iff (members : Members) :
    MembersSpelled members ↔ ∀ member ∈ members, member.2.WellSpelled := by
  induction members with
  | nil => simp [MembersSpelled]
  | cons head rest ih =>
    obtain ⟨name, value⟩ := head
    simp [MembersSpelled, ih]

theorem MembersSpelled.get? {members : Members} {key : String} {value : Json}
    (spelled : MembersSpelled members) (found : members.get? key = some value) :
    value.WellSpelled :=
  (membersSpelled_iff members).mp spelled _ (mem_of_get? found)

theorem hereditary_wellSpelled : Hereditary WellSpelled where
  null := trivial
  bool _ := trivial
  number n := by
    rw [WellSpelled, Numeral.token, String.toList_ofList]
    exact n.isNumeral
  string _ := trivial
  array each := (itemsSpelled_iff _).mpr each
  object each := (membersSpelled_iff _).mpr each

/-- Whatever is read from a text spells its numbers well. -/
theorem wellSpelled_of_read {source : String} {json : Json} (found : read source = .ok json) :
    json.WellSpelled :=
  hereditary_wellSpelled.of_read found

end AvroIdl.Json
