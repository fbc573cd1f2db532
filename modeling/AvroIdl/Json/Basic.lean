/-
JSON values as they are read: a number keeps its spelling, and an object keeps
its members in the order of their names, each name once.
-/
set_option autoImplicit false

namespace AvroIdl

inductive Json
  | null
  | bool (value : Bool)
  | number (text : String)
  | string (text : String)
  | array (items : List Json)
  | object (members : List (String × Json))
  deriving Inhabited

abbrev Members := List (String × Json)

namespace Members

def get? : Members → String → Option Json
  | [], _ => none
  | (key, value) :: rest, name => if key = name then some value else get? rest name

/-- Names stay sorted, and a name that is already there takes the new value. -/
def insert : Members → String → Json → Members
  | [], name, new => [(name, new)]
  | (key, value) :: rest, name, new =>
    if name = key then (name, new) :: rest
    else if name < key then (name, new) :: (key, value) :: rest
    else (key, value) :: insert rest name new

theorem get?_insert (members : Members) (name other : String) (new : Json) :
    (members.insert name new).get? other =
      if name = other then some new else members.get? other := by
  induction members with
  | nil => simp [insert, get?]
  | cons head rest ih =>
    obtain ⟨key, value⟩ := head
    by_cases same : name = key
    · subst same
      by_cases h : name = other <;> simp [insert, get?, h]
    · by_cases less : name < key
      · simp [insert, get?, same, less]
      · by_cases h : key = other
        · subst h
          simp [insert, get?, same, less]
        · simp [insert, get?, same, less, h, ih]

/-- A member's value is smaller than the object that holds it. -/
theorem sizeOf_get? {members : Members} {name : String} {value : Json}
    (found : members.get? name = some value) : sizeOf value < sizeOf members := by
  induction members with
  | nil => simp [get?] at found
  | cons head rest ih =>
    obtain ⟨key, first⟩ := head
    simp only [get?] at found
    split at found
    · cases found
      simp only [List.cons.sizeOf_spec, Prod.mk.sizeOf_spec]
      omega
    · have := ih found
      simp only [List.cons.sizeOf_spec]
      omega

theorem sizeOf_get?_object {members inner : Members} {name : String}
    (found : members.get? name = some (.object inner)) : sizeOf inner < sizeOf members := by
  have := sizeOf_get? found
  rw [Json.object.sizeOf_spec] at this
  omega

theorem sizeOf_get?_array {members : Members} {items : List Json} {name : String}
    (found : members.get? name = some (.array items)) : sizeOf items < sizeOf members := by
  have := sizeOf_get? found
  rw [Json.array.sizeOf_spec] at this
  omega

end Members

namespace Json

def text? : Json → Option String
  | .string text => some text
  | _ => none

def members? : Json → Option Members
  | .object members => some members
  | _ => none

end Json

end AvroIdl
