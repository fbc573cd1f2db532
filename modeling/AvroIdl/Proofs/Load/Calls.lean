import AvroIdl.Proofs.Load.Exact

/-
The calls that a load is made of, and an induction over them. What is known of a run because of how
it is put together, and passes from a call to its caller, is known of all of them.
-/
set_option autoImplicit false

namespace AvroIdl

namespace LoadError

/-- The fault itself, without the parts of the document that it lies in. -/
def cause : LoadError → LoadError
  | .inUnionMember _ e | .inArrayItems e | .inMapValues e | .inField _ _ e | .inFieldType _ e
  | .inFieldDefault _ e => e.cause
  | e => e

/-- Whether a name was looked up that is not defined. -/
def isLookup (e : LoadError) : Bool :=
  match e.cause with
  | .undefinedType _ _ => true
  | _ => false

end LoadError

namespace Load

/-- A call of one of the functions that read parts of a document. -/
inductive Call
  | type (json : Json)
  | unionMembers (index : Nat) (members : List Json)
  | tagged (members : Members)
  | array (members : Members)
  | map (members : Members)
  | record (members : Members)
  | fields (record : String) (index : Nat) (seen : List String) (items : List Json)
  | field (json : Json)

/-- A call, the namespace around it and the state that it starts from. -/
structure Activity where
  call : Call
  around : Option String
  state : Loading

/-- The calls that a call makes itself. What comes after another call is made in the state that
the other one left, if that one succeeded. -/
inductive Calls : Activity → Activity → Prop
  | union {members : List Json} {around : Option String} {s : Loading} (nonempty : members ≠ []) :
      Calls ⟨.type (.array members), around, s⟩ ⟨.unionMembers 0 members, around, s⟩
  | object {members : Members} {around : Option String} {s : Loading} :
      Calls ⟨.type (.object members), around, s⟩ ⟨.tagged members, around, s⟩
  | member {index : Nat} {first : Json} {rest : List Json} {around : Option String}
      {s : Loading} :
      Calls ⟨.unionMembers index (first :: rest), around, s⟩ ⟨.type first, around, s⟩
  | laterMembers {index : Nat} {first : Json} {rest : List Json} {around : Option String}
      {s t : Loading} {result : AvroType} (returns : Returns (type first around) s result t) :
      Calls ⟨.unionMembers index (first :: rest), around, s⟩
        ⟨.unionMembers (index + 1) rest, around, t⟩
  | wrapped {members inner : Members} {around : Option String} {s : Loading}
      (found : members.get? "type" = some (.object inner)) :
      Calls ⟨.tagged members, around, s⟩ ⟨.tagged inner, around, s⟩
  | wrappedUnion {members : Members} {inner : List Json} {around : Option String} {s : Loading}
      (found : members.get? "type" = some (.array inner)) :
      Calls ⟨.tagged members, around, s⟩ ⟨.type (.array inner), around, s⟩
  | record {members : Members} {tag : String} {around : Option String} {s : Loading}
      (found : members.get? "type" = some (.string tag)) (known : kind? tag = some .record) :
      Calls ⟨.tagged members, around, s⟩ ⟨.record members, around, s⟩
  | array {members : Members} {tag : String} {around : Option String} {s : Loading}
      (found : members.get? "type" = some (.string tag)) (known : kind? tag = some .array) :
      Calls ⟨.tagged members, around, s⟩ ⟨.array members, around, s⟩
  | map {members : Members} {tag : String} {around : Option String} {s : Loading}
      (found : members.get? "type" = some (.string tag)) (known : kind? tag = some .map) :
      Calls ⟨.tagged members, around, s⟩ ⟨.map members, around, s⟩
  | items {members : Members} {json : Json} {around : Option String} {s : Loading}
      (found : members.get? "items" = some json) :
      Calls ⟨.array members, around, s⟩ ⟨.type json, around, s⟩
  | values {members : Members} {json : Json} {around : Option String} {s : Loading}
      (found : members.get? "values" = some json) :
      Calls ⟨.map members, around, s⟩ ⟨.type json, around, s⟩
  | fields {members : Members} {name : TypeName} {doc : Option String} {items : List Json}
      {around : Option String} {s t : Loading}
      (named : Returns (header members "record" around) s name s)
      (defined : Returns (define name) s () t)
      (documented : Returns (optionalText members "doc") t doc t)
      (found : members.get? "fields" = some (.array items)) :
      Calls ⟨.record members, around, s⟩ ⟨.fields name.simple 0 [] items, name.nameSpace, t⟩
  | field {record : String} {index : Nat} {seen : List String} {item : Json} {rest : List Json}
      {around : Option String} {s : Loading} :
      Calls ⟨.fields record index seen (item :: rest), around, s⟩ ⟨.field item, around, s⟩
  | laterFields {record : String} {index : Nat} {seen : List String} {item : Json}
      {rest : List Json} {around : Option String} {s t : Loading} {first : Field}
      (returns : Returns (field item around) s first t) (fresh : first.name ∉ seen) :
      Calls ⟨.fields record index seen (item :: rest), around, s⟩
        ⟨.fields record (index + 1) (seen ++ [first.name]) rest, around, t⟩
  | fieldType {members : Members} {name : String} {json : Json} {around : Option String}
      {s : Loading} (named : text? members "name" = some name)
      (found : members.get? "type" = some json) :
      Calls ⟨.field (.object members), around, s⟩ ⟨.type json, around, s⟩

/-- A property of the runs of an activity, given by an action and the state that it starts from. The
building blocks of a load have it, and a caller has it by its calls. -/
structure Compositional (R : Activity → {α : Type} → Load α → Loading → Prop) : Prop where
  ofPure {a : Activity} {α : Type} (value : α) (s : Loading) : R a (pure value : Load α) s
  ofThrow {a : Activity} {α : Type} {e : LoadError} (s : Loading)
    (other : e.isLookup = false) : R a (throw e : Load α) s
  ofBind {a : Activity} {α β : Type} {action : Load α} {next : α → Load β} {s : Loading}
    (first : R a action s)
    (later : ∀ value t, Returns action s value t → R a (next value) t) : R a (action >>= next) s
  ofWithin {a : Activity} {α : Type} {action : Load α} {s : Loading}
    {context : LoadError → LoadError} (kept : ∀ e, (context e).cause = e.cause)
    (inner : R a action s) : R a (within context action) s
  ofWarn {a : Activity} (w : Warning) (s : Loading) : R a (warn w) s
  ofDefine {a : Activity} {name : TypeName} (plain : isDotted name.simple = false) (s : Loading) :
    R a (define name) s
  ofWord (name : String) (around : Option String) (s : Loading) :
    R ⟨.type (.string name), around, s⟩ (word name around) s
  ofCall {a b : Activity} {α : Type} {action : Load α} {s : Loading} (calls : Calls a b)
    (inner : R b action s) : R a action s

namespace Compositional

variable {R : Activity → {α : Type} → Load α → Loading → Prop} (known : Compositional R)
  {a : Activity} {α β : Type} {s : Loading}
include known

/-- A check lets the load go on or ends it. -/
theorem check {rest : Load α} {wrong : Prop} [Decidable wrong] {e : LoadError} (after : β → Load α)
    (other : e.isLookup = false) (passed : ¬ wrong → R a rest s) :
    R a (if wrong then throw e >>= after else rest) s := by
  split
  · exact known.ofBind (known.ofThrow s other) fun _ _ impossible =>
      absurd impossible (not_returns_throw e _)
  · exact passed ‹_›

theorem ofOption {e : LoadError} (other : e.isLookup = false) (value : Option α) :
    R a (Load.ofOption e value) s := by
  cases value with
  | none => exact known.ofThrow s other
  | some value => exact known.ofPure value s

theorem optionalText (members : Members) (key : String) :
    R a (Load.optionalText members key) s := by
  rw [Load.optionalText]
  split
  · exact known.ofPure none s
  · exact known.ofPure none s
  · exact known.ofPure _ s
  · exact known.ofThrow s rfl

theorem warn? (w : Option Warning) : R a (Load.warn? w) s := by
  cases w with
  | none => exact known.ofPure () s
  | some w => exact known.ofWarn w s

/-- What comes after a header knows that its name has no dot, and that the state is the same. -/
theorem named {members : Members} {kind : String} {around : Option String}
    {next : TypeName → Load α}
    (later : ∀ name, Returns (header members kind around) s name s →
      isDotted name.simple = false → R a (next name) s) :
    R a (header members kind around >>= next) s := by
  refine known.ofBind ?_ fun name t returns => ?_
  · rw [header]
    refine known.ofBind (known.ofOption rfl _) fun _ _ _ => known.check _ rfl fun _ => ?_
    exact known.ofBind (known.optionalText _ _) fun _ t _ => known.ofPure _ t
  · obtain ⟨header, rfl⟩ := (returns_header_iff _ _ _ _).mp returns
    exact later name returns header.plain

theorem symbols (enum : String) (seen : List String) (items : List Json) :
    R a (Load.symbols enum seen items) s := by
  fun_induction Load.symbols enum seen items with
  | case1 seen => exact known.ofPure seen s
  | case2 => exact known.ofThrow s rfl
  | case3 _ _ _ _ ih => exact ih
  | case4 => exact known.ofThrow s rfl

theorem enum (members : Members) (around : Option String) : R a (Load.enum members around) s := by
  rw [Load.enum]
  refine known.named fun name _ plain => known.ofBind (known.ofDefine plain s) fun _ _ _ => ?_
  refine known.ofBind (known.optionalText _ _) fun _ t _ => ?_
  split
  · exact known.ofBind (known.symbols _ _ _) fun _ t _ => known.ofPure _ t
  · exact known.ofThrow t rfl

theorem defaultValue (json : Json) : R a (Load.defaultValue json) s := by
  fun_cases Load.defaultValue json <;>
    first | exact known.ofPure _ s | exact known.ofThrow s rfl

/-- A field's default is read before the members that come after it. -/
theorem default (found : Option Json) (name : String) {rest : Option Default → Load α}
    (later : ∀ default t, R a (rest default) t) :
    R a (match found with
      | none => pure none >>= rest
      | some value =>
        (some <$> within (.inFieldDefault name) (Load.defaultValue value)) >>= rest) s := by
  cases found with
  | none => exact known.ofBind (known.ofPure none s) fun default t _ => later default t
  | some value =>
    dsimp only
    rw [← bind_pure_comp]
    refine known.ofBind ?_ fun default t _ => later default t
    have read : R a (within (.inFieldDefault name) (Load.defaultValue value)) s :=
      known.ofWithin (fun _ => rfl) (known.defaultValue value)
    exact known.ofBind read fun _ t _ => known.ofPure _ t

theorem annotatedPrimitive (members : Members) (tag : String) :
    R a (Load.annotatedPrimitive members tag) s := by
  rw [annotatedPrimitive_eq]
  refine known.ofBind (known.warn? _) fun _ _ _ => ?_
  exact known.ofBind (known.optionalText _ _) fun _ t _ => known.ofPure _ t

/-- Whatever composes in this way holds of all calls. -/
theorem all :
    (∀ json around s, R ⟨.type json, around, s⟩ (type json around) s) ∧
    (∀ members around s, R ⟨.tagged members, around, s⟩ (tagged members around) s) ∧
    (∀ members around s, R ⟨.map members, around, s⟩ (map members around) s) ∧
    (∀ members around s, R ⟨.array members, around, s⟩ (array members around) s) ∧
    (∀ members around s, R ⟨.record members, around, s⟩ (record members around) s) ∧
    (∀ record index seen items around s,
      R ⟨.fields record index seen items, around, s⟩ (fields record index seen items around) s) ∧
    (∀ json around s, R ⟨.field json, around, s⟩ (field json around) s) ∧
    (∀ index members around s,
      R ⟨.unionMembers index members, around, s⟩ (unionMembers index members around) s) := by
  apply type.mutual_induct
  case case1 =>
    intro around name s
    rw [type]
    exact known.ofWord name around s
  case case2 =>
    intro around s
    rw [type]
    exact known.ofThrow s rfl
  case case3 =>
    intro around items nonempty members s
    rw [type]
    · exact known.ofBind (known.ofCall (.union nonempty) (members s)) fun _ t _ => known.ofPure _ t
    · exact nonempty
  case case4 =>
    intro around members inner s
    rw [type]
    exact known.ofCall .object (inner s)
  case case5 =>
    intro around other notText notEmpty notArray notObject s
    rw [type]
    · exact known.ofThrow s rfl
    · exact notText
    · exact notEmpty
    · exact notArray
    · exact notObject
  -- The cases of `tagged`.
  case case6 =>
    intro members around inner found wrapped s
    rw [tagged_object around found, type]
    exact known.ofCall (.wrapped found) (wrapped s)
  case case7 =>
    intro members around inner found wrapped s
    rw [tagged_array around found]
    exact known.ofCall (.wrappedUnion found) (wrapped s)
  case case8 =>
    intro members around tag found isRecord inner s
    rw [tagged_eq around found, isRecord]
    exact known.ofBind (known.ofCall (.record found isRecord) (inner s)) fun _ t _ =>
      known.ofPure _ t
  case case9 =>
    intro members around tag found isEnum s
    rw [tagged_eq around found, isEnum]
    exact known.ofBind (known.enum members around) fun _ t _ => known.ofPure _ t
  case case10 =>
    intro members around tag found isArray inner s
    rw [tagged_eq around found, isArray]
    exact known.ofCall (.array found isArray) (inner s)
  case case11 =>
    intro members around tag found isMap inner s
    rw [tagged_eq around found, isMap]
    exact known.ofCall (.map found isMap) (inner s)
  case case12 =>
    intro members around tag found isPrimitive s
    rw [tagged_eq around found, isPrimitive]
    exact known.annotatedPrimitive members tag
  case case13 =>
    intro members around tag found unknown s
    rw [tagged_eq around found, unknown]
    dsimp only
    rw [unknownTag]
    split <;> exact known.ofThrow s rfl
  case case14 =>
    intro members around other notObject notArray notText found s
    rw [tagged_invalid around found notObject notArray notText]
    exact known.ofThrow s rfl
  case case15 =>
    intro members around missing s
    rw [tagged_missing around missing]
    exact known.ofThrow s rfl
  -- Maps and arrays.
  case case16 =>
    intro members around missing s
    rw [map]
    split
    · exact known.ofThrow s rfl
    · rename_i json found
      cases missing.symm.trans found
  case case17 =>
    intro members around json found values s
    rw [map]
    split
    · exact known.ofThrow s rfl
    · rename_i other isOther
      cases found.symm.trans isOther
      have inner := known.ofCall (.values found) (values s)
      refine known.ofBind (known.ofWithin (fun _ => rfl) inner) fun _ _ _ => ?_
      refine known.ofBind (known.optionalText _ _) fun _ _ _ => ?_
      exact known.ofBind (known.optionalText _ _) fun _ t _ => known.ofPure _ t
  case case18 =>
    intro members around missing s
    rw [array]
    split
    · exact known.ofThrow s rfl
    · rename_i json found
      cases missing.symm.trans found
  case case19 =>
    intro members around json found items s
    rw [array_eq around found]
    have inner := known.ofCall (.items found) (items s)
    refine known.ofBind (known.ofWithin (fun _ => rfl) inner) fun _ _ _ => ?_
    refine known.ofBind (known.warn? _) fun _ _ _ => ?_
    exact known.ofBind (known.optionalText _ _) fun _ t _ => known.ofPure _ t
  -- Records and their fields.
  case case20 =>
    intro members around ofFields s
    rw [record]
    refine known.named fun name named plain => ?_
    refine known.ofBind (known.ofDefine plain s) fun _ t defined => ?_
    refine known.ofBind (known.optionalText _ _) fun doc _ documented => ?_
    obtain ⟨-, rfl⟩ := (returns_optionalText_iff _ _ _).mp documented
    split
    · rename_i items found
      have calls := Calls.fields named defined documented found
      have inner := known.ofCall calls (ofFields name items found t)
      exact known.ofBind inner fun _ t _ => known.ofPure _ t
    · exact known.ofThrow t rfl
    · exact known.ofThrow t rfl
  case case21 =>
    intro record index seen around s
    rw [fields]
    exact known.ofPure _ s
  case case22 =>
    intro record index seen around item rest first others s
    rw [fields]
    refine known.ofBind (known.ofWithin (fun _ => rfl) (known.ofCall .field (first s))) ?_
    intro head t returns
    rw [returns_within_iff] at returns
    refine known.check _ rfl fun fresh => ?_
    have later := known.ofCall (.laterFields returns fresh) (others head t)
    exact known.ofBind later fun _ t _ => known.ofPure _ t
  case case23 =>
    intro around members ofType s
    rw [field]
    refine known.ofBind (known.ofOption rfl _) fun name t returns => ?_
    obtain ⟨named, rfl⟩ := (returns_ofOption_iff _ _ _).mp returns
    split
    · exact known.ofThrow s rfl
    · rename_i json found
      have inner := known.ofCall (.fieldType named found) (ofType json found s)
      refine known.ofBind (known.ofWithin (fun _ => rfl) inner) fun _ _ _ => ?_
      refine known.default _ name fun default t => ?_
      refine known.ofBind (known.optionalText _ _) fun _ _ _ => ?_
      exact known.ofBind (known.optionalText _ _) fun _ t _ => known.ofPure _ t
  case case24 =>
    intro json around other s
    rw [field]
    · exact known.ofThrow s rfl
    · exact other
  -- The members of a union.
  case case25 =>
    intro index around s
    rw [unionMembers]
    exact known.ofPure _ s
  case case26 =>
    intro index around member rest first others s
    rw [unionMembers]
    refine known.ofBind (known.ofWithin (fun _ => rfl) (known.ofCall .member (first s))) ?_
    intro _ t returns
    rw [returns_within_iff] at returns
    have later := known.ofCall (.laterMembers returns) (others t)
    exact known.ofBind later fun _ t _ => known.ofPure _ t

end Compositional

end Load

end AvroIdl
