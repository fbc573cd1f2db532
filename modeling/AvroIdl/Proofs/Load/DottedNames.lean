import AvroIdl.Proofs.Load.Changes
import AvroIdl.Proofs.Load.WellNamed

/-
A dotted name says the same as a simple name beside a namespace: the definition has one header
in every namespace around it, and nothing else in a document reads either spelling.
-/
set_option autoImplicit false

namespace AvroIdl

open Load

namespace Members

/-- A record or enum whose name is dotted, and one that spells the name out as a simple name and
a namespace. The simple name is what follows the last dot. -/
structure Undots (nameSpace simple : String) (members others : Members) : Prop where
  defines : ∃ tag, members.get? "type" = some (.string tag) ∧
    (kind? tag = some .record ∨ kind? tag = some .enum)
  dotted : members.get? "name" = some (.string (nameSpace ++ "." ++ simple))
  last : isDotted simple = false
  absent : members.Gives "namespace" none
  named : others.get? "name" = some (.string simple)
  given : others.get? "namespace" = some (.string nameSpace)
  rest : ∀ key, key ≠ "name" → key ≠ "namespace" → others.get? key = members.get? key

variable {nameSpace simple : String} {members others : Members}

theorem undots_insert (defines : ∃ tag, members.get? "type" = some (.string tag) ∧
      (kind? tag = some .record ∨ kind? tag = some .enum))
    (dotted : members.get? "name" = some (.string (nameSpace ++ "." ++ simple)))
    (last : isDotted simple = false) (absent : members.Gives "namespace" none) :
    Undots nameSpace simple members
      ((members.insert "name" (.string simple)).insert "namespace" (.string nameSpace)) := by
  refine ⟨defines, dotted, last, absent, ?_, ?_, fun key notName notNamespace => ?_⟩
  · rw [get?_insert, if_neg (by decide), get?_insert, if_pos rfl]
  · rw [get?_insert, if_pos rfl]
  · rw [get?_insert, if_neg notNamespace.symm, get?_insert, if_neg notName.symm]

theorem Undots.agreeOn (undots : Undots nameSpace simple members others) {keys : List String}
    (notName : "name" ∉ keys) (notNamespace : "namespace" ∉ keys) :
    AgreeOn keys members others :=
  fun key member => undots.rest key (fun same => notName (same ▸ member))
    fun same => notNamespace (same ▸ member)

end Members

namespace Load

open Members (AgreeOn Undots)

variable {members others : Members} {nameSpace simple : String}

/-- The spelling of a name and the given namespace leave one header at most. -/
theorem header_iff_of_spelled {raw : String} {given : Option String}
    (named : members.get? "name" = some (.string raw)) (gives : members.Gives "namespace" given)
    (around : Option String) (name : TypeName) :
    Header members around name ↔
      name = ⟨(TypeName.ofDotted raw).simple,
        (given <|> (TypeName.ofDotted raw).nameSpace <|> around).filter (· ≠ "")⟩ ∧
      name.simple ≠ "" := by
  constructor
  · rintro ⟨⟨other, otherGiven, namedOther, givesOther, rfl⟩, nonempty⟩
    cases named.symm.trans namedOther
    cases (text?_of_gives gives).symm.trans (text?_of_gives givesOther)
    exact ⟨rfl, nonempty⟩
  · rintro ⟨spelled, nonempty⟩
    exact ⟨⟨raw, given, named, gives, spelled⟩, nonempty⟩

theorem header_iff_of_undots (undots : Undots nameSpace simple members others)
    (around : Option String) (name : TypeName) :
    Header members around name ↔ Header others around name := by
  have dotted : TypeName.ofDotted (nameSpace ++ "." ++ simple) = ⟨simple, some nameSpace⟩ :=
    TypeName.ofDotted_full ⟨simple, some nameSpace⟩ undots.last
  have plain : TypeName.ofDotted simple = ⟨simple, none⟩ :=
    TypeName.ofDotted_full ⟨simple, none⟩ undots.last
  have gives : others.Gives "namespace" (some nameSpace) := undots.given
  rw [header_iff_of_spelled undots.dotted undots.absent,
    header_iff_of_spelled undots.named gives, dotted, plain]
  rfl

theorem alike_of_undots (undots : Undots nameSpace simple members others) :
    Alike (.object members) (.object others) := by
  obtain ⟨tag, tagged, known⟩ := undots.defines
  have headers := header_iff_of_undots undots
  have taggedOther := (undots.rest _ (by decide) (by decide)).trans tagged
  rcases known with isRecord | isEnum
  · have agree : AgreeOn ["type", "doc", "fields"] members others :=
      undots.agreeOn (by decide) (by decide)
    exact ⟨keeps_record tagged isRecord (fun _ _ => (headers _ _).mp) agree,
      keeps_record taggedOther isRecord (fun _ _ => (headers _ _).mpr) agree.symm⟩
  · have agree : AgreeOn ["type", "doc", "symbols"] members others :=
      undots.agreeOn (by decide) (by decide)
    exact ⟨keeps_enum tagged isEnum (fun _ _ => (headers _ _).mp) agree,
      keeps_enum taggedOther isEnum (fun _ _ => (headers _ _).mpr) agree.symm⟩

end Load

/-- One definition in the document has its dotted name spelled out. -/
def Json.Undots : Json → Json → Prop :=
  Changes (fun members others => ∃ nameSpace simple, members.Undots nameSpace simple others)
    fun _ _ => False

namespace Schema

/-- Dotted names and namespaces beside simple names are interchangeable, at any of the
definitions in a document. -/
theorem ofJson_of_undots {json other : Json} (undots : Relation.ReflTransGen Json.Undots json other)
    (s : Schema) : (ofJson json).1 = .ok s ↔ (ofJson other).1 = .ok s := by
  refine ofJson_of_changes ⟨?_, ?_, ?_⟩ undots s
  · rintro members others ⟨nameSpace, simple, undots⟩
    exact undots.rest _ (by decide) (by decide)
  · rintro members others ⟨nameSpace, simple, undots⟩
    exact alike_of_undots undots
  · exact fun members others => False.elim

def undottedEnum : Members :=
  [("name", .string "D"), ("namespace", .string "n"), ("symbols", .array []),
    ("type", .string "enum")]

/-- The layered record with the names of its first and its last type spelled out. -/
def layeredUndotted : Members :=
  ((layeredOuter undottedEnum).insert "name" (.string "A")).insert "namespace" (.string "n")

theorem layeredUndotted_accepted :
    Relation.ReflTransGen Json.Undots layeredJson (.object layeredUndotted) ∧
      (ofJson (.object layeredUndotted)).1 = .ok layered := by
  have enum : Json.Undots (.object (layeredEnum "n.D")) (.object undottedEnum) :=
    .here ⟨"n", "D", Members.undots_insert ⟨"enum", rfl, .inr rfl⟩ rfl rfl (.inl rfl)⟩
  have record : Json.Undots (.object (layeredOuter undottedEnum)) (.object layeredUndotted) :=
    .here ⟨"n", "A", Members.undots_insert ⟨"record", rfl, .inl rfl⟩ rfl rfl (.inl rfl)⟩
  have undots : Relation.ReflTransGen Json.Undots layeredJson (.object layeredUndotted) :=
    (Relation.ReflTransGen.single (changes_layered enum)).tail record
  have accepted : (ofJson layeredJson).1 = .ok layered := congrArg Prod.fst ofJson_layered
  exact ⟨undots, (ofJson_of_undots undots layered).mp accepted⟩

end Schema

end AvroIdl
