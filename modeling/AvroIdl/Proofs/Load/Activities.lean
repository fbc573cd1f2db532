import AvroIdl.Proofs.Load.Advance
import AvroIdl.Proofs.Load.Document
import Mathlib.Logic.Relation

/-
The states that a load is in while a document is read, whether it succeeds or not, and the records
that are around it then.
-/
set_option autoImplicit false

namespace AvroIdl.Load

/-- The state that the call leaves, whether it succeeds or not. -/
def Activity.left : Activity → Loading
  | ⟨.type json, around, s⟩ => (outcome (type json around) s).2
  | ⟨.unionMembers index members, around, s⟩ => (outcome (unionMembers index members around) s).2
  | ⟨.tagged members, around, s⟩ => (outcome (tagged members around) s).2
  | ⟨.array members, around, s⟩ => (outcome (array members around) s).2
  | ⟨.map members, around, s⟩ => (outcome (map members around) s).2
  | ⟨.record members, around, s⟩ => (outcome (record members around) s).2
  | ⟨.fields record index seen items, around, s⟩ =>
    (outcome (fields record index seen items around) s).2
  | ⟨.field json, around, s⟩ => (outcome (field json around) s).2

variable {around : Option String} {s : Loading} {a b : Activity}

theorem Activity.reaches_left (a : Activity) : a.state.Reaches a.left := by
  obtain ⟨ofType, ofTagged, ofMap, ofArray, ofRecord, ofFields, ofField, ofMembers⟩ :=
    compositional_advances.all
  obtain ⟨call, around, s⟩ := a
  cases call with
  | type json => exact ofType json around s
  | tagged members => exact ofTagged members around s
  | map members => exact ofMap members around s
  | array members => exact ofArray members around s
  | record members => exact ofRecord members around s
  | fields record index seen items => exact ofFields record index seen items around s
  | field json => exact ofField json around s
  | unionMembers index members => exact ofMembers index members around s

theorem Calls.reaches (calls : Calls a b) : a.state.Reaches b.state := by
  obtain ⟨ofType, -, -, -, -, -, ofField, -⟩ := compositional_advances.all
  cases calls with
  | laterMembers returns => exact (ofType _ _ _).of_returns returns
  | laterFields returns _ => exact (ofField _ _ _).of_returns returns
  | fields named defined _ _ =>
    obtain ⟨header, -⟩ := (returns_header_iff _ _ _ _).mp named
    exact (advances_define header.plain _).of_returns defined
  | _ => exact .refl _

/-- A call makes others, which make others again. -/
abbrev Leads (a b : Activity) : Prop :=
  Relation.ReflTransGen Calls a b

theorem Leads.reaches (leads : Leads a b) : a.state.Reaches b.state := by
  induction leads with
  | refl => exact .refl _
  | tail _ calls ih => exact ih.trans calls.reaches

/-- The load is in this state when a call starts or ends that the activity leads to. -/
def Activity.Meets (a : Activity) (s : Loading) : Prop :=
  ∃ b, Leads a b ∧ (s = b.state ∨ s = b.left)

theorem Activity.Meets.reaches (meets : a.Meets s) : a.state.Reaches s := by
  obtain ⟨b, leads, rfl | rfl⟩ := meets
  · exact leads.reaches
  · exact leads.reaches.trans b.reaches_left

/-- The activity reads a record of this name. -/
def Activity.Names (a : Activity) (name : TypeName) : Prop :=
  ∃ members, a.call = .record members ∧
    Returns (header members "record" a.around) a.state name a.state

/-- A whole document is read by this activity. -/
def Opens (json : Json) (a : Activity) : Prop :=
  ∃ members, json = .object members ∧
    (text? members "type" = some "record" ∨ text? members "type" = some "error") ∧
    a = ⟨.record members, none, .start⟩

/-- While the document is read the load is in this state, inside a record of this namespace that
has been defined. -/
def Encloses (json : Json) (around : Option String) (s : Loading) : Prop :=
  ∃ top a name, Opens json top ∧ Leads top a ∧ a.Names name ∧ a.Meets s ∧ name ∈ s.defined ∧
    name.nameSpace = around

/-- The fields of a record are read in its namespace, once its name is defined. -/
theorem Calls.of_record {members : Members}
    (calls : Calls ⟨.record members, around, s⟩ b) :
    ∃ name, Activity.Names ⟨.record members, around, s⟩ name ∧ name ∈ b.state.defined ∧
      name.nameSpace = b.around := by
  cases calls with
  | @fields _ name _ _ _ _ _ named defined _ _ =>
    refine ⟨name, ⟨members, rfl, named⟩, ?_, rfl⟩
    obtain ⟨-, rfl⟩ := (returns_define_iff name ()).mp defined
    exact List.mem_append_right _ (List.mem_singleton_self name)

/-- The namespace around a call is the one around its caller, unless that reads a record. -/
theorem Calls.around_eq_or (calls : Calls a b) :
    a.around = b.around ∨
      ∃ name, a.Names name ∧ name ∈ b.state.defined ∧ name.nameSpace = b.around := by
  obtain ⟨call, around, s⟩ := a
  cases call with
  | record members => exact .inr calls.of_record
  | _ =>
    left
    cases calls <;> rfl

/-- Calls other than the first one are made inside a record that is defined by then, and the
namespace around them is that of the record. -/
theorem exists_record_of_leads {json : Json} {top : Activity} (opens : Opens json top)
    (leads : Relation.TransGen Calls top b) :
    ∃ a name, Leads top a ∧ a.Names name ∧ Leads a b ∧ name ∈ b.state.defined ∧
      name.nameSpace = b.around := by
  induction leads with
  | single calls =>
    obtain ⟨members, -, -, rfl⟩ := opens
    obtain ⟨name, names, defined, lies⟩ := calls.of_record
    exact ⟨_, name, .refl, names, .single calls, defined, lies⟩
  | @tail b c leads calls ih =>
    rcases calls.around_eq_or with same | ⟨name, names, defined, lies⟩
    · obtain ⟨a, name, reads, names, within, defined, lies⟩ := ih
      exact ⟨a, name, reads, names, within.tail calls, calls.reaches.mem defined, lies.trans same⟩
    · exact ⟨b, name, leads.to_reflTransGen, names, .single calls, defined, lies⟩

theorem encloses_of_leads {json : Json} {top : Activity} (opens : Opens json top)
    (leads : Relation.TransGen Calls top b) : Encloses json b.around b.state := by
  obtain ⟨a, name, reads, names, within, defined, lies⟩ := exists_record_of_leads opens leads
  exact ⟨top, a, name, opens, reads, names, ⟨b, within, .inl rfl⟩, defined, lies⟩

theorem Encloses.reaches {json : Json} (encloses : Encloses json around s) :
    Loading.start.Reaches s := by
  obtain ⟨_, a, name, ⟨members, -, -, rfl⟩, leads, -, meets, -, -⟩ := encloses
  exact leads.reaches.trans meets.reaches

/-- All types lie in the namespace of the record around. -/
theorem Encloses.together {json : Json} (encloses : Encloses json around s) :
    ∀ d ∈ s.defined, d.nameSpace = around := by
  have orderly := encloses.reaches.orderly Loading.orderly_start
  obtain ⟨_, _, name, -, -, -, -, defined, rfl⟩ := encloses
  intro d member
  exact (orderly.together d member).trans (orderly.together name defined).symm

/-- Where the load of a document ends, it is inside the record that the document defines. -/
theorem encloses_of_describes {json : Json} {schema : Schema} {steps : List Step} {t : Loading}
    (described : DescribesSchema json schema steps) (runs : Loading.start.Runs steps t) :
    Encloses json schema.nameSpace t := by
  cases described with
  | @mk members tag name type _ found known described =>
    have returns : Returns (record members none) .start (type, name.nameSpace) t :=
      (follows_record_none members _ _ _).mpr ⟨steps, ⟨name, rfl, described⟩, runs⟩
    have isLeft : t = Activity.left ⟨.record members, none, .start⟩ :=
      (congrArg Prod.snd returns).symm
    cases described with
    | mk shape _ _ =>
      refine ⟨_, ⟨.record members, none, .start⟩, name, ⟨members, rfl, ?_, rfl⟩, .refl,
        ⟨members, rfl, (returns_header_iff _ _ _ _).mpr ⟨shape.header, rfl⟩⟩,
        ⟨_, .refl, .inr isLeft⟩, ?_, rfl⟩
      · rw [← text?_eq_some_iff] at found
        rcases (kind?_eq_record_iff tag).mp known with rfl | rfl
        · exact .inl found
        · exact .inr found
      · rw [Loading.defined_of_runs runs]
        exact List.mem_cons_self

end AvroIdl.Load
