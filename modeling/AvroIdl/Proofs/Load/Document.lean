import AvroIdl.Conversion.Converter
import AvroIdl.Proofs.Load.Exact

/-
Whole documents: which texts are accepted, and as which schema.
-/
set_option autoImplicit false

namespace AvroIdl

namespace Load

theorem kind?_eq_record_iff (tag : String) :
    kind? tag = some .record ↔ tag = "record" ∨ tag = "error" := by
  constructor
  · intro known
    unfold kind? at known
    split at known
    · exact .inl rfl
    · exact .inr rfl
    all_goals cases known
  · rintro (rfl | rfl) <;> rfl

theorem follows_top {members : Members} {tag : String}
    (found : members.get? "type" = some (.string tag)) (known : kind? tag = some .record) :
    Follows (do
      let (top, nameSpace) ← record members none
      return (⟨top.name, nameSpace, top.doc, top.fields⟩ : Schema))
      (DescribesSchema (.object members)) := by
  intro s schema t
  simp only [returns_bind_iff, returns_pure_iff]
  constructor
  · rintro ⟨⟨top, nameSpace⟩, _, run, rfl, rfl⟩
    obtain ⟨steps, ⟨name, rfl, described⟩, runs⟩ := (follows_record_none members s _ _).mp run
    exact ⟨steps, .mk found known described, runs⟩
  · rintro ⟨steps, described, runs⟩
    cases described with
    | @mk _ _ name type _ _ _ described =>
      refine ⟨(type, name.nameSpace), t, ?_, rfl, rfl⟩
      exact (follows_record_none members s _ t).mpr ⟨steps, ⟨name, rfl, described⟩, runs⟩

theorem follows_document (json : Json) : Follows (document json) (DescribesSchema json) := by
  fun_cases document json with
  | case1 members isRecord => exact follows_top ((text?_eq_some_iff _ _ _).mp isRecord) rfl
  | case2 members isError => exact follows_top ((text?_eq_some_iff _ _ _).mp isError) rfl
  | case3 members other notRecord notError isOther =>
      apply Follows.of_throw
      rintro schema steps ⟨found, known, -⟩
      cases isOther.symm.trans ((text?_eq_some_iff _ _ _).mpr found)
      rcases (kind?_eq_record_iff other).mp known with same | same
      · exact notRecord same
      · exact notError same
  | case4 members untagged =>
      apply Follows.of_throw
      rintro schema steps ⟨found, -, -⟩
      rw [(text?_eq_some_iff _ _ _).mpr found] at untagged
      cases untagged
  | case5 other notObject =>
      apply Follows.of_throw
      rintro schema steps ⟨-, -, -⟩
      exact notObject _ rfl

end Load

namespace Schema

theorem ofJson_eq_ok_iff (json : Json) (s : Schema) (t : Loading) :
    ofJson json = (.ok s, t) ↔
      ∃ steps, Load.DescribesSchema json s steps ∧ Loading.start.Runs steps t :=
  Load.follows_document json Loading.start s t

theorem load_eq_ok_iff_ofJson (source name : String) (s : Schema) :
    load source name = .ok s ↔
      ∃ json t, Json.read source = .ok json ∧ ofJson json = (.ok s, t) := by
  rw [load, ofSource]
  cases Json.read source with
  | error e => simp [Except.mapError]
  | ok json =>
    rcases found : ofJson json with ⟨e | found, t⟩ <;> simp [Except.mapError, found]

/-- A text is accepted exactly if it is the JSON of a description whose steps all pass. -/
theorem load_eq_ok_iff (source name : String) (s : Schema) :
    load source name = .ok s ↔
      ∃ json steps t, Json.read source = .ok json ∧ Load.DescribesSchema json s steps ∧
        Loading.start.Runs steps t := by
  simp only [load_eq_ok_iff_ofJson, ofJson_eq_ok_iff]
  constructor
  · rintro ⟨json, t, read, steps, described, runs⟩
    exact ⟨json, steps, t, read, described, runs⟩
  · rintro ⟨json, steps, t, read, described, runs⟩
    exact ⟨json, t, read, steps, described, runs⟩

/-- An enum inside of a record, and a union that refers to both, each in its own way. -/
def nested : Schema :=
  ⟨"A", some "n", none, [⟨"b", .enum ⟨"B", none, []⟩, none, none, none⟩,
    ⟨"c", .union [.reference "A", .reference "n.B"], none, none, none⟩]⟩

def nestedEnum : Members :=
  [("name", .string "B"), ("symbols", .array []), ("type", .string "enum")]

def nestedField (name : String) (type : Json) : Json :=
  .object [("name", .string name), ("type", type)]

theorem describes_nestedField {around : Option String} {json : Json} {type : AvroType}
    {steps : List Load.Step} (name : String) (described : Load.Describes around json type steps) :
    Load.DescribesField around (nestedField name json) ⟨name, type, none, none, none⟩ steps :=
  .mk ⟨rfl, .inl rfl, .none, .inl rfl⟩ rfl described

def nestedMembers : Members :=
  [("fields", .array [nestedField "b" (.object nestedEnum),
      nestedField "c" (.array [.string "A", .string "n.B"])]),
    ("name", .string "n.A"), ("type", .string "record")]

def nestedJson : Json :=
  .object nestedMembers

def nestedSource : String :=
  "\x7b\"name\":\"n.A\",\"type\":\"record\",\"fields\":[" ++
    "\x7b\"name\":\"b\",\"type\":\x7b\"name\":\"B\",\"type\":\"enum\",\"symbols\":[]\x7d\x7d," ++
    "\x7b\"name\":\"c\",\"type\":[\"A\",\"n.B\"]\x7d]\x7d"

set_option maxRecDepth 10000 in
theorem read_nestedSource : Json.read nestedSource = .ok nestedJson := rfl

def nestedSteps : List Load.Step :=
  [.define ⟨"A", some "n"⟩, .define ⟨"B", some "n"⟩, .mention "A" (some "n"),
    .mention "n.B" (some "n")]

theorem describes_nested : Load.DescribesSchema nestedJson nested nestedSteps := by
  have top : Load.Header nestedMembers none ⟨"A", some "n"⟩ :=
    ⟨⟨"n.A", none, rfl, .inl rfl, by decide⟩, by decide⟩
  have size : Load.Header nestedEnum (some "n") ⟨"B", some "n"⟩ :=
    ⟨⟨"B", none, rfl, .inl rfl, by decide⟩, by decide⟩
  have enum : Load.Describes (some "n") (.object nestedEnum) (.enum ⟨"B", none, []⟩)
      [.define ⟨"B", some "n"⟩] :=
    .tagged rfl rfl (.enum ⟨size, rfl, .inl rfl, rfl, List.nodup_nil⟩)
  have union : Load.Describes (some "n") (.array [.string "A", .string "n.B"])
      (.union [.reference "A", .reference "n.B"])
      [.mention "A" (some "n"), .mention "n.B" (some "n")] :=
    .union (List.cons_ne_nil _ _) (.cons (.reference rfl (by decide))
      (.cons (.reference rfl (by decide)) .nil))
  have record : Load.DescribesRecord none nestedMembers ⟨"A", some "n"⟩ nested.asRecord
      nestedSteps :=
    .mk ⟨top, rfl, .inl rfl, by decide⟩ rfl (.cons (describes_nestedField "b" enum)
      (.cons (describes_nestedField "c" union) .nil))
  exact .mk rfl rfl record

theorem load_nestedSource (name : String) : load nestedSource name = .ok nested := by
  rw [load_eq_ok_iff]
  refine ⟨nestedJson, nestedSteps, ⟨[⟨"A", some "n"⟩, ⟨"B", some "n"⟩], []⟩, read_nestedSource,
    describes_nested, ?_⟩
  exact ⟨⟨.inl rfl, rfl⟩, ⟨.inr rfl, rfl⟩, rfl, rfl, rfl⟩

end Schema

end AvroIdl
