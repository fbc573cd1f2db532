import AvroIdl.Idl.Protocol
import AvroIdl.Proofs.Declaration.Repeats

/-
Declaring each name once, compared with declaring every definition where it stands: when
it fails, on which name, and what it keeps when it does not.
-/
set_option autoImplicit false

namespace AvroIdl.Schema

open Declaration

/-- The top record and every record and enum defined inside of it, in order. -/
def definitions (s : Schema) : List Declaration :=
  .record s.asRecord :: definitionsOf s.roots

theorem definitions_eq (s : Schema) : s.definitions = definitionsOf [.record s.asRecord] := by
  rw [definitionsOf_cons, definitionsOf_nil, List.append_nil]
  rfl

/-- The registry from which the walk starts. -/
def onlyTop (s : Schema) : Registry :=
  ⟨[.record s.asRecord], List.nodup_singleton _⟩

theorem register_top (s : Schema) :
    (Registry.empty.register (.record s.asRecord)).2 = s.onlyTop := by
  rw [Registry.register_of_new rfl]
  rfl

theorem declarations_redeclare (s : Schema) :
    s.declarations .redeclare = .ok (definitionsOf s.roots) := by
  rw [declarations, Walk.declared_redeclare]

theorem render_eq (s : Schema) : s.render = s.protocol (definitionsOf s.roots) := by
  rw [render, Walk.declared_redeclare]

/-- Every definition is the first of its name, or one equal to it. -/
def Agrees (s : Schema) : Prop :=
  ∀ d ∈ s.definitions, firstNamed s.definitions d.name = some d

theorem agrees_iff (s : Schema) :
    s.definitions.find? (differsFromFirst s.definitions) = none ↔ s.Agrees := by
  rw [List.find?_eq_none]
  apply forall_congr'
  intro d
  rw [Bool.not_eq_true, differsFromFirst_eq_false]

/-- A definition of the top record's name would be a copy of that record inside of it. -/
theorem Agrees.name_ne {s : Schema} (agrees : s.Agrees) {d : Declaration}
    (member : d ∈ definitionsOf s.roots) : d.name ≠ s.name := by
  intro same
  have first := agrees d (List.mem_cons_of_mem _ member)
  have isTop : (record s.asRecord).name = d.name := same.symm
  rw [definitions, firstNamed_cons, if_pos isTop] at first
  have less : sizeOf d < sizeOf (Declaration.record s.asRecord) :=
    sizeOf_lt_of_mem_inner member
  rw [Option.some.inj first] at less
  exact Nat.lt_irrefl _ less

/-- When the walk starts, only the top record is declared, and only that one is incomplete. -/
theorem findings_deduplicate (s : Schema) :
    (Walk.deduplicate s.roots (Registry.empty.register (.record s.asRecord)).2).findings =
      declareAll (definitionsOf s.roots) (some s.onlyTop) := by
  rw [register_top, Walk.deduplicate, Walk.findings_of_not_failed]
  refine (visitAll_eq_declareAll s.roots _ (sizeOf (Declaration.record s.asRecord)) ?_ ?_).1
  · intro d held small
    have top := List.mem_singleton.mp (mem_of_firstNamed held)
    rw [top] at small
    exact absurd small (Nat.lt_irrefl _)
  · intro d member
    exact sizeOf_lt_of_mem_inner member

theorem declarations_deduplicate (s : Schema) :
    s.declarations .deduplicate =
      match s.definitions.find? (differsFromFirst s.definitions) with
      | some d => .error ⟨d.name⟩
      | none => .ok (firstOfEachName (definitionsOf s.roots)) := by
  have topIsFirst : differsFromFirst s.definitions (.record s.asRecord) = false := by
    rw [differsFromFirst_eq_false, definitions, firstNamed_cons, if_pos rfl]
  have skipped : s.definitions.find? (differsFromFirst s.definitions) =
      (definitionsOf s.roots).find? (differsFromFirst s.definitions) :=
    List.find?_cons_of_neg (by rw [topIsFirst]; exact Bool.false_ne_true)
  have afterTop : (declareAll (definitionsOf s.roots) (some s.onlyTop)).items.mapM id =
      match (definitionsOf s.roots).find? (differsFromFirst s.definitions) with
      | some d => .error ⟨d.name⟩
      | none => .ok ((firstOfEachName (definitionsOf s.roots)).filter fun d => d.name ∉ [s.name]) :=
    declared?_declareAll _ _
  rw [declarations, Walk.declared?, Walk.toList_eq_findings, findings_deduplicate, afterTop,
    skipped]
  cases conflict : (definitionsOf s.roots).find? (differsFromFirst s.definitions) with
  | some d => rfl
  | none =>
    have agrees := s.agrees_iff.mp (skipped.trans conflict)
    have kept : ((firstOfEachName (definitionsOf s.roots)).filter fun d => d.name ∉ [s.name]) =
        firstOfEachName (definitionsOf s.roots) := by
      rw [List.filter_eq_self]
      intro d member
      have other := agrees.name_ne ((firstOfEachName_sublist _).subset member)
      simpa using other
    exact congrArg Except.ok kept

theorem agrees_iff_forall (s : Schema) :
    s.Agrees ↔ ∀ a ∈ s.definitions, ∀ b ∈ s.definitions, a.name = b.name → a = b := by
  constructor
  · intro agrees a memberA b memberB same
    have firstA := agrees a memberA
    rw [same, agrees b memberB] at firstA
    exact (Option.some.inj firstA).symm
  · intro equal d member
    obtain ⟨first, found⟩ := exists_firstNamed member
    rw [found, equal first (mem_of_firstNamed found) d member (name_of_firstNamed found)]

theorem declarations_deduplicate_eq_ok_iff (s : Schema) (kept : List Declaration) :
    s.declarations .deduplicate = .ok kept ↔
      s.Agrees ∧ kept = firstOfEachName (definitionsOf s.roots) := by
  rw [declarations_deduplicate, ← agrees_iff]
  cases s.definitions.find? (differsFromFirst s.definitions) with
  | some d => simp
  | none => simp [eq_comm]

theorem declarations_deduplicate_eq_error_iff (s : Schema) (e : NameConflict) :
    s.declarations .deduplicate = .error e ↔
      ∃ d, s.definitions.find? (differsFromFirst s.definitions) = some d ∧ e.name = d.name := by
  obtain ⟨name⟩ := e
  rw [declarations_deduplicate]
  cases s.definitions.find? (differsFromFirst s.definitions) with
  | some d => simp [eq_comm]
  | none => simp

/-- Names that are all distinct make no difference between the policies. -/
theorem declarations_deduplicate_of_nodup {s : Schema}
    (distinct : (s.definitions.map Declaration.name).Nodup) :
    s.declarations .deduplicate = s.declarations .redeclare := by
  rw [declarations_redeclare, declarations_deduplicate_eq_ok_iff]
  refine ⟨fun d member => firstNamed_of_nodup distinct member, ?_⟩
  exact (firstOfEachName_of_nodup (List.nodup_cons.mp distinct).2).symm

theorem renderWith_eq_error_iff (s : Schema) (policy : Policy) (e : NameConflict) :
    s.renderWith policy = .error e ↔ s.declarations policy = .error e := by
  rw [renderWith]
  cases s.declarations policy <;> simp [Except.map]

theorem renderWith_eq_ok_iff (s : Schema) (policy : Policy) (text : String) :
    s.renderWith policy = .ok text ↔
      ∃ kept, s.declarations policy = .ok kept ∧ text = s.protocol kept := by
  rw [renderWith]
  cases s.declarations policy <;> simp [Except.map, eq_comm]

theorem not_agrees_iff (s : Schema) :
    ¬ s.Agrees ↔ ∃ a ∈ s.definitions, ∃ b ∈ s.definitions, a.name = b.name ∧ a ≠ b := by
  rw [agrees_iff_forall]
  simp only [not_forall, exists_prop, ne_eq]

theorem renderWith_deduplicate_eq_error_iff (s : Schema) (e : NameConflict) :
    s.renderWith .deduplicate = .error e ↔
      ∃ d, s.definitions.find? (differsFromFirst s.definitions) = some d ∧ e.name = d.name := by
  rw [renderWith_eq_error_iff, declarations_deduplicate_eq_error_iff]

theorem exists_error_iff (s : Schema) :
    (∃ e, s.renderWith .deduplicate = .error e) ↔ ¬ s.Agrees := by
  simp only [renderWith_deduplicate_eq_error_iff]
  rw [← agrees_iff, ← ne_eq, Option.ne_none_iff_exists']
  constructor
  · rintro ⟨e, d, found, -⟩
    exact ⟨d, found⟩
  · rintro ⟨d, found⟩
    exact ⟨⟨d.name⟩, d, found, rfl⟩

/-- Declaring each name once fails exactly when two definitions share a name and differ, also
if one of them stands inside of a repeated definition. The failure names the first definition
that differs from the first of its name. -/
theorem renderWith_deduplicate_fails_iff (s : Schema) :
    s.declarations .redeclare = .ok s.definitions.tail ∧
      ((∃ e, s.renderWith .deduplicate = .error e) ↔
        ∃ a ∈ s.definitions, ∃ b ∈ s.definitions, a.name = b.name ∧ a ≠ b) ∧
      ∀ e, s.renderWith .deduplicate = .error e →
        ∃ d, s.definitions.find? (differsFromFirst s.definitions) = some d ∧ e.name = d.name := by
  refine ⟨s.declarations_redeclare, ?_, ?_⟩
  · rw [exists_error_iff, not_agrees_iff]
  · intro e failed
    exact (s.renderWith_deduplicate_eq_error_iff e).mp failed

/-- An item as the type of one field, and inside of the list that is the type of another. -/
def twoItems (first second : RecordType) : Schema :=
  ⟨"Order", none, none, [⟨"main", .record first, none, none, none⟩,
    ⟨"others", .array (.record second) none none, none, none, none⟩]⟩

def item (field : String) : RecordType :=
  ⟨"Item", none, [⟨field, .enum ⟨"Size", none, ["SMALL"]⟩, none, none, none⟩]⟩

theorem twoItems_fails :
    (∃ e, (twoItems (item "x") (item "y")).renderWith .deduplicate = .error e) ∧
      ∀ e, (twoItems (item "x") (item "y")).renderWith .deduplicate = .error e →
        e.name = "Item" := by
  obtain ⟨-, fails, first⟩ := renderWith_deduplicate_fails_iff (twoItems (item "x") (item "y"))
  constructor
  · apply fails.mpr
    exact ⟨.record (item "x"), by decide +kernel, .record (item "y"), by decide +kernel, rfl,
      by decide +kernel⟩
  · intro e failed
    obtain ⟨d, found, named⟩ := first e failed
    have differs : (twoItems (item "x") (item "y")).definitions.find?
        (differsFromFirst (twoItems (item "x") (item "y")).definitions) =
          some (.record (item "y")) := by
      decide +kernel
    rw [differs] at found
    rw [named, ← Option.some.inj found]
    rfl

/-- What is declared when each name is declared once: all definitions in order, without those
whose name came before. Every definition of the tree, also one inside of a definition that was
passed over, equals the one block of its name. -/
theorem deduplicate_keeps_first_of_each_name (s : Schema) (text : String)
    (rendered : s.renderWith .deduplicate = .ok text) :
    ∃ all kept, s.declarations .redeclare = .ok all ∧ s.declarations .deduplicate = .ok kept ∧
      text = s.protocol kept ∧ kept = firstOfEachName all ∧
      ∀ d ∈ s.definitions,
        ((Declaration.record s.asRecord :: kept).filter
          fun block => block.name = d.name) = [d] := by
  obtain ⟨kept, declared, isText⟩ := (s.renderWith_eq_ok_iff _ _).mp rendered
  obtain ⟨agrees, isKept⟩ := (s.declarations_deduplicate_eq_ok_iff kept).mp declared
  refine ⟨definitionsOf s.roots, kept, s.declarations_redeclare, declared, isText, isKept, ?_⟩
  intro d member
  have blocks : Declaration.record s.asRecord :: kept = firstOfEachName s.definitions := by
    rw [definitions, firstOfEachName, isKept]
    congr 1
    rw [eq_comm, List.filter_eq_self]
    intro e memberE
    exact decide_eq_true (agrees.name_ne ((firstOfEachName_sublist _).subset memberE))
  rw [blocks, filter_firstOfEachName, agrees d member]
  rfl

theorem twoItems_keeps_one :
    ∃ all kept, (twoItems (item "x") (item "x")).declarations .redeclare = .ok all ∧
      (twoItems (item "x") (item "x")).declarations .deduplicate = .ok kept ∧
      (twoItems (item "x") (item "x")).protocol
          [.record (item "x"), .enum ⟨"Size", none, ["SMALL"]⟩] =
        (twoItems (item "x") (item "x")).protocol kept ∧ kept = firstOfEachName all ∧
      ∀ d ∈ (twoItems (item "x") (item "x")).definitions,
        ((Declaration.record (twoItems (item "x") (item "x")).asRecord :: kept).filter
          fun block => block.name = d.name) = [d] := by
  apply deduplicate_keeps_first_of_each_name
  rw [renderWith_eq_ok_iff]
  refine ⟨_, (declarations_deduplicate_eq_ok_iff _ _).mpr ⟨?_, rfl⟩, ?_⟩
  · rw [← agrees_iff]
    decide +kernel
  · rfl

end AvroIdl.Schema
