import AvroIdl.Proofs.Schema.TypeName
import AvroIdl.Schema.Load
import Mathlib.Data.List.Nodup

/-
What a load does to its state, as a list of steps: it defines names, looks names up and
warns. Whether a list of steps passes depends on the names and not on the document.
-/
set_option autoImplicit false

namespace AvroIdl

inductive Load.Step
  | define (name : TypeName)
  | mention (name : String) (around : Option String)
  | warn (warning : Warning)

/-- The names that some steps define, in order. -/
def Load.defined (steps : List Load.Step) : List TypeName :=
  steps.filterMap fun
    | .define name => some name
    | _ => none

namespace Load

@[simp] theorem defined_nil : defined [] = [] := rfl

@[simp] theorem defined_append (steps rest : List Step) :
    defined (steps ++ rest) = defined steps ++ defined rest :=
  List.filterMap_append

@[simp] theorem defined_define (name : TypeName) (rest : List Step) :
    defined (.define name :: rest) = name :: defined rest := rfl

@[simp] theorem defined_mention (name : String) (around : Option String) (rest : List Step) :
    defined (.mention name around :: rest) = defined rest := rfl

@[simp] theorem defined_warn (w : Warning) (rest : List Step) :
    defined (.warn w :: rest) = defined rest := rfl

end Load

namespace Loading

open Load

/-- Whether a step passes. -/
def Allows (s : Loading) : Step → Prop
  | .define name => (s.defined = [] ∨ name.nameSpace = s.home) ∧ s.isDefined name.full = false
  | .mention name around => s.resolves name around = true
  | .warn _ => True

/-- The state after a step. -/
def after (s : Loading) : Step → Loading
  | .define name => { s with defined := s.defined ++ [name] }
  | .mention _ _ => s
  | .warn w => { s with warnings := s.warnings ++ [w] }

/-- Each step passes in the state that those before it leave. -/
def Runs : Loading → List Step → Loading → Prop
  | s, [], t => s = t
  | s, step :: rest, t => s.Allows step ∧ (s.after step).Runs rest t

variable {s t : Loading} {step : Step} {steps : List Step}

theorem runs_append_iff {steps rest : List Step} :
    s.Runs (steps ++ rest) t ↔ ∃ m, s.Runs steps m ∧ m.Runs rest t := by
  induction steps generalizing s with
  | nil => simp [Runs]
  | cons step steps ih => simp [Runs, ih, and_assoc]

theorem Runs.append {m : Loading} {rest : List Step} (runs : s.Runs steps m)
    (later : m.Runs rest t) : s.Runs (steps ++ rest) t :=
  runs_append_iff.mpr ⟨m, runs, later⟩

theorem defined_after (s : Loading) (step : Step) :
    (s.after step).defined = s.defined ++ Load.defined [step] := by
  cases step <;> simp [after]

theorem defined_of_runs (runs : s.Runs steps t) : t.defined = s.defined ++ Load.defined steps := by
  induction steps generalizing s with
  | nil =>
    cases runs
    exact (List.append_nil _).symm
  | cons step rest ih =>
    have later := ih runs.2
    rw [defined_after, List.append_assoc, ← Load.defined_append] at later
    exact later

/-- All types lie in one namespace, and no two share a full name. -/
structure Orderly (s : Loading) : Prop where
  together : ∀ name ∈ s.defined, name.nameSpace = s.home
  distinct : (s.defined.map TypeName.full).Nodup

theorem orderly_start : start.Orderly :=
  ⟨fun _ member => absurd member List.not_mem_nil, List.nodup_nil⟩

theorem isDefined_eq_false_iff (s : Loading) (full : String) :
    s.isDefined full = false ↔ full ∉ s.defined.map TypeName.full := by
  simp [isDefined]

theorem isDefined_eq_true_iff (s : Loading) (full : String) :
    s.isDefined full = true ↔ ∃ name ∈ s.defined, name.full = full := by
  simp [isDefined]

theorem home_append (s : Loading) (name : TypeName) (warnings : List Warning)
    (fits : s.defined = [] ∨ name.nameSpace = s.home) :
    home ⟨s.defined ++ [name], warnings⟩ = name.nameSpace := by
  rcases s with ⟨_ | ⟨first, rest⟩, given⟩
  · rfl
  · rcases fits with none_yet | same
    · cases none_yet
    · exact same.symm

theorem Orderly.after (orderly : s.Orderly) (allowed : s.Allows step) : (s.after step).Orderly := by
  cases step with
  | define name =>
    obtain ⟨fits, fresh⟩ := allowed
    rw [isDefined_eq_false_iff] at fresh
    constructor
    · intro other member
      rw [Loading.after, home_append s name _ fits]
      rcases List.mem_append.mp member with earlier | last
      · rcases fits with none_yet | same
        · rw [none_yet] at earlier
          cases earlier
        · exact (orderly.together other earlier).trans same.symm
      · rw [List.mem_singleton.mp last]
    · have extended := orderly.distinct.concat fresh
      rwa [List.concat_eq_append, ← List.map_singleton, ← List.map_append] at extended
  | mention name around => exact orderly
  | warn w => exact ⟨orderly.together, orderly.distinct⟩

theorem Orderly.of_runs (orderly : s.Orderly) (runs : s.Runs steps t) : t.Orderly := by
  induction steps generalizing s with
  | nil =>
    cases runs
    exact orderly
  | cons step rest ih => exact ih (orderly.after runs.1) runs.2

/-- In one namespace, names that differ in full differ in their simple parts. -/
theorem Orderly.nodup_simple (orderly : s.Orderly) : (s.defined.map TypeName.simple).Nodup := by
  have joined : s.defined.map TypeName.full =
      (s.defined.map TypeName.simple).map fun simple => TypeName.full ⟨simple, s.home⟩ := by
    rw [List.map_map]
    apply List.map_congr_left
    intro name member
    rw [Function.comp, ← orderly.together name member]
  have distinct := orderly.distinct
  rw [joined] at distinct
  exact List.Nodup.of_map _ distinct

/-- A mention that passes is the simple or the full name of a type that is defined. -/
theorem exists_of_resolves {name : String} {around : Option String}
    (plain : ∀ d ∈ s.defined, isDotted d.simple = false) (found : s.resolves name around = true) :
    ∃ d ∈ s.defined, name = d.simple ∨ name = d.full := by
  rw [resolves] at found
  split at found
  · obtain ⟨d, member, same⟩ := (s.isDefined_eq_true_iff name).mp found
    exact ⟨d, member, .inr same.symm⟩
  · rename_i simple
    rw [Bool.or_eq_true, Option.any_eq_true] at found
    rcases found with ⟨nameSpace, -, found⟩ | found
    · obtain ⟨d, member, same⟩ := (s.isDefined_eq_true_iff _).mp found
      have equal := TypeName.full_injective (plain d member) (Bool.not_eq_true _ ▸ simple) same
      exact ⟨d, member, .inl (congrArg TypeName.simple equal).symm⟩
    · obtain ⟨d, member, same⟩ := (s.isDefined_eq_true_iff name).mp found
      exact ⟨d, member, .inr same.symm⟩

theorem isDefined_full {d : TypeName} (member : d ∈ s.defined) : s.isDefined d.full = true :=
  (s.isDefined_eq_true_iff d.full).mpr ⟨d, member, rfl⟩

/-- Where all types lie in the namespace around it, a mention passes just if it is the simple or
the full name of one of them. -/
theorem resolves_iff {name : String} {around : Option String}
    (plain : ∀ d ∈ s.defined, isDotted d.simple = false)
    (together : ∀ d ∈ s.defined, d.nameSpace = around) :
    s.resolves name around = true ↔ ∃ d ∈ s.defined, name = d.simple ∨ name = d.full := by
  constructor
  · exact exists_of_resolves plain
  · rintro ⟨d, member, rfl | rfl⟩
    · have defined := isDefined_full member
      have home := together d member
      rw [resolves, if_neg (by rw [plain d member]; exact Bool.false_ne_true), Bool.or_eq_true]
      obtain ⟨simple, nameSpace⟩ := d
      cases home
      cases nameSpace with
      | none => exact .inr defined
      | some nameSpace => exact .inl (Option.any_eq_true _ _ |>.mpr ⟨nameSpace, rfl, defined⟩)
    · rw [resolves]
      split
      · exact isDefined_full member
      · rw [isDefined_full member, Bool.or_true]

/-- What a run mentions is defined before, and stays so until the run ends. -/
theorem exists_of_mention {name : String} {around : Option String}
    (plain : ∀ d ∈ t.defined, isDotted d.simple = false) (runs : s.Runs steps t)
    (mentioned : .mention name around ∈ steps) :
    ∃ d ∈ t.defined, name = d.simple ∨ name = d.full := by
  obtain ⟨before, rest, rfl⟩ := List.append_of_mem mentioned
  obtain ⟨m, -, found, later⟩ := runs_append_iff.mp runs
  have kept : ∀ d ∈ m.defined, d ∈ t.defined := by
    intro d member
    rw [defined_of_runs later]
    exact List.mem_append_left _ member
  obtain ⟨d, member, spelled⟩ := exists_of_resolves (fun d member => plain d (kept d member)) found
  exact ⟨d, kept d member, spelled⟩

end Loading

end AvroIdl
