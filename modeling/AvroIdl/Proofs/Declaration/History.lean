import AvroIdl.Proofs.Declaration.Registry
import Mathlib.Data.List.Induction

/-
Definitions that are registered one after another, repeats and conflicts among them. The registry
holds the first definition of each name all along, so each answer compares a definition with the
first of its name.
-/
set_option autoImplicit false

namespace AvroIdl

open Declaration

namespace Registry

/-- The registry after some definitions have been registered in turn, none before them. -/
def ofHistory (ds : List Declaration) : Registry :=
  ds.foldl (fun r d => (r.register d).2) empty

section Step

variable (r : Registry) (d : Declaration)

theorem answer_eq :
    r.answer d = match r.find? d.name with
      | none => .ok .new
      | some first => if first = d then .ok .repeated else .error ⟨d.name⟩ := by
  cases found : r.find? d.name with
  | none =>
    rw [answer, register_of_new found]
    rfl
  | some first =>
    rw [answer, register_of_found found]
    by_cases same : first = d
    · simp [same, Standing.answer]
    · simp [same, Standing.answer]

/-- Repeats and conflicts leave everything as it was. -/
theorem register_of_answer (known : r.answer d ≠ .ok .new) : (r.register d).2 = r := by
  cases found : r.find? d.name with
  | none =>
    rw [answer_eq, found] at known
    exact absurd rfl known
  | some first => rw [register_of_found found]

/-- What is held under a name stays, and a definition is held only under a name that was free. -/
theorem find?_register (name : String) :
    (r.register d).2.find? name = (r.find? name).or (firstNamed [d] name) := by
  cases found : r.find? d.name with
  | none =>
    rw [register_of_new found]
    exact firstNamed_append r.declared [d] name
  | some first =>
    -- The definition changes nothing, and if it bears the name in question, that is held already.
    rw [register_of_found found, firstNamed_cons]
    by_cases same : d.name = name
    · rw [← same, found, Option.some_or]
    · rw [if_neg same]
      exact Option.or_none.symm

theorem names_register :
    (r.register d).2.names = if d.name ∈ r.names then r.names else r.names ++ [d.name] := by
  cases found : r.find? d.name with
  | none => rw [register_of_new found, names_add, if_neg ((r.find?_eq_none_iff d.name).mp found)]
  | some first =>
    have known : d.name ∈ r.names := by
      rw [← name_of_firstNamed found]
      exact List.mem_map_of_mem (mem_of_firstNamed found)
    rw [register_of_found found, if_pos known]

end Step

theorem ofHistory_append_singleton (ds : List Declaration) (d : Declaration) :
    ofHistory (ds ++ [d]) = ((ofHistory ds).register d).2 :=
  List.foldl_concat _ _ _ _

/-- The first definition of a name stays the one that is held, whatever is registered later. -/
theorem find?_ofHistory (ds : List Declaration) (name : String) :
    (ofHistory ds).find? name = firstNamed ds name := by
  induction ds using List.reverseRecOn with
  | nil => rfl
  | append_singleton ds d ih =>
    rw [ofHistory_append_singleton, find?_register, ih, firstNamed_append]

theorem names_ofHistory (ds : List Declaration) :
    (ofHistory ds).names = (ds.map Declaration.name).eraseDups := by
  induction ds using List.reverseRecOn with
  | nil => rfl
  | append_singleton ds d ih =>
    rw [ofHistory_append_singleton, names_register, ih, List.map_append, List.eraseDups_append]
    -- What is left of the last name after the earlier ones is nothing, or that name alone.
    by_cases known : d.name ∈ ds.map Declaration.name
    · have nothing : [d.name].removeAll (ds.map Declaration.name) = [] := by
        simpa [List.removeAll] using known
      rw [if_pos (List.mem_eraseDups.mpr known), List.map_singleton, nothing]
      simp
    · have kept : [d.name].removeAll (ds.map Declaration.name) = [d.name] := by
        simpa [List.removeAll] using known
      rw [if_neg (fun member => known (List.mem_eraseDups.mp member)), List.map_singleton, kept]
      rfl

/-- What each call answers depends on the first of the earlier definitions that has the same name,
and on no other: there is none, it is equal, or the name is reported as a conflict. Only new names
change the registry, and its names are those of all definitions in the order in which they first
came. -/
theorem answers_by_first_of_name (ds : List Declaration) :
    (∀ i (inside : i < ds.length),
      (ofHistory (ds.take i)).answer ds[i] =
        match firstNamed (ds.take i) ds[i].name with
        | none => .ok .new
        | some first => if first = ds[i] then .ok .repeated else .error ⟨ds[i].name⟩) ∧
      (∀ i (inside : i < ds.length), (ofHistory (ds.take i)).answer ds[i] ≠ .ok .new →
        ofHistory (ds.take (i + 1)) = ofHistory (ds.take i)) ∧
      (ofHistory ds).names = (ds.map Declaration.name).eraseDups := by
  refine ⟨?_, ?_, names_ofHistory ds⟩
  · intro i inside
    rw [answer_eq, find?_ofHistory]
  · intro i inside known
    rw [List.take_succ_eq_append_getElem inside, ofHistory_append_singleton]
    exact register_of_answer _ _ known

/-- A name with two definitions, the first registered again after the other was refused. -/
def contested : List Declaration :=
  [.record ⟨"A", none, []⟩, .record ⟨"A", some "changed", []⟩, .enum ⟨"B", none, ["X"]⟩,
    .record ⟨"A", none, []⟩]

theorem contested_keeps_first :
    (1 < contested.length ∧ (ofHistory (contested.take 1)).answer contested[1] = .error ⟨"A"⟩ ∧
        ofHistory (contested.take 2) = ofHistory (contested.take 1)) ∧
      (3 < contested.length ∧
        (ofHistory (contested.take 3)).answer contested[3] = .ok .repeated) ∧
      (ofHistory contested).names = ["A", "B"] := by
  obtain ⟨answers, unchanged, names⟩ := answers_by_first_of_name contested
  have refused : (ofHistory (contested.take 1)).answer contested[1] = .error ⟨"A"⟩ :=
    (answers 1 (by decide)).trans (by decide)
  have repeated : (ofHistory (contested.take 3)).answer contested[3] = .ok .repeated :=
    (answers 3 (by decide)).trans (by decide)
  refine ⟨⟨by decide, refused, unchanged 1 (by decide) ?_⟩, ⟨by decide, repeated⟩, ?_⟩
  · rw [refused]
    decide
  · rw [names]
    decide

end Registry

end AvroIdl
