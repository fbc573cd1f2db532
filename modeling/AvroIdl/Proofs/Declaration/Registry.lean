import AvroIdl.Declaration.Walk
import Mathlib.Data.List.Nodup

/-
What a registry does with a definition, and which definitions of a list a registry keeps:
the first one of each name.
-/
set_option autoImplicit false

namespace AvroIdl

namespace Declaration

def firstNamed (ds : List Declaration) (name : String) : Option Declaration :=
  ds.find? fun d => d.name = name

/-- Of definitions that share a name only the first stays. -/
def firstOfEachName : List Declaration → List Declaration
  | [] => []
  | d :: rest => d :: (firstOfEachName rest).filter fun e => e.name ≠ d.name

/-- Whether a definition is another one than the first of its name. -/
def differsFromFirst (ds : List Declaration) (d : Declaration) : Bool :=
  firstNamed ds d.name ≠ some d

theorem firstNamed_append (ds es : List Declaration) (name : String) :
    firstNamed (ds ++ es) name = (firstNamed ds name).or (firstNamed es name) :=
  List.find?_append

theorem firstNamed_cons (d : Declaration) (ds : List Declaration) (name : String) :
    firstNamed (d :: ds) name = if d.name = name then some d else firstNamed ds name := by
  rw [firstNamed, List.find?_cons]
  by_cases same : d.name = name <;> simp [same, firstNamed]

theorem firstNamed_append_self (ds : List Declaration) (d : Declaration)
    (rest : List Declaration) :
    firstNamed (ds ++ d :: rest) d.name = (firstNamed ds d.name).or (some d) := by
  rw [firstNamed_append, firstNamed_cons, if_pos rfl]

theorem name_of_firstNamed {ds : List Declaration} {name : String} {d : Declaration}
    (found : firstNamed ds name = some d) : d.name = name := by
  simpa using List.find?_some found

theorem mem_of_firstNamed {ds : List Declaration} {name : String} {d : Declaration}
    (found : firstNamed ds name = some d) : d ∈ ds :=
  List.mem_of_find?_eq_some found

theorem exists_firstNamed {ds : List Declaration} {d : Declaration} (member : d ∈ ds) :
    ∃ e, firstNamed ds d.name = some e := by
  have found : (firstNamed ds d.name).isSome := by
    rw [firstNamed, List.find?_isSome]
    exact ⟨d, member, by simp⟩
  exact Option.isSome_iff_exists.mp found

theorem differsFromFirst_eq_false {ds : List Declaration} {d : Declaration} :
    differsFromFirst ds d = false ↔ firstNamed ds d.name = some d := by
  simp [differsFromFirst]

/-- What repeats an earlier definition is never the first of its name. -/
theorem differsFromFirst_append_of_held {ds : List Declaration} {d : Declaration}
    (held : firstNamed ds d.name = some d) (rest : List Declaration) :
    differsFromFirst (ds ++ d :: rest) = differsFromFirst (ds ++ rest) := by
  funext e
  rw [differsFromFirst, differsFromFirst, firstNamed_append, firstNamed_append, firstNamed_cons]
  by_cases named : d.name = e.name
  · rw [← named, held, Option.some_or, Option.some_or]
  · rw [if_neg named]

theorem firstOfEachName_sublist (ds : List Declaration) : (firstOfEachName ds).Sublist ds := by
  induction ds with
  | nil => exact List.Sublist.refl _
  | cons d rest ih => exact (List.filter_sublist.trans ih).cons_cons d

/-- What is kept under a name is the first definition of that name, and nothing else. -/
theorem filter_firstOfEachName (ds : List Declaration) (name : String) :
    ((firstOfEachName ds).filter fun e => e.name = name) = (firstNamed ds name).toList := by
  induction ds with
  | nil => rfl
  | cons d rest ih =>
    rw [firstOfEachName, firstNamed_cons]
    by_cases same : d.name = name
    · have none_left : ((firstOfEachName rest).filter fun e => e.name ≠ d.name).filter
          (fun e => e.name = name) = [] := by
        rw [List.filter_eq_nil_iff]
        intro e member named
        have other := (List.mem_filter.mp member).2
        simp_all
      rw [List.filter_cons_of_pos (by simpa using same), none_left, if_pos same]
      rfl
    · have all_left : ((firstOfEachName rest).filter fun e => e.name ≠ d.name).filter
          (fun e => e.name = name) = (firstOfEachName rest).filter fun e => e.name = name := by
        rw [List.filter_filter]
        apply List.filter_congr
        intro e _
        by_cases named : e.name = name
        · simp [named, Ne.symm same]
        · simp [named]
      rw [List.filter_cons_of_neg (by simpa using same), all_left, ih, if_neg same]

/-- Leaving out the names seen before, one definition at a time. -/
theorem filter_firstOfEachName_cons (seen : List String) (d : Declaration)
    (rest : List Declaration) :
    ((firstOfEachName (d :: rest)).filter fun e => e.name ∉ seen) =
      if d.name ∈ seen then (firstOfEachName rest).filter fun e => e.name ∉ seen
      else d :: (firstOfEachName rest).filter fun e => e.name ∉ seen ++ [d.name] := by
  rw [firstOfEachName]
  by_cases old : d.name ∈ seen
  · rw [List.filter_cons_of_neg (by simpa using old), if_pos old, List.filter_filter]
    apply List.filter_congr
    intro e _
    by_cases same : e.name = d.name
    · simp [same, old]
    · simp [same]
  · rw [List.filter_cons_of_pos (by simpa using old), if_neg old, List.filter_filter]
    congr 1
    apply List.filter_congr
    intro e _
    simp

/-- Names that are distinct leave nothing to remove. -/
theorem firstOfEachName_of_nodup {ds : List Declaration} (distinct : (ds.map name).Nodup) :
    firstOfEachName ds = ds := by
  induction ds with
  | nil => rfl
  | cons d rest ih =>
    rw [List.map_cons, List.nodup_cons] at distinct
    rw [firstOfEachName, ih distinct.2, List.filter_eq_self.mpr]
    intro e member
    have other : e.name ≠ d.name := fun same =>
      distinct.1 (same ▸ List.mem_map_of_mem member)
    simpa using other

theorem firstNamed_of_nodup {ds : List Declaration} (distinct : (ds.map name).Nodup)
    {d : Declaration} (member : d ∈ ds) : firstNamed ds d.name = some d := by
  obtain ⟨e, found⟩ := exists_firstNamed member
  have same : e = d := List.inj_on_of_nodup_map distinct (mem_of_firstNamed found) member
    (name_of_firstNamed found)
  rw [found, same]

end Declaration

open Declaration

namespace Registry

variable {r : Registry} {d : Declaration}

/-- A definition is declared in a registry just as it is. -/
def Holds (r : Registry) (d : Declaration) : Prop :=
  r.find? d.name = some d

theorem find?_add (fresh : r.find? d.name = none) (name : String) :
    (r.add d fresh).find? name = if d.name = name then some d else r.find? name := by
  have split : (r.add d fresh).find? name = (r.find? name).or (firstNamed [d] name) :=
    firstNamed_append _ _ _
  rw [split, firstNamed_cons]
  by_cases same : d.name = name
  · subst same
    simp [fresh]
  · simp [same, firstNamed]

theorem names_add (fresh : r.find? d.name = none) :
    (r.add d fresh).names = r.names ++ [d.name] :=
  List.map_append

theorem register_of_new (fresh : r.find? d.name = none) :
    r.register d = (.new, r.add d fresh) := by
  unfold register
  split
  · rfl
  · rename_i earlier found
    rw [fresh] at found
    cases found

theorem register_of_found {earlier : Declaration} (found : r.find? d.name = some earlier) :
    r.register d = (if earlier = d then .repeated else .conflicting, r) := by
  unfold register
  split
  · rename_i fresh
    rw [fresh] at found
    cases found
  · rename_i other again
    rw [found] at again
    cases again
    rfl

/-- All that can come of offering a definition to a registry. -/
theorem offer_cases (r : Registry) (d : Declaration) :
    (∃ fresh : r.find? d.name = none, Walk.offer (some r) d = (.new, some (r.add d fresh))) ∨
      (r.Holds d ∧ Walk.offer (some r) d = (.repeated, some r)) ∨
      ∃ earlier, r.find? d.name = some earlier ∧ earlier ≠ d ∧
        Walk.offer (some r) d = (.conflicting, some r) := by
  by_cases fresh : r.find? d.name = none
  · exact Or.inl ⟨fresh, by rw [Walk.offer, register_of_new fresh]⟩
  · obtain ⟨earlier, found⟩ := Option.ne_none_iff_exists'.mp fresh
    right
    by_cases same : earlier = d
    · subst same
      exact Or.inl ⟨found, by rw [Walk.offer, register_of_found found, if_pos rfl]⟩
    · refine Or.inr ⟨earlier, found, same, ?_⟩
      rw [Walk.offer, register_of_found found, if_neg same]

theorem Holds.name_mem (held : r.Holds d) : d.name ∈ r.names :=
  List.mem_map_of_mem (mem_of_firstNamed held)

theorem Holds.add (fresh : r.find? d.name = none) {e : Declaration} (held : r.Holds e) :
    (r.add d fresh).Holds e := by
  have other : d.name ≠ e.name := by
    intro same
    rw [same, held] at fresh
    cases fresh
  rw [Holds, find?_add, if_neg other]
  exact held

theorem holds_add_self (fresh : r.find? d.name = none) : (r.add d fresh).Holds d := by
  rw [Holds, find?_add, if_pos rfl]

theorem holds_of_holds_add (fresh : r.find? d.name = none) {e : Declaration}
    (held : (r.add d fresh).Holds e) : e = d ∨ r.Holds e := by
  rw [Holds, find?_add] at held
  split at held
  · exact Or.inl (Option.some.inj held).symm
  · exact Or.inr held

end Registry

end AvroIdl
