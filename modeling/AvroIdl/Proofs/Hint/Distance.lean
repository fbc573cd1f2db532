import AvroIdl.Hint.Distance
import Mathlib.Order.Lattice.Nat

/-
The distance of two words is the least number of edits that make one into the other. The table
of distances is compared with a recursion over the ends of the words, and that recursion with
all the ways to edit a word.
-/
set_option autoImplicit false

namespace AvroIdl.Hint

/-- One character is put in, taken out or replaced, anywhere in the word. -/
inductive Edit : List Char → List Char → Prop
  | insert (before after : List Char) (c : Char) : Edit (before ++ after) (before ++ c :: after)
  | delete (before after : List Char) (c : Char) : Edit (before ++ c :: after) (before ++ after)
  | replace (before after : List Char) (c d : Char) :
    Edit (before ++ c :: after) (before ++ d :: after)

/-- So many edits, one after another, make the first word into the second. -/
inductive Edits : Nat → List Char → List Char → Prop
  | nothing (word : List Char) : Edits 0 word word
  | step {n : Nat} {first next last : List Char} (edit : Edit first next)
    (rest : Edits n next last) : Edits (n + 1) first last

section Congruence

variable {u v : List Char} {n : Nat}

theorem Edit.cons (e : Char) (edit : Edit u v) : Edit (e :: u) (e :: v) := by
  cases edit with
  | insert before after c => exact .insert (e :: before) after c
  | delete before after c => exact .delete (e :: before) after c
  | replace before after c d => exact .replace (e :: before) after c d

theorem Edits.cons (e : Char) (edits : Edits n u v) : Edits n (e :: u) (e :: v) := by
  induction edits with
  | nothing word => exact .nothing (e :: word)
  | step edit _ ih => exact .step (edit.cons e) ih

theorem Edit.reverse (edit : Edit u v) : Edit u.reverse v.reverse := by
  cases edit with
  | insert before after c => simpa using Edit.insert after.reverse before.reverse c
  | delete before after c => simpa using Edit.delete after.reverse before.reverse c
  | replace before after c d => simpa using Edit.replace after.reverse before.reverse c d

theorem Edits.reverse (edits : Edits n u v) : Edits n u.reverse v.reverse := by
  induction edits with
  | nothing word => exact .nothing word.reverse
  | step edit _ ih => exact .step edit.reverse ih

end Congruence

/-- How far two words are apart, by what becomes of their first characters: one replaces the other
or is it already, the one is taken out, or the other is put in. -/
def gap : List Char → List Char → Nat
  | [], v => v.length
  | _ :: u, [] => u.length + 1
  | c :: u, d :: v =>
    min (min (gap u v + if c = d then 0 else 1) (gap u (d :: v) + 1)) (gap (c :: u) v + 1)
termination_by u v => u.length + v.length

theorem gap_nil_left (v : List Char) : gap [] v = v.length := by
  rw [gap]

theorem gap_nil_right (u : List Char) : gap u [] = u.length := by
  cases u with
  | nil => exact gap_nil_left []
  | cons c u => rw [gap, List.length_cons]

section Steps

variable (c d : Char) (u v : List Char)

theorem gap_cons_cons :
    gap (c :: u) (d :: v) =
      min (min (gap u v + if c = d then 0 else 1) (gap u (d :: v) + 1)) (gap (c :: u) v + 1) := by
  rw [gap]

theorem gap_replace_le : gap (c :: u) (d :: v) ≤ gap u v + if c = d then 0 else 1 := by
  rw [gap_cons_cons]
  exact (min_le_left _ _).trans (min_le_left _ _)

theorem gap_delete_le : gap (c :: u) v ≤ gap u v + 1 := by
  cases v with
  | nil => rw [gap_nil_right, gap_nil_right, List.length_cons]
  | cons d v =>
    rw [gap_cons_cons]
    exact (min_le_left _ _).trans (min_le_right _ _)

theorem gap_insert_le : gap u (d :: v) ≤ gap u v + 1 := by
  cases u with
  | nil => rw [gap_nil_left, gap_nil_left, List.length_cons]
  | cons c u =>
    rw [gap_cons_cons]
    exact min_le_right _ _

end Steps

/-- One more than the gap is no less than one more than each of the three ways to go on. -/
theorem le_gap_cons_cons_succ {n : Nat} {c d : Char} {u v : List Char}
    (replaced : n ≤ gap u v + (if c = d then 0 else 1) + 1)
    (deleted : n ≤ gap u (d :: v) + 1 + 1) (inserted : n ≤ gap (c :: u) v + 1 + 1) :
    n ≤ gap (c :: u) (d :: v) + 1 := by
  rw [gap_cons_cons]
  omega

theorem gap_self (u : List Char) : gap u u = 0 := by
  induction u with
  | nil => exact gap_nil_left []
  | cons c u ih =>
    have kept := gap_replace_le c c u u
    rw [if_pos rfl, ih] at kept
    exact Nat.le_zero.mp kept

/-- A character that is put in at the front saves at most one edit. The induction is on the other
word, as `gap (c :: u) w` may go on with all of `c :: u` and the rest of `w`. -/
theorem gap_le_gap_cons (c : Char) (u w : List Char) : gap u w ≤ gap (c :: u) w + 1 := by
  induction w with
  | nil =>
    rw [gap_nil_right, gap_nil_right, List.length_cons]
    omega
  | cons e w ih =>
    have inserted := gap_insert_le e u w
    apply le_gap_cons_cons_succ <;> omega

theorem gap_cons_le_gap_cons (c d : Char) (u w : List Char) :
    gap (c :: u) w ≤ gap (d :: u) w + 1 := by
  induction w with
  | nil =>
    rw [gap_nil_right, gap_nil_right, List.length_cons, List.length_cons]
    omega
  | cons e w ih =>
    have replaced : gap (c :: u) (e :: w) ≤ gap u w + 1 :=
      (gap_replace_le c e u w).trans (by split <;> omega)
    have deleted := gap_delete_le c u (e :: w)
    have inserted := gap_insert_le e (c :: u) w
    apply le_gap_cons_cons_succ <;> omega

/-- Two words that are close to each other stay so with the same character in front of them. -/
theorem gap_cons_le_of_forall {u v : List Char} (close : ∀ w, gap u w ≤ gap v w + 1) (b : Char)
    (w : List Char) : gap (b :: u) w ≤ gap (b :: v) w + 1 := by
  induction w with
  | nil =>
    have lengths := close []
    rw [gap_nil_right, gap_nil_right] at lengths ⊢
    rw [List.length_cons, List.length_cons]
    omega
  | cons e w ih =>
    have replaced := gap_replace_le b e u w
    have deleted := gap_delete_le b u (e :: w)
    have inserted := gap_insert_le e (b :: u) w
    have shorter := close w
    have whole := close (e :: w)
    apply le_gap_cons_cons_succ <;> omega

theorem gap_append_le_of_forall {u v : List Char} (close : ∀ w, gap u w ≤ gap v w + 1)
    (before w : List Char) : gap (before ++ u) w ≤ gap (before ++ v) w + 1 := by
  induction before generalizing w with
  | nil => exact close w
  | cons b before ih => exact gap_cons_le_of_forall ih b w

/-- One edit brings no word nearer by more than one. -/
theorem gap_le_of_edit {u v : List Char} (edit : Edit u v) (w : List Char) :
    gap u w ≤ gap v w + 1 := by
  cases edit with
  | insert before after c =>
    exact gap_append_le_of_forall (gap_le_gap_cons c after) before w
  | delete before after c =>
    exact gap_append_le_of_forall (gap_delete_le c after) before w
  | replace before after c d =>
    exact gap_append_le_of_forall (gap_cons_le_gap_cons c d after) before w

/-- No sequence of edits is shorter than the gap. -/
theorem gap_le_of_edits {n : Nat} {u v : List Char} (edits : Edits n u v) : gap u v ≤ n := by
  induction edits with
  | nothing word => exact (gap_self word).le
  | step edit _ ih => exact (gap_le_of_edit edit _).trans (Nat.succ_le_succ ih)

theorem edits_of_nil (v : List Char) : Edits v.length [] v := by
  induction v with
  | nil => exact .nothing []
  | cons d v ih => exact .step (.insert [] [] d) (ih.cons d)

theorem edits_to_nil (u : List Char) : Edits u.length u [] := by
  induction u with
  | nil => exact .nothing []
  | cons c u ih => exact .step (.delete [] u c) ih

/-- As many edits as the gap says are enough. Each of the three ways to go on gives a sequence of
edits, whose first edit, if there is one, is at the front. -/
theorem edits_gap (u v : List Char) : Edits (gap u v) u v := by
  fun_induction gap u v with
  | case1 v => exact edits_of_nil v
  | case2 c u => exact edits_to_nil (c :: u)
  | case3 c u d v replacing deleting inserting =>
    have replaced : Edits (gap u v + if c = d then 0 else 1) (c :: u) (d :: v) := by
      by_cases same : c = d
      · rw [if_pos same, same]
        exact replacing.cons d
      · rw [if_neg same]
        exact .step (.replace [] u c d) (replacing.cons d)
    have deleted : Edits (gap u (d :: v) + 1) (c :: u) (d :: v) :=
      .step (.delete [] u c) deleting
    have inserted : Edits (gap (c :: u) v + 1) (c :: u) (d :: v) :=
      .step (.insert [] (c :: u) d) (inserting.cons d)
    rcases min_choice (min (gap u v + if c = d then 0 else 1) (gap u (d :: v) + 1))
      (gap (c :: u) v + 1) with least | least
    · rw [least]
      rcases min_choice (gap u v + if c = d then 0 else 1) (gap u (d :: v) + 1) with first | first
      · rwa [first]
      · rwa [first]
    · rwa [least]

/-- The gaps between `u` and what `v` becomes when more characters are put in front of it one by
one. The table grows from the beginnings of the words, so here words stand reversed. -/
def gaps (u v : List Char) : List Char → List Nat
  | [] => []
  | d :: ds => gap u (d :: v) :: gaps u (d :: v) ds

/-- The row of the table that belongs to `u`, with an entry for each beginning of `b`. -/
def row (u b : List Char) : List Nat :=
  gap u [] :: gaps u [] b

/-- The loop over a row. Of the other word `v` has been passed already, so that the entries to the
left and at the corner are the gaps to `v`. -/
theorem fillRow_gaps (c : Char) (u v ds : List Char) :
    fillRow c ds (gap u v) (gap (c :: u) v) (gaps u v ds) = gaps (c :: u) v ds := by
  induction ds generalizing v with
  | nil => rfl
  | cons d ds ih => rw [gaps, gaps, fillRow, ← gap_cons_cons, ih]

theorem nextRow_row (c : Char) (u b : List Char) : nextRow b (row u b) c = row (c :: u) b := by
  have corner : gap u [] + 1 = gap (c :: u) [] := by
    rw [gap_nil_right, gap_nil_right, List.length_cons]
  rw [row, nextRow, corner, fillRow_gaps, row]

/-- After some characters the row is that of the word they make up. -/
theorem foldl_nextRow (a u b : List Char) :
    a.foldl (nextRow b) (row u b) = row (a.reverse ++ u) b := by
  induction a generalizing u with
  | nil => rfl
  | cons c a ih =>
    rw [List.foldl_cons, nextRow_row, ih, List.reverse_cons, List.append_assoc,
      List.singleton_append]

theorem gaps_nil (v ds : List Char) : gaps [] v ds = List.range' (v.length + 1) ds.length := by
  induction ds generalizing v with
  | nil => rfl
  | cons d ds ih =>
    rw [gaps, ih, gap_nil_left, List.length_cons, List.length_cons, List.range'_succ]

theorem firstRow_eq (b : List Char) : firstRow b = row [] b := by
  rw [firstRow, row, gaps_nil, gap_nil_left, List.range_eq_range', List.range'_succ]
  rfl

theorem getLastD_gaps (u v ds : List Char) :
    (gaps u v ds).getLastD (gap u v) = gap u (ds.reverse ++ v) := by
  induction ds generalizing v with
  | nil => rfl
  | cons d ds ih =>
    rw [gaps, List.getLastD_cons, ih, List.reverse_cons, List.append_assoc, List.singleton_append]

theorem distance_eq_gap (a b : String) :
    distance a b = gap a.toList.reverse b.toList.reverse := by
  rw [distance, firstRow_eq, foldl_nextRow, row, List.getLastD_cons, getLastD_gaps,
    List.append_nil, List.append_nil]

theorem edits_distance (a b : String) : Edits (distance a b) a.toList b.toList := by
  have edits := (edits_gap a.toList.reverse b.toList.reverse).reverse
  rwa [List.reverse_reverse, List.reverse_reverse, ← distance_eq_gap] at edits

theorem distance_le_of_edits {n : Nat} {a b : String} (edits : Edits n a.toList b.toList) :
    distance a b ≤ n := by
  rw [distance_eq_gap]
  exact gap_le_of_edits edits.reverse

/-- How many edits two words are apart. Any word can be made into any other one. -/
noncomputable def editDistance (a b : String) : Nat :=
  sInf {n | Edits n a.toList b.toList}

theorem editDistance_eq (a b : String) : editDistance a b = distance a b := by
  have nonempty : {n | Edits n a.toList b.toList}.Nonempty := ⟨distance a b, edits_distance a b⟩
  have least : Edits (editDistance a b) a.toList b.toList := Nat.sInf_mem nonempty
  exact le_antisymm (Nat.sInf_le (edits_distance a b)) (distance_le_of_edits least)

/-- The distance is the least number of characters that must be put in, taken out or replaced
to make one word into the other. -/
theorem distance_isLeast (a b : String) :
    IsLeast {n | Edits n a.toList b.toList} (distance a b) := by
  refine ⟨edits_distance a b, ?_⟩
  intro n edits
  exact distance_le_of_edits edits

example : distance "recrod" "record" = 2 := by decide

end AvroIdl.Hint
