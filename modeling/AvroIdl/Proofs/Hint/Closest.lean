import AvroIdl.Hint.Closest
import AvroIdl.Proofs.Hint.Distance

/-
A hint is one of the words that it is chosen from: of those that are near enough the nearest
one, and the first of these.
-/
set_option autoImplicit false

namespace AvroIdl.Hint

variable {unknown hint : String}

/-- No word is nearer, and those that come earlier are not as near. -/
def IsFirstNearest (unknown : String) (words : List String) (hint : String) : Prop :=
  ∃ before after, words = before ++ hint :: after ∧
    (∀ word ∈ before, distance unknown hint < distance unknown word) ∧
    ∀ word ∈ after, distance unknown hint ≤ distance unknown word

section FirstNearest

variable {words : List String}

theorem IsFirstNearest.mem (first : IsFirstNearest unknown words hint) : hint ∈ words := by
  obtain ⟨before, after, rfl, -, -⟩ := first
  exact List.mem_append_right before List.mem_cons_self

theorem IsFirstNearest.le (first : IsFirstNearest unknown words hint) {word : String}
    (member : word ∈ words) : distance unknown hint ≤ distance unknown word := by
  obtain ⟨before, after, rfl, earlier, later⟩ := first
  rcases List.mem_append.mp member with inBefore | inRest
  · exact (earlier word inBefore).le
  · rcases List.mem_cons.mp inRest with rfl | inAfter
    · exact le_rfl
    · exact later word inAfter

/-- A word that is not nearer does not take its place. -/
theorem IsFirstNearest.append (first : IsFirstNearest unknown words hint) {word : String}
    (notNearer : distance unknown hint ≤ distance unknown word) :
    IsFirstNearest unknown (words ++ [word]) hint := by
  obtain ⟨before, after, rfl, earlier, later⟩ := first
  refine ⟨before, after ++ [word], ?_, earlier, ?_⟩
  · rw [List.append_assoc, List.cons_append]
  · intro other member
    rcases List.mem_append.mp member with inAfter | isWord
    · exact later other inAfter
    · rwa [List.mem_singleton.mp isWord]

theorem isFirstNearest_append_self
    (earlier : ∀ word ∈ words, distance unknown hint < distance unknown word) :
    IsFirstNearest unknown (words ++ [hint]) hint :=
  ⟨words, [], rfl, earlier, fun _ member => absurd member List.not_mem_nil⟩

/-- It is the first word that is as near as it is. -/
theorem IsFirstNearest.find? (first : IsFirstNearest unknown words hint) :
    words.find? (fun word => distance unknown word ≤ distance unknown hint) = some hint := by
  obtain ⟨before, after, rfl, earlier, -⟩ := first
  rw [List.find?_eq_some_iff_append]
  refine ⟨decide_eq_true le_rfl, before, after, rfl, ?_⟩
  intro word member
  simpa using earlier word member

theorem IsFirstNearest.unique {other : String} (first : IsFirstNearest unknown words hint)
    (first' : IsFirstNearest unknown words other) : hint = other := by
  have equallyNear : distance unknown hint = distance unknown other :=
    le_antisymm (first.le first'.mem) (first'.le first.mem)
  have found := first.find?
  rw [equallyNear, first'.find?] at found
  exact (Option.some.inj found).symm

end FirstNearest

/-- What the best word so far is to the words seen so far. -/
def IsBest (unknown : String) (seen : List String) : Option (Nat × String) → Prop
  | none => ∀ word ∈ seen, limit unknown < distance unknown word
  | some (least, hint) =>
    least = distance unknown hint ∧ least ≤ limit unknown ∧ IsFirstNearest unknown seen hint

section Choice

variable {seen : List String} {best : Option (Nat × String)}

/-- One more word keeps that the best word is the first of the nearest ones. -/
theorem IsBest.closer (known : IsBest unknown seen best) (candidate : String) :
    IsBest unknown (seen ++ [candidate]) (closer unknown best candidate) := by
  rw [Hint.closer]
  dsimp only
  cases best with
  | none =>
    split
    next taken =>
      refine ⟨rfl, taken.1, isFirstNearest_append_self ?_⟩
      intro word member
      exact Nat.lt_of_le_of_lt taken.1 (known word member)
    next passed =>
      have far : limit unknown < distance unknown candidate := by simpa using passed
      intro word member
      rcases List.mem_append.mp member with inSeen | isCandidate
      · exact known word inSeen
      · rwa [List.mem_singleton.mp isCandidate]
  | some found =>
    obtain ⟨least, hint⟩ := found
    obtain ⟨rfl, near, first⟩ := known
    split
    next taken =>
      have nearer : distance unknown candidate < distance unknown hint := by simpa using taken.2
      refine ⟨rfl, taken.1, isFirstNearest_append_self ?_⟩
      intro word member
      exact Nat.lt_of_lt_of_le nearer (first.le member)
    next passed =>
      have notNearer : distance unknown hint ≤ distance unknown candidate := by
        by_contra nearer
        apply passed
        simp only [Option.all_some, decide_eq_true_eq]
        omega
      exact ⟨rfl, near, first.append notNearer⟩

theorem IsBest.foldl (known : IsBest unknown seen best) (candidates : List String) :
    IsBest unknown (seen ++ candidates) (candidates.foldl (Hint.closer unknown) best) := by
  induction candidates generalizing seen best with
  | nil => rwa [List.append_nil]
  | cons candidate rest ih =>
    have later := ih (known.closer candidate)
    rwa [List.append_assoc, List.singleton_append] at later

end Choice

theorem isBest_foldl (unknown : String) (candidates : List String) :
    IsBest unknown candidates (candidates.foldl (closer unknown) none) := by
  have nothing : IsBest unknown [] none := fun _ member => absurd member List.not_mem_nil
  exact nothing.foldl candidates

theorem closest_eq_none_iff (unknown : String) (candidates : List String) :
    closest unknown candidates = none ↔
      ∀ word ∈ candidates, limit unknown < distance unknown word := by
  have known := isBest_foldl unknown candidates
  rw [closest]
  cases result : candidates.foldl (closer unknown) none with
  | none =>
    rw [result] at known
    exact ⟨fun _ => known, fun _ => rfl⟩
  | some found =>
    obtain ⟨least, chosen⟩ := found
    rw [result] at known
    obtain ⟨rfl, near, first⟩ := known
    refine ⟨nofun, ?_⟩
    intro far
    exact absurd near (Nat.not_le.mpr (far _ first.mem))

theorem closest_eq_some_iff (unknown : String) (candidates : List String) (hint : String) :
    closest unknown candidates = some hint ↔
      distance unknown hint ≤ limit unknown ∧ IsFirstNearest unknown candidates hint := by
  have known := isBest_foldl unknown candidates
  rw [closest]
  cases result : candidates.foldl (closer unknown) none with
  | none =>
    rw [result] at known
    refine ⟨nofun, ?_⟩
    rintro ⟨near, first⟩
    exact absurd near (Nat.not_le.mpr (known hint first.mem))
  | some found =>
    obtain ⟨least, chosen⟩ := found
    rw [result] at known
    obtain ⟨rfl, near, first⟩ := known
    rw [Option.map_some, Option.some_inj]
    constructor
    · rintro rfl
      exact ⟨near, first⟩
    · rintro ⟨-, first'⟩
      exact first.unique first'

theorem mem_of_closest {candidates : List String}
    (chosen : closest unknown candidates = some hint) : hint ∈ candidates :=
  ((closest_eq_some_iff unknown candidates hint).mp chosen).2.mem

/-- There is no hint exactly if every word is more edits away than the limit. Otherwise the hint
is the word the fewest edits away, and of several such words the one that comes first. -/
theorem closest_is_first_nearest (unknown : String) (candidates : List String) :
    (closest unknown candidates = none ↔
      ∀ word ∈ candidates,
        (if unknown.length ≤ 4 then 1 else 2) < editDistance unknown word) ∧
    ∀ hint, closest unknown candidates = some hint ↔
      editDistance unknown hint ≤ (if unknown.length ≤ 4 then 1 else 2) ∧
        ∃ before after, candidates = before ++ hint :: after ∧
          (∀ word ∈ before, editDistance unknown hint < editDistance unknown word) ∧
          ∀ word ∈ after, editDistance unknown hint ≤ editDistance unknown word := by
  simp only [editDistance_eq]
  exact ⟨closest_eq_none_iff unknown candidates, closest_eq_some_iff unknown candidates⟩

example : closest "lon" ["line", "long", "lion"] = some "long" := by decide

end AvroIdl.Hint
