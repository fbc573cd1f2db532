import Mathlib.Data.List.TakeWhile
import Mathlib.Data.List.Infix

/-
Printed parts that can be read back: a part and all that follows it tell what was printed and
where it ends. Parts of this kind may be optional, and they may stand in lists.
-/
set_option autoImplicit false

namespace AvroIdl

/-- As far as `key` goes, a value can be read back from its text and whatever meets `ends`. -/
def Readable {α β : Type} (text : α → List Char) (key : α → β) (ok : α → Prop)
    (ends : List Char → Prop) : Prop :=
  ∀ ⦃a b : α⦄ ⦃rest rest' : List Char⦄, ok a → ok b → ends rest → ends rest' →
    text a ++ rest = text b ++ rest' → key a = key b ∧ rest = rest'

/-- For a part that tells by itself where it ends. -/
abbrev Anything : List Char → Prop :=
  fun _ => True

/-- The text is at its end, or goes on with such a character. -/
def Begins (p : Char → Bool) (text : List Char) : Prop :=
  ∀ c ∈ text.head?, p c = true

@[simp] theorem begins_nil (p : Char → Bool) : Begins p [] := by
  rintro c ⟨⟩

@[simp] theorem begins_cons {p : Char → Bool} {c : Char} {text : List Char} :
    Begins p (c :: text) ↔ p c = true := by
  simp [Begins]

/-- The text has a first character, and it is such a one. -/
def Opens (p : Char → Bool) (text : List Char) : Prop :=
  ∃ c ∈ text.head?, p c = true

theorem Opens.mono {p q : Char → Bool} (implies : ∀ c, p c = true → q c = true) {text : List Char}
    (opens : Opens p text) : Opens q text := by
  obtain ⟨c, first, holds⟩ := opens
  exact ⟨c, first, implies c holds⟩

theorem Opens.append {p : Char → Bool} {text : List Char} (opens : Opens p text)
    (rest : List Char) : Opens p (text ++ rest) := by
  obtain ⟨c, first, holds⟩ := opens
  refine ⟨c, ?_, holds⟩
  rw [List.head?_append, first]
  rfl

theorem Opens.not_isPrefix {p : Char → Bool} {text opening : List Char} (opens : Opens p text)
    (other : Opens (fun c => !p c) opening) : ¬ opening <+: text := by
  rintro ⟨rest, rfl⟩
  obtain ⟨c, first, holds⟩ := opens
  obtain ⟨d, first', fails⟩ := other.append rest
  cases Option.mem_unique first first'
  dsimp only at fails
  rw [holds] at fails
  cases fails

theorem takeWhile_append_of_begins {stop : Char → Bool} {text rest : List Char}
    (free : ∀ c ∈ text, stop c = false) (stops : Begins stop rest) :
    (text ++ rest).takeWhile (fun c => !stop c) = text := by
  have goesOn : ∀ c ∈ text, (!stop c) = true := by
    intro c member
    rw [free c member]
    rfl
  rw [List.takeWhile_append_of_pos goesOn]
  cases rest with
  | nil => exact List.append_nil text
  | cons c tail =>
    rw [List.takeWhile_cons_of_neg (by simpa using begins_cons.mp stops), List.append_nil]

/-- A text that goes on to the first character of some kind. -/
theorem readable_until (stop : Char → Bool) :
    Readable String.toList id (fun text => ∀ c ∈ text.toList, stop c = false) (Begins stop) := by
  intro a b rest rest' freeA freeB stops stops' same
  have texts : a.toList = b.toList := by
    rw [← takeWhile_append_of_begins freeA stops, same, takeWhile_append_of_begins freeB stops']
  refine ⟨String.toList_inj.mp texts, ?_⟩
  rw [texts] at same
  exact List.append_cancel_left same

section Combining

variable {α β : Type} {text : α → List Char} {key : α → β} {ok : α → Prop}
  {ends : List Char → Prop}

/-- A part of a larger value. -/
theorem Readable.comap {γ : Type} (readable : Readable text key ok ends) (part : γ → α) :
    Readable (fun c => text (part c)) (fun c => key (part c)) (fun c => ok (part c)) ends :=
  fun _ _ _ _ okA okB => readable okA okB

theorem Readable.closed (readable : Readable text key ok ends) (close : List Char)
    (stops : ∀ rest, ends (close ++ rest)) :
    Readable (fun a => text a ++ close) key ok Anything := by
  intro a b rest rest' okA okB _ _ same
  rw [List.append_assoc, List.append_assoc] at same
  obtain ⟨found, after⟩ := readable okA okB (stops rest) (stops rest') same
  exact ⟨found, List.append_cancel_left after⟩

/-- A part that may be missing is told from what follows it by the way it opens. -/
theorem readable_option (whole : Option α → List Char) (opening : List Char)
    (absent : whole none = []) (present : ∀ a, whole (some a) = opening ++ text a)
    (readable : Readable text key ok ends) :
    Readable whole (Option.map key) (fun value => ∀ a ∈ value, ok a)
      (fun rest => ends rest ∧ ¬ opening <+: rest) := by
  intro a b rest rest' okA okB stops stops' same
  cases a with
  | none =>
    cases b with
    | none =>
      rw [absent] at same
      exact ⟨rfl, same⟩
    | some b =>
      rw [absent, present, List.append_assoc, List.nil_append] at same
      exact absurd ⟨_, same.symm⟩ stops.2
  | some a =>
    cases b with
    | none =>
      rw [absent, present, List.append_assoc, List.nil_append] at same
      exact absurd ⟨_, same⟩ stops'.2
    | some b =>
      rw [present, present, List.append_assoc, List.append_assoc] at same
      obtain ⟨found, after⟩ := readable (okA a rfl) (okB b rfl) stops.1 stops'.1
        (List.append_cancel_left same)
      exact ⟨congrArg some found, after⟩

variable {separator close : List Char}

/-- What follows an item is the next one or the close. -/
theorem ends_followers (more : ∀ rest, ends (separator ++ rest))
    (done : ∀ rest, ends (close ++ rest)) (items : List α) (rest : List Char) :
    ends (items.flatMap (fun a => separator ++ text a) ++ (close ++ rest)) := by
  cases items with
  | nil => exact done rest
  | cons a items =>
    rw [List.flatMap_cons, List.append_assoc, List.append_assoc]
    exact more _

/-- Items that each come after a separator, up to a closing text. -/
theorem readable_followers (item : Readable text key ok ends)
    (more : ∀ rest, ends (separator ++ rest)) (done : ∀ rest, ends (close ++ rest))
    (apart : ∀ a rest rest', ok a → separator ++ (text a ++ rest) ≠ close ++ rest') :
    Readable (fun items => items.flatMap (fun a => separator ++ text a) ++ close) (List.map key)
      (fun items => ∀ a ∈ items, ok a) Anything := by
  intro as bs rest rest' okAs okBs _ _ same
  induction as generalizing bs with
  | nil =>
    cases bs with
    | nil => exact ⟨rfl, List.append_cancel_left same⟩
    | cons b bs =>
      simp only [List.flatMap_nil, List.flatMap_cons, List.nil_append, List.append_assoc] at same
      exact absurd same.symm (apart b _ rest (okBs b List.mem_cons_self))
  | cons a as ih =>
    cases bs with
    | nil =>
      simp only [List.flatMap_nil, List.flatMap_cons, List.nil_append, List.append_assoc] at same
      exact absurd same (apart a _ rest' (okAs a List.mem_cons_self))
    | cons b bs =>
      simp only [List.flatMap_cons, List.append_assoc] at same ih
      obtain ⟨first, after⟩ := item (okAs a List.mem_cons_self) (okBs b List.mem_cons_self)
        (ends_followers more done as rest) (ends_followers more done bs rest')
        (List.append_cancel_left same)
      obtain ⟨others, last⟩ := ih (fun a member => okAs a (List.mem_cons_of_mem _ member))
        (fun b member => okBs b (List.mem_cons_of_mem _ member)) after
      refine ⟨?_, last⟩
      rw [List.map_cons, List.map_cons, first, others]

theorem intercalate_map_cons (separator : List Char) (text : α → List Char) (first : α)
    (others : List α) :
    separator.intercalate ((first :: others).map text) =
      text first ++ others.flatMap (fun other => separator ++ text other) := by
  induction others generalizing first with
  | nil => simp [List.intercalate]
  | cons second others ih =>
    rw [List.map_cons, List.map_cons, List.intercalate_cons_cons, ← List.map_cons, ih,
      List.flatMap_cons, List.append_assoc, List.append_assoc]

/-- Items with a separator between them, up to a closing text. -/
theorem readable_joined (item : Readable text key ok ends)
    (more : ∀ rest, ends (separator ++ rest)) (done : ∀ rest, ends (close ++ rest))
    (apart : ∀ a rest rest', ok a → separator ++ (text a ++ rest) ≠ close ++ rest')
    (first : ∀ a rest rest', ok a → text a ++ rest ≠ close ++ rest') :
    Readable (fun items => separator.intercalate (items.map text) ++ close) (List.map key)
      (fun items => ∀ a ∈ items, ok a) Anything := by
  intro as bs rest rest' okAs okBs _ _ same
  dsimp only at same
  cases as with
  | nil =>
    cases bs with
    | nil => exact ⟨rfl, List.append_cancel_left same⟩
    | cons b bs =>
      simp only [List.map_nil, List.intercalate_nil, List.nil_append, intercalate_map_cons,
        List.append_assoc] at same
      exact absurd same.symm (first b _ rest (okBs b List.mem_cons_self))
  | cons a as =>
    cases bs with
    | nil =>
      simp only [List.map_nil, List.intercalate_nil, List.nil_append, intercalate_map_cons,
        List.append_assoc] at same
      exact absurd same (first a _ rest' (okAs a List.mem_cons_self))
    | cons b bs =>
      simp only [intercalate_map_cons, List.append_assoc] at same
      obtain ⟨head, after⟩ := item (okAs a List.mem_cons_self) (okBs b List.mem_cons_self)
        (ends_followers more done as rest) (ends_followers more done bs rest') same
      rw [← List.append_assoc, ← List.append_assoc] at after
      obtain ⟨others, last⟩ := readable_followers item more done apart
        (fun a member => okAs a (List.mem_cons_of_mem _ member))
        (fun b member => okBs b (List.mem_cons_of_mem _ member)) trivial trivial after
      refine ⟨?_, last⟩
      rw [List.map_cons, List.map_cons, head, others]

end Combining

/-- What appending keeps, joining keeps. -/
theorem intercalate_of_append (holds : String → Prop) (nothing : holds "")
    (append : ∀ {text rest : String}, holds text → holds rest → holds (text ++ rest))
    {separator : String} {parts : List String} (between : holds separator)
    (each : ∀ part ∈ parts, holds part) : holds (separator.intercalate parts) := by
  induction parts with
  | nil => exact nothing
  | cons first others ih =>
    obtain ⟨here, later⟩ := List.forall_mem_cons.mp each
    cases others with
    | nil =>
      rw [String.intercalate_singleton]
      exact here
    | cons second others =>
      rw [String.intercalate_cons_cons]
      exact append (append here between) (ih later)

end AvroIdl
