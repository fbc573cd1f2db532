import AvroIdl.Proofs.Declaration.Repeats

/-
Calling a walk for its next item again and again: which item each call gives, and which
names are declared after it.
-/
set_option autoImplicit false

namespace AvroIdl

namespace Walk

/-- The walk after some calls. -/
def after (w : Walk) : Nat → Walk
  | 0 => w
  | n + 1 => (w.after n).next.2

/-- What a call gives that comes after some others. -/
def call (w : Walk) (n : Nat) : Option (Except NameConflict Declaration) :=
  (w.after n).next.1

end Walk

end AvroIdl
