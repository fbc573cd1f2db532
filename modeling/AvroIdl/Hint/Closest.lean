import AvroIdl.Hint.Distance

/-
The known word that a misspelled word probably means.
-/
set_option autoImplicit false

namespace AvroIdl.Hint

/-- Words of up to four characters may differ in one edit, longer ones in two. -/
def limit (unknown : String) : Nat :=
  if unknown.length ≤ 4 then 1 else 2

/-- Of two words equally close the earlier one stays. -/
def closer (unknown : String) (best : Option (Nat × String)) (candidate : String) :
    Option (Nat × String) :=
  let d := distance unknown candidate
  if d ≤ limit unknown ∧ best.all (fun (least, _) => d < least) then some (d, candidate)
  else best

def closest (unknown : String) (candidates : List String) : Option String :=
  (candidates.foldl (closer unknown) none).map Prod.snd

end AvroIdl.Hint
