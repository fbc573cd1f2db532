import AvroIdl.Pattern.Usable

/-
What a log filter may ask of the value of a field: a number, or a pattern of its text.
-/
set_option autoImplicit false

namespace AvroIdl.Command.FieldValue

/-- A decimal fraction, perhaps with an exponent; digits may lack on one side of the point. -/
def isDecimal (text : List Char) : Bool :=
  let whole := text.takeWhile Char.isDigit
  let rest := text.dropWhile Char.isDigit
  let (fraction, rest) := match rest with
    | '.' :: rest => (rest.takeWhile Char.isDigit, rest.dropWhile Char.isDigit)
    | rest => ([], rest)
  let exponent := match rest with
    | 'e' :: '+' :: digits | 'e' :: '-' :: digits | 'e' :: digits => some digits
    | 'E' :: '+' :: digits | 'E' :: '-' :: digits | 'E' :: digits => some digits
    | _ => none
  (whole ≠ [] || fraction ≠ []) &&
    (rest = [] || exponent.any fun digits => digits ≠ [] && digits.all Char.isDigit)

/-- A number with a plus sign. All other numbers are patterns too. -/
def isPlusNumber : List Char → Bool
  | '+' :: number =>
    isDecimal number ||
      ["inf", "infinity", "nan"].contains (String.ofList number).toLower
  | _ => false

def isReadable (value : String) : Bool :=
  isPlusNumber value.toList || (Pattern.ofText? value).any Pattern.isUsable

end AvroIdl.Command.FieldValue
