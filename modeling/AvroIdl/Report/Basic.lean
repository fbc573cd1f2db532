import AvroIdl.Conversion.Failure
import AvroIdl.Report.Snippet

/-
What the program prints about a failure.
-/
set_option autoImplicit false

namespace AvroIdl

namespace Report

def labelled (label : String) (text : Option String) : List String :=
  (text.map fun text => label ++ text).toList

end Report

open Report in
def Failure.report (f : Failure) : List String :=
  [f.message, "    Diagnostic severity: error"] ++
    labelled "    Caused by: " (f.cause?.map SystemError.message) ++
    (match f.label? with
      | some (d, span) => snippet d span
      | none => []) ++
    labelled "diagnostic help: " f.help? ++
    ["diagnostic code: " ++ f.code, ""]

end AvroIdl
