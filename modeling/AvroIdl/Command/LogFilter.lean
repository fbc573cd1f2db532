import AvroIdl.Command.LogDirective

/-
Which log lines are shown. A filter lists directives, parted by commas; the most specific
one decides.
-/
set_option autoImplicit false

namespace AvroIdl.Command

def splitCommas : List Char → List Char → List String
  | [], [] => []
  | word, [] => [String.ofList word.reverse]
  | [], ',' :: rest => splitCommas [] rest
  | word, ',' :: rest => String.ofList word.reverse :: splitCommas [] rest
  | word, c :: rest => splitCommas (c :: word) rest

namespace LogDirective

/-- Lines of all targets up to a level. -/
def upTo (level : LogLevel) : LogDirective :=
  ⟨none, none, none, level.rank⟩

/-- Without a filter, or with one that cannot be read, warnings are shown; an empty filter leaves
errors. -/
def listOf (filter : Option String) : List LogDirective :=
  match filter with
  | none => [upTo .warn]
  | some text =>
    match (splitCommas [] text.toList).mapM ofText? with
    | none => [upTo .warn]
    | some [] => [upTo .error]
    | some directives => directives

/-- No span is ever entered, so a directive that asks for a span or for the value of its field
covers no line. -/
def covers (d : LogDirective) (target : String) (fields : List String) : Bool :=
  d.span.isNone && d.target.all (fun t => t.toList.isPrefixOf target.toList) &&
    d.field.all fun f => f.pattern.isNone && fields.contains f.name

def targetSize : LogDirective → Nat
  | ⟨none, _, _, _⟩ => 0
  | ⟨some target, _, _, _⟩ => target.utf8ByteSize + 1

/-- Whether a directive decides where another does not: the longer target comes first, then one
with a field, then the later field name; of two alike the one that was given later. -/
def overrules (later earlier : LogDirective) : Bool :=
  if later.targetSize = earlier.targetSize then
    match later.field, earlier.field with
    | _, none => true
    | none, some _ => false
    | some a, some b => !decide (a.name < b.name)
  else earlier.targetSize < later.targetSize

def decisive (directives : List LogDirective) (target : String) (fields : List String) :
    Option LogDirective :=
  (directives.filter fun d => d.covers target fields).foldl
    (fun best d => if best.all d.overrules then some d else best) none

end LogDirective

def isShown (filter : Option String) (level : LogLevel) (target : String)
    (fields : List String) : Bool :=
  (LogDirective.decisive (LogDirective.listOf filter) target fields).any fun d =>
    level.rank ≤ d.rank

end AvroIdl.Command
