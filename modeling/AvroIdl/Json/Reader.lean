import AvroIdl.Json.Basic
import AvroIdl.Json.Cause
import AvroIdl.Json.Comment
import AvroIdl.Text.Bytes

/-
Reading JSON one byte at a time. The reader is a machine whose state holds the
lists and objects that wait for the value being read. Every fault shows at the byte
that is being looked at, or at the end of the text.

An object is read as an object whatever its keys are. In this the reader differs from one that
keeps numbers of any length in objects of its own: that one takes an object whose first key is
`$serde_json::private::Number` for the number that stands there as a string.
-/
set_option autoImplicit false

namespace AvroIdl.Json

/-- A list or object that waits for one of its values. List items stand latest first. -/
inductive Frame
  | list (items : List Json)
  | object (members : Members) (key : String)

inductive Container
  | list
  | object

def Frame.container : Frame → Container
  | .list _ => .list
  | .object _ _ => .object

inductive NumberPart
  | sign
  | zero
  | whole
  | point
  | fraction
  | exponent
  | exponentSign
  | exponentDigits

/-- A number may end after this part of it. -/
def NumberPart.mayEnd : NumberPart → Bool
  | .zero | .whole | .fraction | .exponentDigits => true
  | .sign | .point | .exponent | .exponentSign => false

/-- In `hex` and the parts after it, `high` is a high surrogate that wants its partner. -/
inductive StringPart
  | plain
  | escape
  | hex (high : Option Nat) (digits : List UInt8)
  | partner (high : Nat)
  | partnerMark (high : Nat)

/-- Where the reader stands between tokens. -/
inductive Place
  | value
  | listStart
  | listNext (items : List Json)
  | listMore (items : List Json)
  | objectStart
  | objectNext (members : Members)
  | objectMore (members : Members)
  | colon (members : Members) (key : String)
  | finished (value : Json)

/-- Texts and bytes in the making stand latest first. -/
inductive Mode
  | between (place : Place)
  | literal (next : Char) (rest : List Char) (value : Json)
  | number (part : NumberPart) (text : List Char)
  | string (part : StringPart) (bytes : List UInt8)
  | key (members : Members) (part : StringPart) (bytes : List UInt8)

structure Reader where
  waiting : List Frame
  mode : Mode

namespace Reader

def start : Reader := ⟨[], .between .value⟩

/-- Lists and objects may stand this deep in one another. -/
def maxDepth : Nat := 127

def isBlank (byte : UInt8) : Bool :=
  byte = 0x20 || byte = 0x0a || byte = 0x09 || byte = 0x0d

def hexValue? (byte : UInt8) : Option Nat :=
  let c := Char.ofUInt8 byte
  if '0' ≤ c ∧ c ≤ '9' then some (c.toNat - '0'.toNat)
  else if 'a' ≤ c ∧ c ≤ 'f' then some (c.toNat - 'a'.toNat + 10)
  else if 'A' ≤ c ∧ c ≤ 'F' then some (c.toNat - 'A'.toNat + 10)
  else none

def hexNumber? (digits : List UInt8) : Option Nat :=
  digits.foldl (fun n d => n.bind fun n => (hexValue? d).map (16 * n + ·)) (some 0)

/-- A value is complete: it joins what waits for it. -/
def complete (waiting : List Frame) (value : Json) : List Frame × Place :=
  match waiting with
  | [] => ([], .finished value)
  | .list items :: outer => (outer, .listMore (value :: items))
  | .object members key :: outer => (outer, .objectMore (members.insert key value))

def completed (waiting : List Frame) (value : Json) : Reader :=
  let (outer, place) := complete waiting value
  ⟨outer, .between place⟩

/-- A value begins at a byte that is not blank. -/
def beginValue (waiting : List Frame) (byte : UInt8) : Except Cause Reader :=
  match Char.ofUInt8 byte with
  | 'n' => .ok ⟨waiting, .literal 'u' ['l', 'l'] .null⟩
  | 't' => .ok ⟨waiting, .literal 'r' ['u', 'e'] (.bool true)⟩
  | 'f' => .ok ⟨waiting, .literal 'a' ['l', 's', 'e'] (.bool false)⟩
  | '-' => .ok ⟨waiting, .number .sign ['-']⟩
  | '"' => .ok ⟨waiting, .string .plain []⟩
  | '[' =>
    if waiting.length < maxDepth then .ok ⟨waiting, .between .listStart⟩ else .error .tooDeep
  | '\x7b' =>
    if waiting.length < maxDepth then .ok ⟨waiting, .between .objectStart⟩ else .error .tooDeep
  | c =>
    if c = '0' then .ok ⟨waiting, .number .zero ['0']⟩
    else if c.isDigit then .ok ⟨waiting, .number .whole [c]⟩
    else .error .expectedValue

/-- What a byte that is not blank means between tokens. -/
def stepPlace (waiting : List Frame) (place : Place) (byte : UInt8) : Except Cause Reader :=
  match place, Char.ofUInt8 byte with
  | .value, _ => beginValue waiting byte
  | .listStart, ']' => .ok (completed waiting (.array []))
  | .listStart, _ => beginValue (.list [] :: waiting) byte
  | .listNext _, ']' => .error .trailingComma
  | .listNext items, _ => beginValue (.list items :: waiting) byte
  | .listMore items, ']' => .ok (completed waiting (.array items.reverse))
  | .listMore items, ',' => .ok ⟨waiting, .between (.listNext items)⟩
  | .listMore _, _ => .error .expectedListCommaOrEnd
  | .objectStart, '\x7d' => .ok (completed waiting (.object []))
  | .objectStart, '"' => .ok ⟨waiting, .key [] .plain []⟩
  | .objectStart, _ => .error .keyNotString
  | .objectNext _, '\x7d' => .error .trailingComma
  | .objectNext members, '"' => .ok ⟨waiting, .key members .plain []⟩
  | .objectNext _, _ => .error .keyNotString
  | .objectMore members, '\x7d' => .ok (completed waiting (.object members))
  | .objectMore members, ',' => .ok ⟨waiting, .between (.objectNext members)⟩
  | .objectMore _, _ => .error .expectedObjectCommaOrEnd
  | .colon members key, ':' => .ok ⟨.object members key :: waiting, .between .value⟩
  | .colon _ _, _ => .error .expectedColon
  | .finished _, _ => .error .trailingCharacters

def stepBetween (waiting : List Frame) (place : Place) (byte : UInt8) : Except Cause Reader :=
  if isBlank byte then .ok ⟨waiting, .between place⟩ else stepPlace waiting place byte

/-- A number ends before a byte that cannot belong to it. -/
def endNumber (waiting : List Frame) (text : List Char) (byte : UInt8) : Except Cause Reader :=
  let (outer, place) := complete waiting (.number (String.ofList text.reverse))
  stepBetween outer place byte

/-- The exponent is kept as `e` with a sign. -/
def stepNumber (waiting : List Frame) (part : NumberPart) (text : List Char) (byte : UInt8) :
    Except Cause Reader :=
  let c := Char.ofUInt8 byte
  let go (part : NumberPart) (text : List Char) : Except Cause Reader :=
    .ok ⟨waiting, .number part text⟩
  match part with
  | .sign =>
    if c = '0' then go .zero (c :: text)
    else if c.isDigit then go .whole (c :: text)
    else .error .invalidNumber
  | .zero =>
    if c.isDigit then .error .invalidNumber
    else if c = '.' then go .point (c :: text)
    else if c = 'e' ∨ c = 'E' then go .exponent ('e' :: text)
    else endNumber waiting text byte
  | .whole =>
    if c.isDigit then go .whole (c :: text)
    else if c = '.' then go .point (c :: text)
    else if c = 'e' ∨ c = 'E' then go .exponent ('e' :: text)
    else endNumber waiting text byte
  | .point => if c.isDigit then go .fraction (c :: text) else .error .invalidNumber
  | .fraction =>
    if c.isDigit then go .fraction (c :: text)
    else if c = 'e' ∨ c = 'E' then go .exponent ('e' :: text)
    else endNumber waiting text byte
  | .exponent =>
    if c = '+' ∨ c = '-' then go .exponentSign (c :: text)
    else if c.isDigit then go .exponentDigits (c :: '+' :: text)
    else .error .invalidNumber
  | .exponentSign => if c.isDigit then go .exponentDigits (c :: text) else .error .invalidNumber
  | .exponentDigits =>
    if c.isDigit then go .exponentDigits (c :: text) else endNumber waiting text byte

/-- What follows one byte of a string: another part, or the end of the string. -/
inductive StringStep
  | more (part : StringPart) (bytes : List UInt8)
  | closed (bytes : List UInt8)

def pushChar (codePoint : Nat) (bytes : List UInt8) : List UInt8 :=
  (String.utf8EncodeChar (Char.ofNat codePoint)).reverse ++ bytes

/-- Four hexadecimal digits name a code unit. -/
def endHex (high : Option Nat) (unit : Nat) (bytes : List UInt8) : Except Cause StringStep :=
  match high with
  | none =>
    if 0xDC00 ≤ unit ∧ unit ≤ 0xDFFF then .error .loneSurrogate
    else if 0xD800 ≤ unit ∧ unit ≤ 0xDBFF then .ok (.more (.partner unit) bytes)
    else .ok (.more .plain (pushChar unit bytes))
  | some high =>
    if 0xDC00 ≤ unit ∧ unit ≤ 0xDFFF then
      .ok (.more .plain
        (pushChar ((high - 0xD800) * 0x400 + (unit - 0xDC00) + 0x10000) bytes))
    else .error .loneSurrogate

def stepString (part : StringPart) (bytes : List UInt8) (byte : UInt8) :
    Except Cause StringStep :=
  match part, Char.ofUInt8 byte with
  | .plain, '"' => .ok (.closed bytes)
  | .plain, '\\' => .ok (.more .escape bytes)
  | .plain, _ =>
    if byte < 0x20 then .error .controlCharacter else .ok (.more .plain (byte :: bytes))
  | .escape, '"' => .ok (.more .plain (byte :: bytes))
  | .escape, '\\' => .ok (.more .plain (byte :: bytes))
  | .escape, '/' => .ok (.more .plain (byte :: bytes))
  | .escape, 'b' => .ok (.more .plain (0x08 :: bytes))
  | .escape, 'f' => .ok (.more .plain (0x0c :: bytes))
  | .escape, 'n' => .ok (.more .plain (0x0a :: bytes))
  | .escape, 'r' => .ok (.more .plain (0x0d :: bytes))
  | .escape, 't' => .ok (.more .plain (0x09 :: bytes))
  | .escape, 'u' => .ok (.more (.hex none []) bytes)
  | .escape, _ => .error .invalidEscape
  | .hex high digits, _ =>
    if digits.length < 3 then .ok (.more (.hex high (digits ++ [byte])) bytes)
    else match hexNumber? (digits ++ [byte]) with
      | some unit => endHex high unit bytes
      | none => .error .invalidEscape
  | .partner high, '\\' => .ok (.more (.partnerMark high) bytes)
  | .partner _, _ => .error .unexpectedEndOfHexEscape
  | .partnerMark high, 'u' => .ok (.more (.hex (some high) []) bytes)
  | .partnerMark _, _ => .error .unexpectedEndOfHexEscape

def closeString (bytes : List UInt8) : Except Cause String :=
  match Text.ofBytes? bytes.reverse with
  | some text => .ok text
  | none => .error .invalidUnicode

/-- One more byte of the text. -/
def step (r : Reader) (byte : UInt8) : Except Cause Reader :=
  match r.mode with
  | .between place => stepBetween r.waiting place byte
  | .literal next rest value =>
    if Char.ofUInt8 byte ≠ next then .error .expectedIdent
    else match rest with
      | [] => .ok (completed r.waiting value)
      | next :: rest => .ok ⟨r.waiting, .literal next rest value⟩
  | .number part text => stepNumber r.waiting part text byte
  | .string part bytes =>
    match stepString part bytes byte with
    | .error cause => .error cause
    | .ok (.more part bytes) => .ok ⟨r.waiting, .string part bytes⟩
    | .ok (.closed bytes) => (closeString bytes).map fun text => completed r.waiting (.string text)
  | .key members part bytes =>
    match stepString part bytes byte with
    | .error cause => .error cause
    | .ok (.more part bytes) => .ok ⟨r.waiting, .key members part bytes⟩
    | .ok (.closed bytes) =>
      (closeString bytes).map fun text => ⟨r.waiting, .between (.colon members text)⟩

/-- What is missing when the text ends between tokens. -/
def endPlace : Place → Except Cause Json
  | .finished value => .ok value
  | .value | .listNext _ | .objectNext _ => .error .endInValue
  | .listStart | .listMore _ => .error .endInList
  | .objectStart | .objectMore _ | .colon _ _ => .error .endInObject

/-- The text is at its end. -/
def finish (r : Reader) : Except Cause Json :=
  match r.mode with
  | .between place => endPlace place
  | .literal _ _ _ => .error .endInValue
  | .number part text =>
    if part.mayEnd then
      endPlace (complete r.waiting (.number (String.ofList text.reverse))).2
    else .error .endInValue
  | .string _ _ | .key _ _ _ => .error .endInString

/-- The list or object that the reader is directly in. -/
def innermost (r : Reader) : Option Container :=
  match r.mode with
  | .between .listStart | .between (.listNext _) | .between (.listMore _) => some .list
  | .between .objectStart | .between (.objectNext _) | .between (.objectMore _) => some .object
  | .between (.colon _ _) | .key _ _ _ => some .object
  | _ => r.waiting.head?.map Frame.container

/-- Goes over blanks and one byte after them, unless reading fails before. -/
def lookAhead : Position → List (Option UInt8) → Position × Option (UInt8 × List (Option UInt8))
  | p, some byte :: rest =>
    if isBlank byte then lookAhead (p.advance byte) rest else (p.advance byte, some (byte, rest))
  | p, _ => (p, none)

/-- After a failed read the place is taken once the next byte has been looked at; in a list a
comma does not count as that byte. -/
def recover (r : Reader) (p : Position) (rest : List (Option UInt8)) : Option Position :=
  match r.innermost, lookAhead p rest with
  | none, _ => none
  | some .object, (p, _) => some p
  | some .list, (p, none) => some p
  | some .list, (p, some (byte, rest)) =>
    if byte = 0x2c then some (lookAhead p rest).1 else some p

def run (whole : Bool) : Reader → Position → List (Option UInt8) → Except ReadError Json
  | r, p, [] =>
    if whole then r.finish.mapError fun cause => ⟨cause, some p⟩
    else .error ⟨.unreadable, r.recover p []⟩
  | r, p, none :: rest => .error ⟨.unreadable, r.recover p rest⟩
  | r, p, some byte :: rest =>
    match r.step byte with
    | .ok next => run whole next (p.advance byte) rest
    | .error cause => .error ⟨cause, some (p.advance byte)⟩

end Reader

/-- Reads bytes that hold no comments. -/
def readPlain (source : List UInt8) : Except ReadError Json :=
  Reader.start.run true .start (source.map some)

/-- Reads a text that may hold comments. -/
def read (source : String) : Except ReadError Json :=
  let text := uncomment (Text.bytes source)
  Reader.start.run text.whole .start text.reads

end AvroIdl.Json
