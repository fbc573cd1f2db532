import AvroIdl.Text.Chunk
import AvroIdl.Text.DefaultIgnorable
import AvroIdl.Text.GraphemeExtend
import AvroIdl.Text.Unprintable

/-
Text in quotes, for people to read: what cannot be seen is written by its code point,
and a byte that belongs to no character by its value.
-/
set_option autoImplicit false

namespace AvroIdl.Text

def hexText (n : Nat) : String :=
  String.ofList (Nat.toDigits 16 n)

def hexByte (byte : UInt8) : String :=
  let digit (n : Nat) : String := (Nat.digitChar n).toUpper.toString
  "\\x" ++ digit (byte.toNat / 16) ++ digit (byte.toNat % 16)

def quotedChar (c : Char) : String :=
  match c with
  | '\x00' => "\\0"
  | '\t' => "\\t"
  | '\r' => "\\r"
  | '\n' => "\\n"
  | '"' => "\\\""
  | '\\' => "\\\\"
  | c =>
    if isGraphemeExtend c || isDefaultIgnorable c || isUnprintable c then
      "\\u\x7b" ++ hexText c.toNat ++ "\x7d"
    else c.toString

def quoted (text : String) : String :=
  "\"" ++ String.join (text.toList.map quotedChar) ++ "\""

def quotedChunk : Chunk → String
  | .char c => quotedChar c
  | .broken bytes => String.join (bytes.map hexByte)

def quotedBytes (bytes : List UInt8) : String :=
  "\"" ++ String.join ((chunks bytes).map quotedChunk) ++ "\""

end AvroIdl.Text
