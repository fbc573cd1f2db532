/-
The UTF-8 bytes of a text, as a list.
-/
set_option autoImplicit false

namespace AvroIdl.Text

def bytes (text : String) : List UInt8 :=
  text.toList.flatMap String.utf8EncodeChar

/-- No text when the bytes are not UTF-8. -/
def ofBytes? (bytes : List UInt8) : Option String :=
  String.fromUTF8? bytes.toByteArray

theorem bytes_append (a b : String) : bytes (a ++ b) = bytes a ++ bytes b := by
  simp [bytes]

theorem toByteArray_bytes (text : String) : (bytes text).toByteArray = text.toByteArray := by
  rw [bytes, ← List.utf8Encode, String.utf8Encode_toList]

theorem ofBytes?_bytes (text : String) : ofBytes? (bytes text) = some text := by
  rw [ofBytes?, toByteArray_bytes, String.fromUTF8?, dif_pos text.isValidUTF8]
  rfl

end AvroIdl.Text
