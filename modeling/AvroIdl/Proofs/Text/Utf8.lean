import AvroIdl.Text.Bytes

/-
A character below 128 is one byte, and every byte of any other character is at least 128, so
the signs of a language are found byte by byte.
-/
set_option autoImplicit false

namespace AvroIdl.Text

/-- The bytes of some characters in a row. -/
def encode (text : List Char) : List UInt8 :=
  text.flatMap String.utf8EncodeChar

theorem encode_cons (c : Char) (rest : List Char) :
    encode (c :: rest) = String.utf8EncodeChar c ++ encode rest :=
  List.flatMap_cons

theorem encode_append (text rest : List Char) :
    encode (text ++ rest) = encode text ++ encode rest :=
  List.flatMap_append

theorem utf8EncodeChar_of_ascii {c : Char} (ascii : c.toNat < 0x80) :
    String.utf8EncodeChar c = [UInt8.ofNat c.toNat] := by
  have small : c.val.toNat ≤ 127 := by
    change c.toNat ≤ 127
    omega
  simp only [String.utf8EncodeChar, if_pos small]
  rfl

theorem encode_cons_of_ascii {c : Char} (ascii : c.toNat < 0x80) (rest : List Char) :
    encode (c :: rest) = UInt8.ofNat c.toNat :: encode rest := by
  rw [encode_cons, utf8EncodeChar_of_ascii ascii]
  rfl

theorem ofUInt8_of_ascii {c : Char} (ascii : c.toNat < 0x80) :
    Char.ofUInt8 (UInt8.ofNat c.toNat) = c := by
  apply Char.ext
  apply UInt32.toNat_inj.mp
  change (UInt8.ofNat c.toNat).toUInt32.toNat = c.toNat
  rw [UInt8.toNat_toUInt32, UInt8.toNat_ofNat']
  omega

theorem toNat_ofUInt8 (byte : UInt8) : (Char.ofUInt8 byte).toNat = byte.toNat := by
  change byte.toUInt32.toNat = byte.toNat
  exact UInt8.toNat_toUInt32 byte

theorem eq_of_ofUInt8 {byte other : UInt8} (same : Char.ofUInt8 byte = Char.ofUInt8 other) :
    byte = other := by
  have equal := congrArg Char.toNat same
  rw [toNat_ofUInt8, toNat_ofUInt8] at equal
  exact UInt8.toNat_inj.mp equal

theorem le_of_mem_utf8EncodeChar {c : Char} (wide : 0x80 ≤ c.toNat) {byte : UInt8}
    (member : byte ∈ String.utf8EncodeChar c) : 0x80 ≤ byte.toNat := by
  have large : ¬ c.val.toNat ≤ 127 := by
    change ¬ c.toNat ≤ 127
    omega
  simp only [String.utf8EncodeChar, if_neg large] at member
  split at member
  · simp only [List.mem_cons, List.not_mem_nil, or_false] at member
    rcases member with rfl | rfl <;> simp only [UInt8.toNat_ofNat'] <;> omega
  · split at member
    · simp only [List.mem_cons, List.not_mem_nil, or_false] at member
      rcases member with rfl | rfl | rfl <;> simp only [UInt8.toNat_ofNat'] <;> omega
    · simp only [List.mem_cons, List.not_mem_nil, or_false] at member
      rcases member with rfl | rfl | rfl | rfl <;> simp only [UInt8.toNat_ofNat'] <;> omega

/-- A byte from 128 on is no sign below 128. -/
theorem ofUInt8_ne {byte : UInt8} {c : Char} (wide : 0x80 ≤ byte.toNat) (ascii : c.toNat < 0x80) :
    Char.ofUInt8 byte ≠ c := by
  intro same
  have equal := congrArg Char.toNat same
  rw [toNat_ofUInt8] at equal
  omega

theorem bytes_of_ofBytes? {bytes : List UInt8} {text : String}
    (found : ofBytes? bytes = some text) : Text.bytes text = bytes := by
  rw [ofBytes?, String.fromUTF8?] at found
  split at found
  · have whole : text.toByteArray = bytes.toByteArray := by
      rw [← Option.some.inj found]
      rfl
    have same := toByteArray_bytes text
    rw [whole] at same
    exact List.toByteArray_inj.mp same
  · cases found

end AvroIdl.Text
