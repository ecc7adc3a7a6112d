/-!
# Lenient reading of UTF-8

Bytes that are no UTF-8 are replaced, not refused: each longest beginning of a character that breaks
off, and each byte that begins none, becomes one replacement character.
-/

namespace VbaLint.Text

/-- What the first byte of a character of several bytes tells. -/
structure Utf8Lead where
  /-- The number of bytes still to come. -/
  owed : Nat
  /-- The least byte that may come next. -/
  least : Nat
  /-- The greatest byte that may come next. -/
  greatest : Nat
  /-- The high bits of the code point. -/
  bits : Nat
  deriving DecidableEq, Repr

/-- Read a byte as the first of a character of several bytes. The bounds on the next byte exclude
overlong forms, surrogates, and what lies past the last code point. -/
def utf8Lead? (byte : Nat) : Option Utf8Lead :=
  if 0xC2 ≤ byte && byte ≤ 0xDF then some ⟨1, 0x80, 0xBF, byte - 0xC0⟩
  else if byte = 0xE0 then some ⟨2, 0xA0, 0xBF, 0⟩
  else if byte = 0xED then some ⟨2, 0x80, 0x9F, 0xD⟩
  else if 0xE1 ≤ byte && byte ≤ 0xEF then some ⟨2, 0x80, 0xBF, byte - 0xE0⟩
  else if byte = 0xF0 then some ⟨3, 0x90, 0xBF, 0⟩
  else if 0xF1 ≤ byte && byte ≤ 0xF3 then some ⟨3, 0x80, 0xBF, byte - 0xF0⟩
  else if byte = 0xF4 then some ⟨3, 0x80, 0x8F, 4⟩
  else none

/-- What stands for bytes that are no character. -/
def replacement : Char := '\uFFFD'

/-- Read the bytes still owed: the character, or the replacement if they break off, and the rest. -/
def utf8Tail (owed least greatest bits : Nat) : List UInt8 → Char × List UInt8
  | [] => (if owed = 0 then Char.ofNat bits else replacement, [])
  | byte :: rest =>
    if owed = 0 then (Char.ofNat bits, byte :: rest)
    else if least ≤ byte.toNat && byte.toNat ≤ greatest then
      utf8Tail (owed - 1) 0x80 0xBF (bits * 64 + (byte.toNat - 0x80)) rest
    else (replacement, byte :: rest)

theorem utf8Tail_length (owed least greatest bits : Nat) (bytes : List UInt8) :
    (utf8Tail owed least greatest bits bytes).2.length ≤ bytes.length := by
  fun_induction utf8Tail owed least greatest bits bytes with
  | case1 => simp
  | case2 => simp
  | case3 _ _ _ _ _ _ _ _ ih =>
    simp only [List.length_cons]
    omega
  | case4 => simp

def decodeUtf8 : List UInt8 → List Char
  | [] => []
  | byte :: rest =>
    if byte.toNat < 0x80 then Char.ofNat byte.toNat :: decodeUtf8 rest
    else
      match utf8Lead? byte.toNat with
      | none => replacement :: decodeUtf8 rest
      | some lead =>
        let read := utf8Tail lead.owed lead.least lead.greatest lead.bits rest
        read.1 :: decodeUtf8 read.2
termination_by bytes => bytes.length
decreasing_by
  · simp
  · simp
  · have := utf8Tail_length lead.owed lead.least lead.greatest lead.bits rest
    simp only [List.length_cons]
    omega

def readUtf8 (bytes : ByteArray) : String :=
  match String.fromUTF8? bytes with
  | some text => text
  | none => String.ofList (decodeUtf8 bytes.toList)

end VbaLint.Text
