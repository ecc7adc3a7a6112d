import VbaLint.Text.Utf8

/-!
# Document addresses

An editor names a file by an address: the path with every byte escaped that may not stand there as it
is. The escape of a byte is a percent sign and its two hexadecimal digits.
-/

namespace VbaLint.Editor

open Text

/-- The byte stands in an address as it is: it is printable ASCII and has no meaning of its own. -/
def isAddressByte (byte : Nat) : Bool :=
  0x21 ≤ byte && byte ≤ 0x7E &&
    !(['"', '#', '%', '<', '>', '?', '\\', '`', '\x7b', '\x7d'].any (·.toNat == byte))

def upperHexDigit (value : Nat) : Char :=
  Char.ofNat (if value < 10 then '0'.toNat + value else 'A'.toNat + (value - 10))

def escapeByte (byte : UInt8) : List Char :=
  if isAddressByte byte.toNat then [Char.ofNat byte.toNat]
  else ['%', upperHexDigit (byte.toNat / 16), upperHexDigit (byte.toNat % 16)]

def addressOf (path : String) : String :=
  "file://" ++ String.ofList (path.toUTF8.toList.flatMap escapeByte)

def hexDigitValue? (c : Char) : Option Nat :=
  if c.isDigit then some (c.toNat - '0'.toNat)
  else if 'a' ≤ c && c ≤ 'f' then some (c.toNat - 'a'.toNat + 10)
  else if 'A' ≤ c && c ≤ 'F' then some (c.toNat - 'A'.toNat + 10)
  else none

/-- The text that the escapes in an address stand for; a percent sign without two digits stands for
itself. -/
def unescape : List UInt8 → List UInt8
  | [] => []
  | byte :: high :: low :: rest =>
    match hexDigitValue? (Char.ofNat high.toNat), hexDigitValue? (Char.ofNat low.toNat) with
    | some high', some low' =>
      if byte.toNat = '%'.toNat then UInt8.ofNat (16 * high' + low') :: unescape rest
      else byte :: unescape (high :: low :: rest)
    | _, _ => byte :: unescape (high :: low :: rest)
  | byte :: rest => byte :: unescape rest

/-- The path that an address names; none if the address names no file. -/
def pathOf? (address : String) : Option String :=
  match address.toList with
  | 'f' :: 'i' :: 'l' :: 'e' :: ':' :: '/' :: '/' :: '/' :: path =>
    some (readUtf8 ⟨(unescape (String.ofList ('/' :: path)).toUTF8.toList).toArray⟩)
  | _ => none

end VbaLint.Editor
