import VbaLint.Toml.Value

/-!
# Scalars of TOML

Strings in their four forms, and bare words: truth values, integers of 64 bits, floats, dates and
times.
-/

namespace VbaLint.Toml

/-- What is read, and the rest of the text. -/
abbrev Reads (α : Type) := Option (α × List Char)

/-! ### Characters -/

/-- A space or a tab. -/
def isSpace (c : Char) : Bool := c == ' ' || c == '\t'

/-- A character that may stand in comments and strings as it is: a tab, or no control character. -/
def isPlain (c : Char) : Bool := c == '\t' || (0x20 ≤ c.toNat && c.toNat != 0x7F)

def isHexDigit (c : Char) : Bool :=
  c.isDigit || ('a' ≤ c && c ≤ 'f') || ('A' ≤ c && c ≤ 'F')

def hexValue (c : Char) : Nat :=
  if c.isDigit then c.toNat - '0'.toNat
  else if 'a' ≤ c then c.toNat - 'a'.toNat + 10
  else c.toNat - 'A'.toNat + 10

def digitsValue (base : Nat) (digits : List Char) : Nat :=
  digits.foldl (fun value digit ↦ base * value + hexValue digit) 0

def afterNewline? : List Char → Option (List Char)
  | '\n' :: rest => some rest
  | '\r' :: '\n' :: rest => some rest
  | _ => none

/-! ### Strings -/

/-- The character with the code point that the digits give. -/
def scalar? (digits : List Char) : Option Char :=
  let point := digitsValue 16 digits
  if digits.all isHexDigit && point.isValidChar then some (Char.ofNat point) else none

def readEscape : List Char → Reads Char
  | 'b' :: rest => some ('\x08', rest)
  | 't' :: rest => some ('\t', rest)
  | 'n' :: rest => some ('\n', rest)
  | 'f' :: rest => some ('\x0c', rest)
  | 'r' :: rest => some ('\r', rest)
  | '"' :: rest => some ('"', rest)
  | '\\' :: rest => some ('\\', rest)
  | 'u' :: a :: b :: c :: d :: rest => (scalar? [a, b, c, d]).map (·, rest)
  | 'U' :: a :: b :: c :: d :: e :: f :: g :: h :: rest =>
    (scalar? [a, b, c, d, e, f, g, h]).map (·, rest)
  | _ => none

theorem eq_of_map_pair {read : Option Char} {behind rest : List Char} {c : Char}
    (h : read.map (·, behind) = some (c, rest)) : rest = behind := by
  obtain ⟨_, _, hpair⟩ := Option.map_eq_some_iff.1 h
  exact (Prod.mk.inj hpair).2.symm

theorem readEscape_length {text rest : List Char} {c : Char}
    (h : readEscape text = some (c, rest)) : rest.length < text.length := by
  unfold readEscape at h
  split at h
  case h_8 | h_9 =>
    rw [eq_of_map_pair h]
    simp only [List.length_cons]
    omega
  all_goals simp_all

def readBasic (text : List Char) : Reads (List Char) :=
  match text with
  | [] => none
  | '"' :: rest => some ([], rest)
  | '\\' :: escape =>
    match h : readEscape escape with
    | none => none
    | some (c, rest) =>
      have := readEscape_length h
      (readBasic rest).map fun (text, rest) ↦ (c :: text, rest)
  | c :: rest =>
    if isPlain c then (readBasic rest).map fun (text, rest) ↦ (c :: text, rest) else none
termination_by text.length

def readLiteral : List Char → Reads (List Char)
  | [] => none
  | c :: rest =>
    if c = '\'' then some ([], rest)
    else if isPlain c then (readLiteral rest).map fun (text, rest) ↦ (c :: text, rest)
    else none

/-- Read the end of a string of several lines behind three quotes: up to two more quotes belong to the
text. -/
def readClosing (quote : Char) : List Char → List Char × List Char
  | a :: b :: rest =>
    if a = quote && b = quote then ([quote, quote], rest)
    else if a = quote then ([quote], b :: rest)
    else ([], a :: b :: rest)
  | [a] => if a = quote then ([quote], []) else ([], [a])
  | [] => ([], [])

/-- The rest behind spaces and line ends; a line end without its line feed is none. -/
def skipLines (text : List Char) : List Char :=
  match text with
  | [] => []
  | '\r' :: '\n' :: rest => skipLines rest
  | c :: rest => if isSpace c || c = '\n' then skipLines rest else c :: rest

theorem skipLines_length (text : List Char) : (skipLines text).length ≤ text.length := by
  fun_induction skipLines text <;> simp_all <;> omega

/-- The rest behind an escaped line end: the line end and all spaces and line ends after it. -/
def afterLineBreak? (text : List Char) : Option (List Char) :=
  (afterNewline? (text.dropWhile isSpace)).map skipLines

theorem afterNewline?_length {text rest : List Char} (h : afterNewline? text = some rest) :
    rest.length < text.length := by
  unfold afterNewline? at h
  split at h
  · cases h
    exact Nat.lt_succ_self _
  · cases h
    exact Nat.lt_succ_of_lt (Nat.lt_succ_self _)
  · cases h

theorem afterLineBreak?_length {text rest : List Char} (h : afterLineBreak? text = some rest) :
    rest.length < text.length := by
  obtain ⟨line, hline, rfl⟩ := Option.map_eq_some_iff.1 h
  have := afterNewline?_length hline
  have := skipLines_length line
  have := (List.dropWhile_suffix isSpace (l := text)).length_le
  omega

def readBasicLines (text : List Char) : Reads (List Char) :=
  match text with
  | [] => none
  | '"' :: '"' :: '"' :: rest => some (readClosing '"' rest)
  | '\\' :: escape =>
    match hbreak : afterLineBreak? escape with
    | some rest =>
      have := afterLineBreak?_length hbreak
      readBasicLines rest
    | none =>
      match h : readEscape escape with
      | none => none
      | some (c, rest) =>
        have := readEscape_length h
        (readBasicLines rest).map fun (text, rest) ↦ (c :: text, rest)
  | '\r' :: '\n' :: rest => (readBasicLines rest).map fun (text, rest) ↦ ('\n' :: text, rest)
  | c :: rest =>
    if isPlain c || c = '\n' then
      (readBasicLines rest).map fun (text, rest) ↦ (c :: text, rest)
    else none
termination_by text.length

/-- Read a string of several lines without escapes behind its quotes. -/
def readLiteralLines : List Char → Reads (List Char)
  | [] => none
  | '\'' :: '\'' :: '\'' :: rest => some (readClosing '\'' rest)
  | '\r' :: '\n' :: rest => (readLiteralLines rest).map fun (text, rest) ↦ ('\n' :: text, rest)
  | c :: rest =>
    if isPlain c || c = '\n' then
      (readLiteralLines rest).map fun (text, rest) ↦ (c :: text, rest)
    else none

def dropNewline (text : List Char) : List Char := (afterNewline? text).getD text

def readLineString : List Char → Reads String
  | '"' :: rest => (readBasic rest).map fun (text, rest) ↦ (String.ofList text, rest)
  | '\'' :: rest => (readLiteral rest).map fun (text, rest) ↦ (String.ofList text, rest)
  | _ => none

def readString : List Char → Reads String
  | '"' :: '"' :: '"' :: rest =>
    (readBasicLines (dropNewline rest)).map fun (text, rest) ↦ (String.ofList text, rest)
  | '\'' :: '\'' :: '\'' :: rest =>
    (readLiteralLines (dropNewline rest)).map fun (text, rest) ↦ (String.ofList text, rest)
  | text => readLineString text

/-! ### Numbers -/

/-- The digits of a text in which single underscores may stand between digits. -/
def groupedDigits? (isDigit : Char → Bool) : List Char → Option (List Char)
  | [] => none
  | [c] => if isDigit c then some [c] else none
  | c :: '_' :: rest =>
    if isDigit c then (groupedDigits? isDigit rest).map (c :: ·) else none
  | c :: rest => if isDigit c then (groupedDigits? isDigit rest).map (c :: ·) else none

/-- The digits of a decimal number without superfluous zeros at its front. -/
def decimalDigits? (text : List Char) : Option (List Char) :=
  match groupedDigits? Char.isDigit text with
  | some ('0' :: _ :: _) => none
  | digits => digits

/-- A sign at the front of a text, where minus is true, and the rest. -/
def splitSign : List Char → Bool × List Char
  | '-' :: rest => (true, rest)
  | '+' :: rest => (false, rest)
  | text => (false, text)

/-- The value fits into 64 bits with sign. -/
def fitsInteger (value : Int) : Bool := -(Nat.pow 2 63 : Int) ≤ value && value < Nat.pow 2 63

def integer? (word : List Char) : Option Int := do
  let value : Int ←
    match word with
    | '0' :: 'x' :: digits =>
      (groupedDigits? isHexDigit digits).map fun digits ↦ (digitsValue 16 digits : Int)
    | '0' :: 'o' :: digits =>
      (groupedDigits? (fun c ↦ '0' ≤ c && c ≤ '7') digits).map fun digits ↦
        (digitsValue 8 digits : Int)
    | '0' :: 'b' :: digits =>
      (groupedDigits? (fun c ↦ c == '0' || c == '1') digits).map fun digits ↦
        (digitsValue 2 digits : Int)
    | word =>
      let (negative, rest) := splitSign word
      (decimalDigits? rest).map fun digits ↦
        if negative then -(digitsValue 10 digits : Int) else digitsValue 10 digits
  if fitsInteger value then some value else none

/-- The least decimal that is rounded to infinity. -/
def floatBound : Nat := Nat.pow 2 1024 - Nat.pow 2 970

/-- The number `digits * 10 ^ exponent` is too large for a float. -/
def exceedsFloat (digits : Nat) (exponent : Int) : Bool :=
  if digits = 0 then false
  else
    let magnitude := (Nat.toDigits 10 digits).length + exponent
    if magnitude < 300 then false
    else if 320 < magnitude then true
    else if 0 ≤ exponent then floatBound ≤ digits * Nat.pow 10 exponent.toNat
    else floatBound * Nat.pow 10 exponent.natAbs ≤ digits

/-- A float: a decimal with a fraction, an exponent, or both, that is not rounded to infinity; or a
named one. -/
def isFloat (word : List Char) : Bool :=
  let (negative, unsigned) := splitSign word
  let isNamed := unsigned == "inf".toList || unsigned == "nan".toList
  let mantissa := unsigned.takeWhile fun c ↦ c != 'e' && c != 'E'
  let exponent? := (unsigned.dropWhile fun c ↦ c != 'e' && c != 'E').tail?
  let whole := decimalDigits? (mantissa.takeWhile (· != '.'))
  let fraction? := (mantissa.dropWhile (· != '.')).tail?
  let fraction := fraction?.elim (some []) (groupedDigits? Char.isDigit)
  let exponent :=
    exponent?.elim (some 0) fun text ↦
      let (negative, digits) := splitSign text
      (groupedDigits? Char.isDigit digits).map fun digits ↦
        if negative then -(digitsValue 10 digits : Int) else digitsValue 10 digits
  let isDecimal :=
    match whole, fraction, exponent with
    | some whole, some fraction, some exponent =>
      (fraction?.isSome || exponent?.isSome) &&
        (negative ||
          !exceedsFloat (digitsValue 10 (whole ++ fraction)) (exponent - fraction.length))
    | _, _, _ => false
  isNamed || isDecimal

/-! ### Dates and times -/

def readNumber (count : Nat) (text : List Char) : Reads Nat :=
  let digits := text.take count
  if digits.length = count && digits.all Char.isDigit then
    some (digitsValue 10 digits, text.drop count)
  else none

def readMark (mark : Char) : List Char → Option (List Char)
  | [] => none
  | c :: rest => if c = mark then some rest else none

def daysIn (year month : Nat) : Nat :=
  if month = 2 then
    if year % 4 = 0 && (year % 100 != 0 || year % 400 = 0) then 29 else 28
  else if month = 4 || month = 6 || month = 9 || month = 11 then 30
  else 31

def afterDate? (text : List Char) : Option (List Char) := do
  let (year, rest) ← readNumber 4 text
  let (month, rest) ← readNumber 2 (← readMark '-' rest)
  let (day, rest) ← readNumber 2 (← readMark '-' rest)
  guard (1 ≤ month && month ≤ 12 && 1 ≤ day && day ≤ daysIn year month)
  return rest

def afterMinutes? (text : List Char) : Option (List Char) := do
  let (hour, rest) ← readNumber 2 text
  let (minute, rest) ← readNumber 2 (← readMark ':' rest)
  guard (hour ≤ 23 && minute ≤ 59)
  return rest

def afterTime? (text : List Char) : Option (List Char) := do
  let (second, rest) ← readNumber 2 (← readMark ':' (← afterMinutes? text))
  guard (second ≤ 60)
  match rest with
  | '.' :: fraction =>
    guard (fraction.head?.any Char.isDigit)
    return fraction.dropWhile Char.isDigit
  | rest => return rest

/-- The text is the offset of a time, or nothing. -/
def isOffset : List Char → Bool
  | [] | ['Z'] | ['z'] => true
  | sign :: rest => (sign == '+' || sign == '-') && afterMinutes? rest == some []

/-- The text is a time, with or without an offset. -/
def isTimeWithOffset (text : List Char) : Bool := (afterTime? text).any isOffset

/-- The word is a date, a time, or both. -/
def isMoment (word : List Char) : Bool :=
  match afterDate? word with
  | some [] => true
  | some (mark :: time) => (mark == 'T' || mark == 't') && isTimeWithOffset time
  | none => afterTime? word == some []

/-! ### Bare words -/

/-- A character of a bare word. -/
def isWordPart (c : Char) : Bool :=
  c.isAlphanum || c == '_' || c == '-' || c == '+' || c == '.' || c == ':'

def wordValue? (word : List Char) : Option Value :=
  if word = "true".toList then some (.boolean true)
  else if word = "false".toList then some (.boolean false)
  else if isMoment word then some (.moment (String.ofList word))
  else if isFloat word then some (.float (String.ofList word))
  else (integer? word).map .integer

/-- Read a bare word; a time may follow a date after one space. -/
def readWord (text : List Char) : Reads Value :=
  let word := text.takeWhile isWordPart
  let rest := text.dropWhile isWordPart
  match rest with
  | ' ' :: behind =>
    let time := behind.takeWhile isWordPart
    if afterDate? word == some [] && isTimeWithOffset time then
      some (.moment (String.ofList (word ++ ' ' :: time)), behind.dropWhile isWordPart)
    else (wordValue? word).map (·, rest)
  | rest => (wordValue? word).map (·, rest)

end VbaLint.Toml
