import GameArchive.Json.Basic

/-!
# Reading JSON

`Json.parse?` reads one value with blanks around it and nothing after it.  The grammar admits the
escapes of any UTF-16 unit; a unit of a surrogate pair without the other one leaves the text
without a value.
-/

namespace GameArchive
namespace Json

def isBlank (character : Char) : Bool :=
  character == ' ' || character == '\t' || character == '\n' || character == '\r'

def skipBlanks (input : List Char) : List Char :=
  input.dropWhile isBlank

def hexadecimalDigit? (character : Char) : Option Nat :=
  if '0' ≤ character ∧ character ≤ '9' then some (character.toNat - '0'.toNat)
  else if 'a' ≤ character ∧ character ≤ 'f' then some (character.toNat - 'a'.toNat + 10)
  else if 'A' ≤ character ∧ character ≤ 'F' then some (character.toNat - 'A'.toNat + 10)
  else none

/-- The unit that four hexadecimal digits write. -/
def unit? (first second third fourth : Char) : Option Nat := do
  let first ← hexadecimalDigit? first
  let second ← hexadecimalDigit? second
  let third ← hexadecimalDigit? third
  let fourth ← hexadecimalDigit? fourth
  pure (((first * 16 + second) * 16 + third) * 16 + fourth)

/-- The number of the character that a short escape writes. -/
def shortEscape? (character : Char) : Option Nat :=
  match character with
  | '"' => some 0x22
  | '\\' => some 0x5C
  | '/' => some 0x2F
  | 'b' => some 0x08
  | 'f' => some 0x0C
  | 'n' => some 0x0A
  | 'r' => some 0x0D
  | 't' => some 0x09
  | _ => none

/-- The numbers of the characters and units up to the closing quote, and what follows it. -/
def textUnits? : List Char → Option (List Nat × List Char)
  | [] => none
  | '"' :: rest => some ([], rest)
  | '\\' :: 'u' :: first :: second :: third :: fourth :: rest => do
      let unit ← unit? first second third fourth
      let (units, rest) ← textUnits? rest
      pure (unit :: units, rest)
  | '\\' :: character :: rest => do
      let number ← shortEscape? character
      let (units, rest) ← textUnits? rest
      pure (number :: units, rest)
  | character :: rest =>
      if character.toNat < 0x20 then
        none
      else do
        let (units, rest) ← textUnits? rest
        pure (character.toNat :: units, rest)

/-- The characters of a sequence in which surrogate pairs are still two numbers. -/
def joinSurrogates? : List Nat → Option (List Char)
  | [] => some []
  | [unit] => if 0xD800 ≤ unit ∧ unit < 0xE000 then none else some [Char.ofNat unit]
  | unit :: next :: rest =>
      if 0xD800 ≤ unit ∧ unit < 0xDC00 then
        if 0xDC00 ≤ next ∧ next < 0xE000 then
          (joinSurrogates? rest).map
            (Char.ofNat (0x10000 + (unit - 0xD800) * 0x400 + (next - 0xDC00)) :: ·)
        else
          none
      else if 0xDC00 ≤ unit ∧ unit < 0xE000 then
        none
      else
        (joinSurrogates? (next :: rest)).map (Char.ofNat unit :: ·)

/-- Reads a text after its opening quote. -/
def readText? (input : List Char) : Option (Option String × List Char) := do
  let (units, rest) ← textUnits? input
  pure ((joinSurrogates? units).map String.ofList, rest)

def isDigit (character : Char) : Bool :=
  '0' ≤ character && character ≤ '9'

def numberOfDigits (digits : List Char) : Nat :=
  digits.foldl (fun value digit => 10 * value + (digit.toNat - '0'.toNat)) 0

/-- Reads the digits before a decimal point; only a lone zero begins with a zero. -/
def readWhole? (input : List Char) : Option (List Char × List Char) :=
  let digits := input.takeWhile isDigit
  let rest := input.dropWhile isDigit
  match digits with
  | [] => none
  | '0' :: _ :: _ => none
  | _ => some (digits, rest)

/-- Reads a decimal point and the digits after it, if there are any. -/
def readFraction? (input : List Char) : Option (List Char × List Char) :=
  match input with
  | '.' :: rest =>
      let digits := rest.takeWhile isDigit
      if digits.isEmpty then none else some (digits, rest.dropWhile isDigit)
  | _ => some ([], input)

def readExponent? (input : List Char) : Option (Option Int × List Char) :=
  match input with
  | [] => some (none, [])
  | character :: rest =>
      if character == 'e' || character == 'E' then
        let (isNegative, rest) := match rest with
          | '-' :: rest => (true, rest)
          | '+' :: rest => (false, rest)
          | _ => (false, rest)
        let digits := rest.takeWhile isDigit
        let magnitude : Int := numberOfDigits digits
        if digits.isEmpty then none
        else some (some (if isNegative then -magnitude else magnitude), rest.dropWhile isDigit)
      else
        some (none, input)

/-- The significand with as many of the digits appended as it has room for, and the digits that
are left. -/
def appendDigits (significand : Nat) : List Char → Nat × List Char
  | [] => (significand, [])
  | digit :: digits =>
      let extended := 10 * significand + (digit.toNat - '0'.toNat)
      if extended < UInt64.size then appendDigits extended digits
      else (significand, digit :: digits)

def readNumber? (input : List Char) : Option (JsonNumber × List Char) := do
  let (isNegative, input) := match input with
    | '-' :: rest => (true, rest)
    | _ => (false, input)
  let (whole, input) ← readWhole? input
  let (fraction, input) ← readFraction? input
  let (exponent, input) ← readExponent? input
  let (significand, surplus) := appendDigits 0 whole
  let (significand, dropped) := appendDigits significand fraction
  pure ({
    isNegative, significand
    exponent := exponent.getD 0 + surplus.length + dropped.length - fraction.length
    isInteger := fraction.isEmpty && exponent.isNone && surplus.isEmpty }, input)

mutual

/-- Reads a value.  Every step into a value, and every further item or member, takes a character
at least, so as many steps as the input has characters are enough. -/
def readValue? : (fuel : Nat) → List Char → Option (Json × List Char)
  | 0, _ => none
  | fuel + 1, input =>
      match skipBlanks input with
      | 'n' :: 'u' :: 'l' :: 'l' :: rest => some (null, rest)
      | 't' :: 'r' :: 'u' :: 'e' :: rest => some (boolean true, rest)
      | 'f' :: 'a' :: 'l' :: 's' :: 'e' :: rest => some (boolean false, rest)
      | '"' :: rest => (readText? rest).map fun (value, rest) => (text value, rest)
      | '[' :: rest =>
          match skipBlanks rest with
          | ']' :: rest => some (array [], rest)
          | _ => (readItems? fuel rest).map fun (items, rest) => (array items, rest)
      | '\x7b' :: rest =>
          match skipBlanks rest with
          | '\x7d' :: rest => some (object [], rest)
          | _ => (readMembers? fuel rest).map fun (members, rest) => (object members, rest)
      | input => (readNumber? input).map fun (value, rest) => (number value, rest)

/-- Reads the items of an array, of which there is one at least, and its end. -/
def readItems? : (fuel : Nat) → List Char → Option (List Json × List Char)
  | 0, _ => none
  | fuel + 1, input =>
      match readValue? fuel input with
      | none => none
      | some (item, rest) =>
          match skipBlanks rest with
          | ']' :: rest => some ([item], rest)
          | ',' :: rest => (readItems? fuel rest).map fun (items, rest) => (item :: items, rest)
          | _ => none

/-- Reads the members of an object, of which there is one at least, and its end. -/
def readMembers? : (fuel : Nat) → List Char → Option (List (Option String × Json) × List Char)
  | 0, _ => none
  | fuel + 1, input =>
      match skipBlanks input with
      | '"' :: rest =>
          match readText? rest with
          | none => none
          | some (key, rest) =>
              match skipBlanks rest with
              | ':' :: rest =>
                  match readValue? fuel rest with
                  | none => none
                  | some (value, rest) =>
                      match skipBlanks rest with
                      | '\x7d' :: rest => some ([(key, value)], rest)
                      | ',' :: rest =>
                          (readMembers? fuel rest).map fun (members, rest) =>
                            ((key, value) :: members, rest)
                      | _ => none
              | _ => none
      | _ => none

end

def parse? (input : String) : Option Json :=
  let characters := input.toList
  match readValue? (2 * characters.length + 1) characters with
  | some (value, rest) => if (skipBlanks rest).isEmpty then some value else none
  | none => none

end Json
end GameArchive
