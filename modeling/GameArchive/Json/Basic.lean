/-!
# JSON values

A value as it was written: members of an object stay in order and may repeat, and a number keeps
its notation, because a reader of records tells `3` from `3.0`.

The grammar of JSON admits values that not every reader takes.  `isSound` holds of those that can
be held in memory by a general reader: not too deeply nested, every number finite, and every
text made of characters.
-/

namespace GameArchive

/-- A number: `significand * 10 ^ exponent`, with its sign.  The significand has 64 bits; digits
that do not fit in are dropped. -/
structure JsonNumber where
  isNegative : Bool
  significand : Nat
  exponent : Int
  /-- Whether it is written without a fraction and without an exponent, and no digit is dropped. -/
  isInteger : Bool
  deriving Repr, DecidableEq

inductive Json where
  | null
  | boolean (value : Bool)
  | number (value : JsonNumber)
  /-- A text, or `none` for one in which half of a surrogate pair is missing. -/
  | text (value : Option String)
  | array (items : List Json)
  | object (members : List (Option String × Json))
  deriving Inhabited

namespace JsonNumber

/-- The number of binary digits in the significand of a number in double precision. -/
def doubleDigits : Nat := 53

/-- The nearest number in double precision; the even one of two. -/
def roundToDouble (value : Nat) : Nat :=
  let surplus := Nat.log2 value + 1 - doubleDigits
  let unit := 1 <<< surplus
  let whole := value / unit
  let remainder := value % unit
  let isUp := unit < 2 * remainder || (unit == 2 * remainder && whole % 2 == 1)
  (if isUp then whole + 1 else whole) * unit

/-- The greatest power of ten in double precision. -/
def maximumExponent : Nat := 308

/-- The least number that rounds to infinity in double precision. -/
def overflowBound : Nat := (1 <<< 1024) - (1 <<< 970)

/-- Whether the number is finite when it is computed in double precision, as the product of its
significand and its power of ten.  One with a negative exponent always is. -/
def isFinite (number : JsonNumber) : Bool :=
  match number.exponent with
  | .negSucc _ => true
  | .ofNat exponent =>
      number.significand == 0 ||
        (exponent ≤ maximumExponent &&
          roundToDouble number.significand * roundToDouble (Nat.pow 10 exponent) < overflowBound)

/-- The natural number below `bound` that is written as such. -/
def natural? (bound : Nat) (number : JsonNumber) : Option Nat :=
  if number.isInteger && !number.isNegative && number.significand < bound then
    some number.significand
  else
    none

end JsonNumber

namespace Json

/-- The greatest depth of nested arrays and objects that is held. -/
def maximumDepth : Nat := 127

mutual

/-- Whether a value is sound at a place where `depth` more arrays and objects may be nested. -/
def isSoundWithin : (depth : Nat) → Json → Bool
  | _, null => true
  | _, boolean _ => true
  | _, number value => value.isFinite
  | _, text value => value.isSome
  | 0, array _ => false
  | 0, object _ => false
  | depth + 1, array items => areSoundWithin depth items
  | depth + 1, object members => membersAreSoundWithin depth members

def areSoundWithin : (depth : Nat) → List Json → Bool
  | _, [] => true
  | depth, item :: items => isSoundWithin depth item && areSoundWithin depth items

def membersAreSoundWithin : (depth : Nat) → List (Option String × Json) → Bool
  | _, [] => true
  | depth, (key, value) :: members =>
      key.isSome && isSoundWithin depth value && membersAreSoundWithin depth members

end

def isSound (value : Json) : Bool :=
  isSoundWithin maximumDepth value

def text? : Json → Option String
  | text value => value
  | _ => none

def boolean? : Json → Option Bool
  | boolean value => some value
  | _ => none

/-- The natural number below `bound` that a value is. -/
def natural? (bound : Nat) : Json → Option Nat
  | number value => value.natural? bound
  | _ => none

def word32? (value : Json) : Option UInt32 :=
  (value.natural? UInt32.size).map UInt32.ofNat

def word64? (value : Json) : Option UInt64 :=
  (value.natural? UInt64.size).map UInt64.ofNat

def ofNat (value : Nat) : Json :=
  number ⟨false, value, 0, true⟩

def ofString (value : String) : Json :=
  text (some value)

def record (members : List (String × Json)) : Json :=
  object (members.map fun (key, value) => (some key, value))

end Json
end GameArchive
