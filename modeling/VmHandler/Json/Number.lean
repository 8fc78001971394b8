import VmHandler.Json.Octets

/-!
# Numbers

A number is an integer if it is written without a point and an exponent and fits into a word of
sixty-four bits, unsigned without a sign and signed behind one. Minus zero and every other number
is a double. Its digits are collected in a word for as long as they fit, further ones only count
for the power of ten, and the word, as a double, is then multiplied or divided by that power.
-/

set_option autoImplicit false

namespace VmHandler.Json

/-- A number as it is read. -/
inductive Number where
  /-- an integer without a sign, below `2 ^ 64` -/
  | natural (n : Nat)
  /-- the integer `-n`, with `n` from one to `2 ^ 63` -/
  | negative (n : Nat)
  /-- any other number -/
  | real (x : Float)
  deriving Repr

/-! ## The double of a word and a power of ten -/

/-- Zero or the value given, with the sign. -/
def signed (positive : Bool) (x : Float) : Float := if positive then x else -x

/-- The power of ten as a double, for exponents of at most 308. -/
def tenTo (k : Nat) : Float := Float.ofScientific 1 false k

/-- Divides by `10 ^ k`, by at most `10 ^ 308` at a time; three times bring every word to zero. -/
def divideByTens : Nat → Float → Nat → Float
  | 0, x, _ => x
  | fuel + 1, x, k =>
      if k ≤ 308 then x / tenTo k
      else if x == 0 then x
      else divideByTens fuel (x / tenTo 308) (k - 308)

/-- The double of `word · 10 ^ exponent`, unless it is too large. -/
def scaled (positive : Bool) (word : Nat) (exponent : Int) : Except Fault Number :=
  let x := word.toUInt64.toFloat
  if exponent < 0 then .ok (.real (signed positive (divideByTens 4 x exponent.natAbs)))
  else if 308 < exponent then
    if x == 0 then .ok (.real (signed positive x)) else .error .numberTooLarge
  else
    let y := x * tenTo exponent.toNat
    if y.isInf then .error .numberTooLarge else .ok (.real (signed positive y))

/-! ## Runs of digits -/

/-- Appends to a word the digits in front for as long as the result fits into sixty-four bits;
returns the word, the number of digits and the rest. -/
def gather (word count : Nat) : Octets → Nat × Nat × Octets
  | [] => (word, count, [])
  | b :: bs =>
      if isDigit b && word * 10 + digit b < UInt64.size then
        gather (word * 10 + digit b) (count + 1) bs
      else (word, count, b :: bs)

/-- The number of digits in front, and the rest. -/
def countDigits (count : Nat) : Octets → Nat × Octets
  | [] => (count, [])
  | b :: bs => if isDigit b then countDigits (count + 1) bs else (count, b :: bs)

/-- The digits in front appended to an exponent, and whether it stays below `2 ^ 31`. -/
def gatherExponent (exponent : Nat) : Octets → Nat × Bool × Octets
  | [] => (exponent, true, [])
  | b :: bs =>
      if isDigit b then
        if exponent * 10 + digit b < 0x80000000 then gatherExponent (exponent * 10 + digit b) bs
        else (exponent, false, bs)
      else (exponent, true, b :: bs)

/-- Whether the text begins with an octet of a kind. -/
def startsWith (kind : UInt8 → Bool) : Octets → Bool
  | [] => false
  | b :: _ => kind b

/-- Whether an octet begins an exponent. -/
def isExponentMark (b : UInt8) : Bool := b = octet 'e' || b = octet 'E'

/-! ## The parts of a number -/

/-- The fault of a text that goes on with no digit where one is wanted. -/
def digitFault : Octets → Fault
  | [] => .endInValue
  | _ :: _ => .badNumber

/-- The exponent behind its mark, for a word that counts `10 ^ scale`. -/
def readExponent (positive : Bool) (word : Nat) (scale : Int) (bs : Octets) :
    Except Fault (Number × Octets) :=
  let (up, bs) :=
    match bs with
    | [] => (true, [])
    | b :: rest =>
        if b = octet '+' then (true, rest)
        else if b = octet '-' then (false, rest)
        else (true, b :: rest)
  if startsWith isDigit bs then
    match gatherExponent 0 bs with
    | (exponent, true, rest) =>
        let exponent : Int := if up then exponent else -exponent
        match scaled positive word (scale + exponent) with
        | .error f => .error f
        | .ok n => .ok (n, rest)
    | (_, false, rest) =>
        if word ≠ 0 ∧ up then .error .numberTooLarge
        else .ok (.real (signed positive 0), (countDigits 0 rest).2)
  else .error (digitFault bs)

/-- What may follow the digits of a fraction. -/
def afterFraction (positive : Bool) (word : Nat) (scale : Int) (bs : Octets) :
    Except Fault (Number × Octets) :=
  if startsWith isExponentMark bs then readExponent positive word scale bs.tail
  else
    match scaled positive word scale with
    | .error f => .error f
    | .ok n => .ok (n, bs)

/-- The fraction behind its point, for a word that counts `10 ^ scale`. -/
def readFraction (positive : Bool) (word : Nat) (scale : Int) (bs : Octets) :
    Except Fault (Number × Octets) :=
  let (word, count, rest) := gather word 0 bs
  if startsWith isDigit rest then
    afterFraction positive word (scale - count) (countDigits 0 rest).2
  else if count = 0 then .error (digitFault rest)
  else afterFraction positive word (scale - count) rest

/-- The integer of a word without a fraction and an exponent. -/
def integer (positive : Bool) (word : Nat) : Number :=
  if positive then .natural word
  else if word = 0 ∨ 0x8000000000000000 < word then .real (-word.toUInt64.toFloat)
  else .negative word

/-- What may follow an integer part of a word and `dropped` further digits. -/
def afterInteger (positive : Bool) (word dropped : Nat) (bs : Octets) :
    Except Fault (Number × Octets) :=
  match bs with
  | [] =>
      if dropped = 0 then .ok (integer positive word, [])
      else afterFraction positive word dropped []
  | b :: rest =>
      if b = octet '.' then readFraction positive word dropped rest
      else if isExponentMark b then readExponent positive word dropped rest
      else if dropped = 0 then .ok (integer positive word, b :: rest)
      else afterFraction positive word dropped (b :: rest)

/-- A number without its sign; a zero in front stands alone. -/
def readMagnitude (positive : Bool) (bs : Octets) : Except Fault (Number × Octets) :=
  match bs with
  | [] => .error .endInValue
  | b :: rest =>
      if b = octet '0' then
        if startsWith isDigit rest then .error .badNumber
        else afterInteger positive 0 0 rest
      else if isDigit b then
        let (word, _, rest) := gather 0 0 (b :: rest)
        let (dropped, rest) := countDigits 0 rest
        afterInteger positive word dropped rest
      else .error .badNumber

/-- A number that begins with a minus sign or a digit. -/
def readNumber (bs : Octets) : Except Fault (Number × Octets) :=
  match bs with
  | [] => .error .endInValue
  | b :: rest =>
      if b = octet '-' then readMagnitude false rest else readMagnitude true (b :: rest)

/-- Whether an octet begins a number. -/
def beginsNumber (b : UInt8) : Bool := b = octet '-' || isDigit b

end VmHandler.Json
