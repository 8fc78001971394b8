/-!
# Shortest decimals of binary fractions

A finite double is `m · 2 ^ q`, and the reals that round to it form an interval around it. The
shortest decimal of the double is the one with the fewest digits inside that interval and, among
those, the nearest to the double. For each count of digits only the two neighbours of the double
on the decimal grid have to be tried: if any point of the grid lies in the interval, one of them
does.
-/

set_option autoImplicit false

namespace VmHandler.Decimal

/-! ## Binary fractions -/

/-- The value `mantissa · 2 ^ exponent`. -/
structure Binary where
  /-- The integer factor. -/
  mantissa : Nat
  /-- The power of two. -/
  exponent : Int
  /-- Whether the gap to the next smaller double is half the gap to the next larger one. -/
  narrowBelow : Bool
  deriving DecidableEq, Repr

/-- The magnitude of a finite double, read off its sixty-four bits. -/
def Binary.ofBits (bits : UInt64) : Binary :=
  let fraction := (bits &&& 0xFFFFFFFFFFFFF).toNat
  let biased := ((bits >>> 52) &&& 0x7FF).toNat
  if biased = 0 then ⟨fraction, -1074, false⟩
  else ⟨fraction + 0x10000000000000, (biased : Int) - 1075, fraction = 0 && 1 < biased⟩

/-! ## The interval of rounding

All bounds are counted in quarters of the last binary place, so that they are integers. -/

/-- A closed or open interval of fractions with a common denominator, and the point it belongs
to. -/
structure Rounding where
  low : Nat
  /-- The double itself. -/
  point : Nat
  high : Nat
  /-- The common denominator. -/
  scale : Nat
  /-- Whether the bounds themselves round to the point. -/
  closed : Bool
  deriving DecidableEq, Repr

/-- The reals that round to a binary fraction; a bound does so if the mantissa is even. -/
def Rounding.ofBinary (b : Binary) : Rounding :=
  let up := Nat.pow 2 b.exponent.toNat
  let down := Nat.pow 2 (-b.exponent).toNat
  let point := 4 * b.mantissa
  { low := (point - if b.narrowBelow then 1 else 2) * up
    point := point * up
    high := (point + 2) * up
    scale := 4 * down
    closed := b.mantissa % 2 = 0 }

/-- Whether the fraction `num / den` lies in the interval. -/
def Rounding.contains (r : Rounding) (num den : Nat) : Bool :=
  let x := num * r.scale
  if r.closed then r.low * den ≤ x && x ≤ r.high * den
  else r.low * den < x && x < r.high * den

/-! ## Decimals -/

/-- The value `digits · 10 ^ exponent`. -/
structure Figures where
  /-- The digits, read as one integer. -/
  digits : Nat
  /-- The power of ten. -/
  exponent : Int
  deriving DecidableEq, Repr

/-- How often `num / den`, below one, is to be multiplied by ten to reach one; at most `fuel`. -/
def leadingZeros : Nat → Nat → Nat → Nat
  | 0, _, _ => 0
  | fuel + 1, num, den => if den ≤ num then 0 else leadingZeros fuel (num * 10) den + 1

/-- The exponent of the leading digit of a positive fraction. -/
def leadingExponent (num den : Nat) : Int :=
  if den ≤ num then ((Nat.toDigits 10 (num / den)).length : Int) - 1
  else -(leadingZeros 400 num den : Int)

/-- The fraction `digits · 10 ^ exponent` as a numerator and a denominator. -/
def Figures.fraction (d : Figures) : Nat × Nat :=
  (d.digits * Nat.pow 10 d.exponent.toNat, Nat.pow 10 (-d.exponent).toNat)

/-- The neighbours of the point on the grid of the multiples of `10 ^ exponent` that lie in the
interval; of two the nearer one, and of two equally near ones the even one. -/
def Rounding.onGrid? (r : Rounding) (exponent : Int) : Option Figures :=
  let up := Nat.pow 10 exponent.toNat
  let down := Nat.pow 10 (-exponent).toNat
  let num := r.point * down
  let den := r.scale * up
  let below := num / den
  let rest := num % den
  let lower : Figures := ⟨below, exponent⟩
  let upper : Figures := ⟨below + 1, exponent⟩
  let inside (d : Figures) : Bool := r.contains d.fraction.1 d.fraction.2
  match inside lower, inside upper with
  | false, false => none
  | true, false => some lower
  | false, true => some upper
  | true, true =>
      if 2 * rest < den then some lower
      else if den < 2 * rest then some upper
      else if below % 2 = 0 then some lower
      else some upper

/-- The first grid of at most `fuel` more digits that has a point in the interval. -/
def Rounding.search (r : Rounding) : Nat → Int → Figures
  | 0, exponent =>
      ⟨r.point * Nat.pow 10 (-exponent).toNat / (r.scale * Nat.pow 10 exponent.toNat), exponent⟩
  | fuel + 1, exponent =>
      match r.onGrid? exponent with
      | some d => d
      | none => Rounding.search r fuel (exponent - 1)

/-- The shortest decimal of a positive binary fraction; seventeen digits always suffice. -/
def shortest (b : Binary) : Figures :=
  let r := Rounding.ofBinary b
  r.search 17 (leadingExponent r.point r.scale)

/-! ## Text -/

/-- The digits of a decimal without the zeros at its end, and the exponent of the first one. -/
def Figures.significant (d : Figures) : List Char × Int :=
  let digits := Nat.toDigits 10 d.digits
  ((digits.reverse.dropWhile (· = '0')).reverse, d.exponent + digits.length - 1)

/-- Which exponents of the first digit are written without an exponent. -/
structure Layout where
  /-- The least such exponent. -/
  least : Int
  /-- The greatest such exponent. -/
  greatest : Int
  deriving DecidableEq, Repr

/-- Digits with a point before the place of `10 ^ -1`; at least one digit on either side of it. -/
def positional (digits : List Char) (exponent : Int) : List Char :=
  if exponent < 0 then
    ['0', '.'] ++ List.replicate (-exponent - 1).toNat '0' ++ digits
  else
    let whole := exponent.toNat + 1
    let tail := digits.drop whole
    digits.take whole ++ List.replicate (whole - digits.length) '0' ++ ['.']
      ++ if tail.isEmpty then ['0'] else tail

/-- One digit, a point before any further ones, and the exponent with its sign. -/
def scientific (digits : List Char) (exponent : Int) : List Char :=
  digits.take 1 ++ (if digits.length ≤ 1 then [] else '.' :: digits.drop 1)
    ++ ['e', if exponent < 0 then '-' else '+'] ++ Nat.toDigits 10 exponent.natAbs

/-- The text of a finite double by its shortest decimal; zero keeps its sign. -/
def Layout.text (layout : Layout) (x : Float) : String :=
  let bits := x.toBits
  let b := Binary.ofBits bits
  let sign := if bits >>> 63 = 1 then ['-'] else []
  if b.mantissa = 0 then String.ofList (sign ++ ['0', '.', '0'])
  else
    let (digits, exponent) := (shortest b).significant
    if layout.least ≤ exponent ∧ exponent ≤ layout.greatest then
      String.ofList (sign ++ positional digits exponent)
    else String.ofList (sign ++ scientific digits exponent)

end VmHandler.Decimal
