import VmHandler.Text.Characters

/-!
# Metadata tokens

A token names a row of a metadata table: the high byte is the table, the other three are the row.
The token zero names nothing. A token is written as `0x` and eight lower-case hexadecimal digits,
and read in a more liberal way: blanks around it, either case, hexadecimal behind `0x` and decimal
otherwise, one plus sign and any number of leading zeros.
-/

set_option autoImplicit false

namespace VmHandler

/-- A metadata token, a word of thirty-two bits. -/
structure Token where
  value : UInt32
  deriving DecidableEq, Repr, Inhabited

namespace Token

/-- The metadata table that the token points into. -/
def table (t : Token) : Nat := t.value.toNat / 0x1000000

/-- The row of that table. -/
def row (t : Token) : Nat := t.value.toNat % 0x1000000

/-- Whether the token names nothing. -/
def isNull (t : Token) : Bool := t.value = 0

/-- Tokens are ordered by their words. -/
instance : Ord Token where
  compare a b := compare a.value b.value

instance : Std.TransOrd Token :=
  inferInstanceAs (Std.TransCmp (compareOn Token.value))

instance : Std.LawfulEqOrd Token where
  compare_self := Std.ReflOrd.compare_self (α := UInt32)
  eq_of_compare {a b} h := by
    cases a
    cases b
    exact congrArg Token.mk (Std.LawfulEqOrd.eq_of_compare (α := UInt32) h)

/-- The token of a number that fits into its word. -/
def ofNat? (n : Nat) : Option Token :=
  if n < UInt32.size then some ⟨UInt32.ofNat n⟩ else none

/-! ## Text -/

/-- The written form: `0x` and eight lower-case hexadecimal digits. -/
def chars (t : Token) : List Char :=
  '0' :: 'x' :: Text.fixedHex 8 t.value.toNat

/-- The written form. -/
def text (t : Token) : String := String.ofList t.chars

instance : ToString Token := ⟨text⟩

/-- The token with its parts, as diagnostics show it. -/
def detail (t : Token) : String :=
  s!"Token({t.text}, table: 0x{String.ofList (Text.fixedHex 2 t.table)}, row: {t.row})"

/-- The number a digit text of a base stands for, behind at most one plus sign. -/
def signed? (base : Nat) : List Char → Option Nat
  | '+' :: cs => Text.natural? base cs
  | cs => Text.natural? base cs

/-- The number of a text without blanks around it: hexadecimal behind `0x` or `0X`, else decimal. -/
def number? : List Char → Option Nat
  | '0' :: 'x' :: cs => signed? 16 cs
  | '0' :: 'X' :: cs => signed? 16 cs
  | cs => signed? 10 cs

/-- The token a text stands for; blanks around it do not count. -/
def parse? (s : String) : Option Token :=
  match number? (Text.strip s.toList) with
  | some n => ofNat? n
  | none => none

end Token

end VmHandler
