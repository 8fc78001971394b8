import VmHandler.Json.Fault
import VmHandler.Text.Characters

/-!
# Texts as octets

A text is read as the octets of its encoding, so that one whose encoding is broken can be read up
to the place where it breaks. A step takes what it reads off the front and hands back the rest.
-/

set_option autoImplicit false

namespace VmHandler.Json

/-- The encoding of a text. -/
abbrev Octets := List UInt8

/-- The UTF-8 encoding of a text. -/
def octets (s : String) : Octets := s.toUTF8.data.toList

/-- A reader of a part of a text, which returns what it read and the rest. -/
abbrev Step (α : Type) := Octets → Except Fault (α × Octets)

/-- The octet of an ASCII character. -/
abbrev octet (c : Char) : UInt8 := UInt8.ofNat c.toNat

/-! ## Blanks -/

/-- The four octets that may stand between values. -/
def isBlank (b : UInt8) : Bool :=
  b = octet ' ' || b = octet '\t' || b = octet '\n' || b = octet '\r'

/-- The text without the blanks it begins with. -/
def skipBlanks (bs : Octets) : Octets := bs.dropWhile isBlank

/-! ## Digits -/

/-- Whether an octet is a decimal digit. -/
def isDigit (b : UInt8) : Bool := octet '0' ≤ b && b ≤ octet '9'

/-- The value of a decimal digit. -/
def digit (b : UInt8) : Nat := b.toNat - 48

/-- The value of a hexadecimal digit. -/
def hexDigit? (b : UInt8) : Option Nat := Text.hexValue? (Char.ofNat b.toNat)

/-! ## Keywords -/

/-- The text behind the given letters, which it has to begin with. -/
def keyword : List Char → Octets → Except Fault Octets
  | [], bs => .ok bs
  | _ :: _, [] => .error .endInValue
  | k :: ks, b :: bs => if b = octet k then keyword ks bs else .error .keywordWanted

end VmHandler.Json
