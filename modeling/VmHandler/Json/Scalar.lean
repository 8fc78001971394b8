import VmHandler.Json.Number
import VmHandler.Json.QuotedText

/-!
# Values of any kind

Where one kind of value is wanted, a value of another kind is a fault that names it. A scalar is
read to its end before it is named, so a fault inside it comes first; a list or an object is named
by its bracket.
-/

set_option autoImplicit false

namespace VmHandler.Json

/-- A number as something found. -/
def Number.found : Number → Unexpected
  | natural n => .integer n
  | negative n => .integer (-(n : Int))
  | real x => .real x

/-- What a text begins with, which is a scalar in full or the bracket of a list or an object, and
the rest behind the scalar. -/
def readAny : Step Unexpected
  | [] => .error .endInValue
  | b :: rest =>
      if b = octet 'n' then
        match keyword ['u', 'l', 'l'] rest with
        | .error f => .error f
        | .ok rest => .ok (.null, rest)
      else if b = octet 't' then
        match keyword ['r', 'u', 'e'] rest with
        | .error f => .error f
        | .ok rest => .ok (.boolean true, rest)
      else if b = octet 'f' then
        match keyword ['a', 'l', 's', 'e'] rest with
        | .error f => .error f
        | .ok rest => .ok (.boolean false, rest)
      else if b = octet '"' then
        match readQuoted rest with
        | .error f => .error f
        | .ok (s, rest) => .ok (.text s, rest)
      else if beginsNumber b then
        match readNumber (b :: rest) with
        | .error f => .error f
        | .ok (n, rest) => .ok (n.found, rest)
      else if b = octet '[' then .ok (.list, b :: rest)
      else if b = octet '\x7b' then .ok (.object, b :: rest)
      else .error .valueWanted

/-- The fault of a text that does not begin with what is wanted. -/
def misfit (wanted : String) (bs : Octets) : Fault :=
  match readAny bs with
  | .error f => f
  | .ok (found, _) => .wrongType found wanted

/-- Reads a text. -/
def readText : Step String := fun bs =>
  match skipBlanks bs with
  | [] => .error .endInValue
  | b :: rest =>
      if b = octet '"' then readQuoted rest
      else .error (misfit "a string" (b :: rest))

/-- Reads the value `null`. -/
def readNull : Step Unit := fun bs =>
  match skipBlanks bs with
  | [] => .error .endInValue
  | b :: rest =>
      if b = octet 'n' then
        match keyword ['u', 'l', 'l'] rest with
        | .error f => .error f
        | .ok rest => .ok ((), rest)
      else .error (misfit "unit" (b :: rest))

/-- Reads an integer of a word of thirty-two bits without a sign. -/
def readWord : Step UInt32 := fun bs =>
  match skipBlanks bs with
  | [] => .error .endInValue
  | b :: rest =>
      if beginsNumber b then
        match readNumber (b :: rest) with
        | .error f => .error f
        | .ok (.natural n, rest) =>
            if n < UInt32.size then .ok (UInt32.ofNat n, rest) else .error (.wrongValue n "u32")
        | .ok (.negative n, _) => .error (.wrongValue (-(n : Int)) "u32")
        | .ok (.real x, _) => .error (.wrongType (.real x) "u32")
      else .error (misfit "u32" (b :: rest))

end VmHandler.Json
