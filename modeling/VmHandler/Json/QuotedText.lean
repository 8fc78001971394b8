import VmHandler.Json.Octets

/-!
# Quoted texts

What stands between two double quotes: octets as they are, controls excepted, and escapes. A
character beyond the first plane is escaped as two halves, of which neither may stand alone. That
the octets form valid UTF-8 is judged at the closing quote.
-/

set_option autoImplicit false

namespace VmHandler.Json

/-- The octet that a letter behind a backslash stands for. -/
def escaped? (b : UInt8) : Option UInt8 :=
  if b = octet '"' then some (octet '"')
  else if b = octet '\\' then some (octet '\\')
  else if b = octet '/' then some (octet '/')
  else if b = octet 'b' then some 0x08
  else if b = octet 'f' then some 0x0C
  else if b = octet 'n' then some (octet '\n')
  else if b = octet 'r' then some (octet '\r')
  else if b = octet 't' then some (octet '\t')
  else none

/-- The number of four hexadecimal digits. -/
def hexFour? (a b c d : UInt8) : Option Nat :=
  match hexDigit? a, hexDigit? b, hexDigit? c, hexDigit? d with
  | some a, some b, some c, some d => some (((a * 16 + b) * 16 + c) * 16 + d)
  | _, _, _, _ => none

/-- Reads four hexadecimal digits. -/
def readHexFour : Step Nat
  | a :: b :: c :: d :: rest =>
      match hexFour? a b c d with
      | some n => .ok (n, rest)
      | none => .error .badEscape
  | _ => .error .endInText

/-- Whether a number is the first half of a pair. -/
def isHighHalf (n : Nat) : Bool := 0xD800 ≤ n && n ≤ 0xDBFF

/-- Whether a number is the second half of a pair. -/
def isLowHalf (n : Nat) : Bool := 0xDC00 ≤ n && n ≤ 0xDFFF

/-- Reads the second half of a pair, which is an escape of its own, and returns the code point. -/
def readSecondHalf (high : Nat) : Step Nat
  | [] => .error .endInText
  | b :: rest =>
      if b = octet '\\' then
        match rest with
        | [] => .error .endInText
        | u :: rest =>
            if u = octet 'u' then
              match readHexFour rest with
              | .error f => .error f
              | .ok (low, rest) =>
                  if isLowHalf low then
                    .ok ((high - 0xD800) * 0x400 + (low - 0xDC00) + 0x10000, rest)
                  else .error .loneSurrogate
            else .error .halfSurrogate
      else .error .halfSurrogate

/-- Reads the code point of an escape with hexadecimal digits. -/
def readCodePoint : Step Nat := fun bs =>
  match readHexFour bs with
  | .error f => .error f
  | .ok (n, rest) =>
      if isLowHalf n then .error .loneSurrogate
      else if isHighHalf n then readSecondHalf n rest
      else .ok (n, rest)

/-- Reads what follows a backslash and returns the octets it stands for. -/
def readEscape : Step Octets
  | [] => .error .endInText
  | b :: rest =>
      match escaped? b with
      | some c => .ok ([c], rest)
      | none =>
          if b = octet 'u' then
            match readCodePoint rest with
            | .error f => .error f
            | .ok (n, rest) => .ok (String.utf8EncodeChar (Char.ofNat n), rest)
          else .error .badEscape

/-- The text that octets encode. -/
def decode? (bs : Octets) : Option String := String.fromUTF8? ⟨bs.toArray⟩

/-- Reads up to the closing quote. The octets read so far are `done`, last one first; the first
list is at least as long as the text and only bounds the number of rounds. -/
def readTextFrom : Octets → Octets → Step String
  | [], _, _ => .error .endInText
  | _ :: _, _, [] => .error .endInText
  | _ :: bound, done, b :: rest =>
      if b = octet '"' then
        match decode? done.reverse with
        | some s => .ok (s, rest)
        | none => .error .badUtf8
      else if b = octet '\\' then
        match readEscape rest with
        | .error f => .error f
        | .ok (cs, rest) => readTextFrom bound (cs.reverse ++ done) rest
      else if b < 0x20 then .error .controlCharacter
      else readTextFrom bound (b :: done) rest

/-- Reads a quoted text behind its opening quote. -/
def readQuoted : Step String := fun bs => readTextFrom bs [] bs

end VmHandler.Json
