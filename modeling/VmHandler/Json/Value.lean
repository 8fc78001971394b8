import VmHandler.Text.Characters

/-!
# Values that are written

The values that this library writes, in one line without blanks or over several lines. Both ways
write the same quoted texts: what has an escape letter is written with it, other controls by their
code point, and everything else as it is.
-/

set_option autoImplicit false

namespace VmHandler.Json

/-- A value that can be written. Entries of an object keep their order. -/
inductive Value where
  | null
  | natural (n : Nat)
  | text (s : String)
  | list (items : List Value)
  | object (entries : List (String × Value))
  deriving Repr

/-! ## Texts -/

/-- How one character is written inside quotes. -/
def writtenChar (c : Char) : List Char :=
  if c = '"' then ['\\', '"']
  else if c = '\\' then ['\\', '\\']
  else if c = '\x08' then ['\\', 'b']
  else if c = '\t' then ['\\', 't']
  else if c = '\n' then ['\\', 'n']
  else if c = '\x0c' then ['\\', 'f']
  else if c = '\r' then ['\\', 'r']
  else if c.toNat < 0x20 then '\\' :: 'u' :: Text.fixedHex 4 c.toNat
  else [c]

/-- A text inside quotes. -/
def writtenText (s : String) : List Char := '"' :: s.toList.flatMap writtenChar ++ ['"']

/-! ## In one line -/

mutual

/-- A value in one line. -/
def Value.compactChars : Value → List Char
  | .null => ['n', 'u', 'l', 'l']
  | .natural n => Nat.toDigits 10 n
  | .text s => writtenText s
  | .list items => '[' :: compactItems items ++ [']']
  | .object entries => '\x7b' :: compactEntries entries ++ ['\x7d']

/-- Elements with commas between them. -/
def compactItems : List Value → List Char
  | [] => []
  | [v] => v.compactChars
  | v :: w :: vs => v.compactChars ++ ',' :: compactItems (w :: vs)

/-- Entries with commas between them. -/
def compactEntries : List (String × Value) → List Char
  | [] => []
  | [(k, v)] => writtenText k ++ ':' :: v.compactChars
  | (k, v) :: e :: es => writtenText k ++ ':' :: v.compactChars ++ ',' :: compactEntries (e :: es)

end

/-- A value in one line. -/
def Value.compact (v : Value) : String := String.ofList v.compactChars

/-! ## Over several lines -/

/-- The beginning of a line at a depth: two blanks for each open bracket. -/
def newLine (depth : Nat) : List Char := '\n' :: List.replicate (2 * depth) ' '

mutual

/-- A value inside `depth` brackets, with each element and entry on a line of its own. -/
def Value.prettyChars (depth : Nat) : Value → List Char
  | .null => ['n', 'u', 'l', 'l']
  | .natural n => Nat.toDigits 10 n
  | .text s => writtenText s
  | .list [] => ['[', ']']
  | .list (v :: vs) => '[' :: prettyItems (depth + 1) (v :: vs) ++ newLine depth ++ [']']
  | .object [] => ['\x7b', '\x7d']
  | .object (e :: es) =>
      '\x7b' :: prettyEntries (depth + 1) (e :: es) ++ newLine depth ++ ['\x7d']

/-- Elements, each on a line. -/
def prettyItems (depth : Nat) : List Value → List Char
  | [] => []
  | [v] => newLine depth ++ v.prettyChars depth
  | v :: w :: vs => newLine depth ++ v.prettyChars depth ++ ',' :: prettyItems depth (w :: vs)

/-- Entries, each on a line. -/
def prettyEntries (depth : Nat) : List (String × Value) → List Char
  | [] => []
  | [(k, v)] => newLine depth ++ writtenText k ++ [':', ' '] ++ v.prettyChars depth
  | (k, v) :: e :: es =>
      newLine depth ++ writtenText k ++ [':', ' '] ++ v.prettyChars depth
        ++ ',' :: prettyEntries depth (e :: es)

end

/-- A value over several lines. -/
def Value.pretty (v : Value) : String := String.ofList (v.prettyChars 0)

end VmHandler.Json
