import VmHandler.Text.Characters

/-!
# Positions at the end of a reason

A reason that ends in a position, as in ` at line 3 column 5`, has it taken off: the place of a
fault is no part of what it says. The two numbers are written with digits only and fit into words
of sixty-four bits.
-/

set_option autoImplicit false

namespace VmHandler.Json

/-- Whether digits stand for a number below `2 ^ 64`. -/
def isWordText (digits : List Char) : Bool :=
  match Text.natural? 10 digits with
  | some n => n < UInt64.size
  | none => false

/-- The text behind a beginning, which it has to have. -/
def behind? : List Char → List Char → Option (List Char)
  | [], cs => some cs
  | _ :: _, [] => none
  | k :: ks, c :: cs => if c = k then behind? ks cs else none

/-- Whether a text is a position and nothing else. -/
def isPosition (cs : List Char) : Bool :=
  match behind? [' ', 'a', 't', ' ', 'l', 'i', 'n', 'e', ' '] cs with
  | none => false
  | some rest =>
      let line := rest.takeWhile fun c => (Text.digitValue? 10 c).isSome
      match behind? [' ', 'c', 'o', 'l', 'u', 'm', 'n', ' '] (rest.drop line.length) with
      | none => false
      | some column => isWordText line && isWordText column

/-- The text without a position at its end. -/
def dropPosition : List Char → List Char
  | [] => []
  | c :: cs => if isPosition (c :: cs) then [] else c :: dropPosition cs

/-- The text without a position at its end. -/
def withoutPosition (s : String) : String := String.ofList (dropPosition s.toList)

end VmHandler.Json
