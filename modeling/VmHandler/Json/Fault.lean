import VmHandler.Decimal.Shortest
import VmHandler.Json.Position
import VmHandler.Text.Quoted

/-!
# Why a text cannot be read

Reading goes from left to right and ends at the first fault: one of the notation, where the text is
no value at all, or one of the content, where a value is not the one that is wanted.
-/

set_option autoImplicit false

namespace VmHandler.Json

/-- What was found in place of a wanted value. -/
inductive Unexpected where
  | null
  | boolean (b : Bool)
  /-- an integer that fits into a word of sixty-four bits -/
  | integer (n : Int)
  /-- any other number -/
  | real (x : Float)
  | text (s : String)
  /-- a list, which is not read further -/
  | list
  /-- an object, which is not read further -/
  | object
  deriving DecidableEq, Repr

/-- Numbers in diagnostics have an exponent below `1e-5` and from `1e16` on. -/
def layout : Decimal.Layout := ⟨-5, 15⟩

/-- How diagnostics call what was found. -/
def Unexpected.message : Unexpected → String
  | null => "null"
  | boolean b => s!"boolean `{b}`"
  | integer n => s!"integer `{n}`"
  | real x => s!"floating point `{layout.text x}`"
  | text s => s!"string {Text.quoted s}"
  | list => "sequence"
  | object => "map"

/-- The first fault of a text. -/
inductive Fault where
  /-- the text ends inside a list -/
  | endInList
  /-- the text ends inside an object -/
  | endInObject
  /-- the text ends inside a quoted text -/
  | endInText
  /-- the text ends where a value begins or goes on -/
  | endInValue
  /-- no colon follows a key -/
  | colonWanted
  /-- neither a comma nor the end of the list follows an element -/
  | listEndWanted
  /-- neither a comma nor the end of the object follows an entry -/
  | objectEndWanted
  /-- a word begins like a keyword but is none -/
  | keywordWanted
  /-- no value begins here -/
  | valueWanted
  /-- a key is not a quoted text -/
  | keyWanted
  /-- a comma stands before a closing bracket -/
  | trailingComma
  /-- something follows the last value -/
  | trailingText
  /-- a backslash begins no escape -/
  | badEscape
  /-- a number is not written as one -/
  | badNumber
  /-- a number has no finite double -/
  | numberTooLarge
  /-- the bytes of a quoted text are not valid UTF-8 -/
  | badUtf8
  /-- a control character stands in a quoted text -/
  | controlCharacter
  /-- half of a surrogate pair stands alone -/
  | loneSurrogate
  /-- no escape follows the first half of a surrogate pair -/
  | halfSurrogate
  /-- too many brackets are open -/
  | tooDeep
  /-- a value is not of the wanted kind -/
  | wrongType (found : Unexpected) (wanted : String)
  /-- an integer is not in the wanted range -/
  | wrongValue (found : Int) (wanted : String)
  /-- a list of fields ends before a field that has to be present -/
  | tooShort (length : Nat) (wanted : String)
  /-- a name is none of the known ones -/
  | unknownName (name : String) (known : List String)
  /-- an object lacks a field that has to be present -/
  | missingField (key : String)
  /-- an object has a field twice -/
  | repeatedField (key : String)
  /-- an integer is no token -/
  | tokenOutOfRange (n : Int)
  /-- a text is no token -/
  | tokenUnreadable (s : String)
  deriving DecidableEq, Repr

/-- What the fault says. A text that is no token is repeated without a position at its end. -/
def Fault.message : Fault → String
  | endInList => "EOF while parsing a list"
  | endInObject => "EOF while parsing an object"
  | endInText => "EOF while parsing a string"
  | endInValue => "EOF while parsing a value"
  | colonWanted => "expected `:`"
  | listEndWanted => "expected `,` or `]`"
  | objectEndWanted => "expected `,` or `\x7d`"
  | keywordWanted => "expected ident"
  | valueWanted => "expected value"
  | keyWanted => "key must be a string"
  | trailingComma => "trailing comma"
  | trailingText => "trailing characters"
  | badEscape => "invalid escape"
  | badNumber => "invalid number"
  | numberTooLarge => "number out of range"
  | badUtf8 => "invalid unicode code point"
  | controlCharacter => "control character (\\u0000-\\u001F) found while parsing a string"
  | loneSurrogate => "lone leading surrogate in hex escape"
  | halfSurrogate => "unexpected end of hex escape"
  | tooDeep => "recursion limit exceeded"
  | wrongType found wanted => s!"invalid type: {found.message}, expected {wanted}"
  | wrongValue found wanted => s!"invalid value: integer `{found}`, expected {wanted}"
  | tooShort length wanted => s!"invalid length {length}, expected {wanted}"
  | unknownName name known =>
      s!"unknown variant `{name}`, expected one of "
        ++ ", ".intercalate (known.map fun k => s!"`{k}`")
  | missingField key => s!"missing field `{key}`"
  | repeatedField key => s!"duplicate field `{key}`"
  | tokenOutOfRange n => s!"token out of range: {n}"
  | tokenUnreadable s => withoutPosition s!"invalid token: {s}"

end VmHandler.Json
