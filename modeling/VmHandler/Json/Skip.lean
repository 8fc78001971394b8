import VmHandler.Json.Octets

/-!
# Values that are skipped

The value of a key that nobody asks for is only followed to its end. A machine takes it octet by
octet and remembers the brackets that are open, of which there may be any number. It judges less
than a reader does: escapes have to be well formed but need not stand for characters, and numbers
have no size.
-/

set_option autoImplicit false

namespace VmHandler.Json.Skip

/-- An open bracket. -/
inductive Bracket where
  | list
  | object
  deriving DecidableEq, Repr

/-- How far a number has been read. -/
inductive Part where
  /-- behind the sign -/
  | sign
  /-- behind a zero in front -/
  | zero
  /-- in the integer -/
  | whole
  /-- behind the point -/
  | point
  /-- in the fraction -/
  | fraction
  /-- behind the mark of the exponent -/
  | mark
  /-- behind the sign of the exponent -/
  | markSign
  /-- in the exponent -/
  | exponent
  deriving DecidableEq, Repr

/-- What the machine waits for. -/
inductive Phase where
  /-- a value -/
  | value
  /-- the first element of a list, or its end -/
  | firstElement
  /-- the first key of an object, or its end -/
  | firstKey
  /-- a key -/
  | key
  /-- the colon behind a key -/
  | colon
  /-- a comma, or the end of the innermost bracket -/
  | comma
  /-- the rest of a quoted text, which may be a key -/
  | text (isKey : Bool)
  /-- the letter of an escape -/
  | escape (isKey : Bool)
  /-- hexadecimal digits of an escape: how many, and whether all so far were digits -/
  | hex (isKey : Bool) (left : Nat) (good : Bool)
  /-- the letters of a keyword -/
  | keyword (letter : Char) (letters : List Char)
  /-- the rest of a number -/
  | number (part : Part)
  deriving DecidableEq, Repr

/-- The machine: what it waits for and which brackets are open, innermost first. -/
structure State where
  /-- What it waits for. -/
  phase : Phase
  opened : List Bracket
  deriving DecidableEq, Repr

/-- What an octet does. -/
inductive Move where
  /-- it belongs to the value, and the value goes on -/
  | next (s : State)
  /-- it is the last one of the value -/
  | last
  /-- the value has ended before it -/
  | past
  deriving DecidableEq, Repr

/-- The machine goes on inside the given brackets. -/
def go (phase : Phase) (opened : List Bracket) : Except Fault Move :=
  .ok (.next ⟨phase, opened⟩)

/-- An octet that completes a value inside the open brackets. -/
def complete : List Bracket → Except Fault Move
  | [] => .ok .last
  | opened@(_ :: _) => go .comma opened

/-- An octet where a comma or the end of the innermost bracket is due. -/
def atComma (b : UInt8) : List Bracket → Except Fault Move
  | [] => .ok .past
  | .list :: outer =>
      if isBlank b then go .comma (.list :: outer)
      else if b = octet ',' then go .value (.list :: outer)
      else if b = octet ']' then complete outer
      else .error .listEndWanted
  | .object :: outer =>
      if isBlank b then go .comma (.object :: outer)
      else if b = octet ',' then go .key (.object :: outer)
      else if b = octet '\x7d' then complete outer
      else .error .objectEndWanted

/-- An octet where a value is due. -/
def atValue (b : UInt8) (opened : List Bracket) : Except Fault Move :=
  if isBlank b then go .value opened
  else if b = octet 'n' then go (.keyword 'u' ['l', 'l']) opened
  else if b = octet 't' then go (.keyword 'r' ['u', 'e']) opened
  else if b = octet 'f' then go (.keyword 'a' ['l', 's', 'e']) opened
  else if b = octet '-' then go (.number .sign) opened
  else if b = octet '0' then go (.number .zero) opened
  else if isDigit b then go (.number .whole) opened
  else if b = octet '"' then go (.text false) opened
  else if b = octet '[' then go .firstElement (.list :: opened)
  else if b = octet '\x7b' then go .firstKey (.object :: opened)
  else .error .valueWanted

/-- An octet where a key is due. -/
def atKey (b : UInt8) (opened : List Bracket) : Except Fault Move :=
  if isBlank b then go .key opened
  else if b = octet '"' then go (.text true) opened
  else .error .keyWanted

/-- An octet in a number. -/
def atNumber (b : UInt8) (opened : List Bracket) : Part → Except Fault Move
  | .sign =>
      if b = octet '0' then go (.number .zero) opened
      else if isDigit b then go (.number .whole) opened
      else .error .badNumber
  | .zero =>
      if isDigit b then .error .badNumber
      else if b = octet '.' then go (.number .point) opened
      else if b = octet 'e' || b = octet 'E' then go (.number .mark) opened
      else atComma b opened
  | .whole =>
      if isDigit b then go (.number .whole) opened
      else if b = octet '.' then go (.number .point) opened
      else if b = octet 'e' || b = octet 'E' then go (.number .mark) opened
      else atComma b opened
  | .point => if isDigit b then go (.number .fraction) opened else .error .badNumber
  | .fraction =>
      if isDigit b then go (.number .fraction) opened
      else if b = octet 'e' || b = octet 'E' then go (.number .mark) opened
      else atComma b opened
  | .mark =>
      if b = octet '+' || b = octet '-' then go (.number .markSign) opened
      else if isDigit b then go (.number .exponent) opened
      else .error .badNumber
  | .markSign => if isDigit b then go (.number .exponent) opened else .error .badNumber
  | .exponent => if isDigit b then go (.number .exponent) opened else atComma b opened

/-- Whether an octet is the letter of an escape without digits. -/
def isEscapeLetter (b : UInt8) : Bool :=
  b = octet '"' || b = octet '\\' || b = octet '/' || b = octet 'b' || b = octet 'f'
    || b = octet 'n' || b = octet 'r' || b = octet 't'

/-- What an octet does in a state. -/
def State.step (b : UInt8) : State → Except Fault Move
  | ⟨.value, opened⟩ => atValue b opened
  | ⟨.firstElement, opened⟩ =>
      if isBlank b then go .firstElement opened
      else if b = octet ']' then complete opened.tail
      else atValue b opened
  | ⟨.firstKey, opened⟩ =>
      if isBlank b then go .firstKey opened
      else if b = octet '\x7d' then complete opened.tail
      else atKey b opened
  | ⟨.key, opened⟩ => atKey b opened
  | ⟨.colon, opened⟩ =>
      if isBlank b then go .colon opened
      else if b = octet ':' then go .value opened
      else .error .colonWanted
  | ⟨.comma, opened⟩ => atComma b opened
  | ⟨.text isKey, opened⟩ =>
      if b = octet '"' then if isKey then go .colon opened else complete opened
      else if b = octet '\\' then go (.escape isKey) opened
      else if b < 0x20 then .error .controlCharacter
      else go (.text isKey) opened
  | ⟨.escape isKey, opened⟩ =>
      if isEscapeLetter b then go (.text isKey) opened
      else if b = octet 'u' then go (.hex isKey 3 true) opened
      else .error .badEscape
  | ⟨.hex isKey left good, opened⟩ =>
      let good := good && (hexDigit? b).isSome
      match left with
      | 0 => if good then go (.text isKey) opened else .error .badEscape
      | left + 1 => go (.hex isKey left good) opened
  | ⟨.keyword letter letters, opened⟩ =>
      if b = octet letter then
        match letters with
        | [] => complete opened
        | letter :: letters => go (.keyword letter letters) opened
      else .error .keywordWanted
  | ⟨.number part, opened⟩ => atNumber b opened part

/-- The end of the text where a comma or the end of the innermost bracket is due. -/
def endAtComma : List Bracket → Except Fault Octets
  | [] => .ok []
  | .list :: _ => .error .endInList
  | .object :: _ => .error .endInObject

/-- What the end of the text does in a state. -/
def State.finish : State → Except Fault Octets
  | ⟨.value, _⟩ => .error .endInValue
  | ⟨.firstElement, _⟩ => .error .endInList
  | ⟨.firstKey, _⟩ => .error .endInObject
  | ⟨.key, _⟩ => .error .endInObject
  | ⟨.colon, _⟩ => .error .endInObject
  | ⟨.comma, opened⟩ => endAtComma opened
  | ⟨.text _, _⟩ => .error .endInText
  | ⟨.escape _, _⟩ => .error .endInText
  | ⟨.hex _ _ _, _⟩ => .error .endInText
  | ⟨.keyword _ _, _⟩ => .error .endInValue
  | ⟨.number part, opened⟩ =>
      match part with
      | .zero | .whole | .fraction | .exponent => endAtComma opened
      | .sign | .point | .mark | .markSign => .error .badNumber

/-- The rest of the text behind the value that the machine is in. -/
def run : State → Octets → Except Fault Octets
  | s, [] => s.finish
  | s, b :: bs =>
      match s.step b with
      | .error f => .error f
      | .ok (.next s) => run s bs
      | .ok .last => .ok bs
      | .ok .past => .ok (b :: bs)

end VmHandler.Json.Skip

namespace VmHandler.Json

/-- The rest of the text behind the value it begins with. -/
def skipValue (bs : Octets) : Except Fault Octets := Skip.run ⟨.value, []⟩ bs

end VmHandler.Json
