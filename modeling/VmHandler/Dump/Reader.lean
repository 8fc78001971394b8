import VmHandler.Forest
import VmHandler.Json.Sequence

/-!
# Reading dumps

A dump is the written form of a module: its name and its types, before anybody has looked at the
tokens. Dumps, types and methods are records. Only tokens have to be present; every other field has
a default. A token is an integer or a text that stands for one, and an element class is a name or an
object whose only entry has that name for its key and `null` for its value.

At most `maxBrackets` brackets may be open at once. Each reader is told how many more it may open,
and what stands inside a bracket may open one less; values of unknown keys are not counted.
-/

set_option autoImplicit false

namespace VmHandler

open VmHandler.Json

/-- A name and a forest of types. -/
structure Dump where
  name : String := ""
  /-- The types that are not nested in others. -/
  types : Forest := []
  deriving Repr

namespace Dump

/-- How many brackets may be open at once. -/
def maxBrackets : Nat := 127

/-- A reader of what stands inside a bracket, where one may still be opened. -/
def inside {β : Type} (reader : Nat → β) : Nat → Option β
  | 0 => none
  | brackets + 1 => some (reader brackets)

/-! ## Tokens and element classes -/

/-- The token of something found. -/
def tokenOf : Unexpected → Except Fault Token
  | .integer n =>
      match n with
      | .ofNat k =>
          match Token.ofNat? k with
          | some t => .ok t
          | none => .error (.tokenOutOfRange n)
      | .negSucc _ => .error (.tokenOutOfRange n)
  | .text s =>
      match Token.parse? s with
      | some t => .ok t
      | none => .error (.tokenUnreadable s)
  | found => .error (.wrongType found "a metadata token as integer or hex string")

/-- Reads a token. -/
def readToken (brackets : Nat) : Step Token := fun bs =>
  match skipBlanks bs with
  | [] => .error .endInValue
  | b :: rest =>
      if (b = octet '[' || b = octet '\x7b') && brackets = 0 then .error .tooDeep
      else
        match readAny (b :: rest) with
        | .error f => .error f
        | .ok (found, rest) =>
            match tokenOf found with
            | .error f => .error f
            | .ok t => .ok (t, rest)

/-- The element class of a name. -/
def classOf (name : String) : Except Fault ElementClass :=
  match ElementClass.ofName? name with
  | some c => .ok c
  | none => .error (.unknownName name (ElementClass.all.map ElementClass.name))

/-- Reads the name of an element class behind its opening quote. -/
def readClassName : Step ElementClass := fun bs =>
  match readQuoted bs with
  | .error f => .error f
  | .ok (name, rest) =>
      match classOf name with
      | .error f => .error f
      | .ok c => .ok (c, rest)

/-- Reads an object that names an element class, behind its opening bracket. -/
def readClassEntry : Step ElementClass := fun bs =>
  match skipBlanks bs with
  | [] => .error .endInObject
  | b :: rest =>
      if b = octet '"' then
        match readClassName rest with
        | .error f => .error f
        | .ok (c, rest) =>
            match afterColon rest with
            | .error f => .error f
            | .ok rest =>
                match readNull rest with
                | .error f => .error f
                | .ok (_, rest) =>
                    match skipBlanks rest with
                    | [] => .error .endInObject
                    | e :: rest => if e = octet '\x7d' then .ok (c, rest) else .error .valueWanted
      else if b = octet '\x7d' then .error .valueWanted
      else .error .keyWanted

/-- Reads an element class. -/
def readClass (brackets : Nat) : Step ElementClass := fun bs =>
  match skipBlanks bs with
  | [] => .error .endInValue
  | b :: rest =>
      if b = octet '"' then readClassName rest
      else if b = octet '\x7b' then
        if brackets = 0 then .error .tooDeep else readClassEntry rest
      else .error .valueWanted

/-! ## Methods -/

/-- The fields of a method that have been read. -/
structure MethodParts where
  token : Option Token := none
  name : Option String := none
  modifiers : Option Modifiers := none
  returns : Option ElementClass := none
  params : Option (List ElementClass) := none
  locals : Option (List String) := none

/-- A field that holds what a reader returns. -/
def field {δ α : Type} (key : String) (get : δ → Option α) (set : δ → α → δ) (read : Step α) :
    FieldReader δ where
  key := key
  present parts := (get parts).isSome
  read parts bs :=
    match read bs with
    | .error f => .error f
    | .ok (x, rest) => .ok (set parts x, rest)

/-- Reads the attributes of a method, of which the modifiers are kept. -/
def readModifiers : Step Modifiers := fun bs =>
  match readWord bs with
  | .error f => .error f
  | .ok (flags, rest) => .ok (.ofFlags flags, rest)

/-- The fields of a method. -/
def methodFields (brackets : Nat) : List (FieldReader MethodParts) :=
  [field "token" (·.token) (fun p x => { p with token := some x }) (readToken brackets),
    field "name" (·.name) (fun p x => { p with name := some x }) readText,
    field "flags" (·.modifiers) (fun p x => { p with modifiers := some x }) readModifiers,
    field "return_type" (·.returns) (fun p x => { p with returns := some x })
      (readClass brackets),
    field "params" (·.params) (fun p x => { p with params := some x })
      (readList (inside readClass brackets)),
    field "locals" (·.locals) (fun p x => { p with locals := some x })
      (readList (inside (fun _ => readText) brackets))]

/-- Methods as records. -/
def methodSchema : Schema MethodParts Method where
  title := "struct MethodDef"
  blank := {}
  finish p :=
    match p.token with
    | none => .error "token"
    | some token =>
        .ok
          { token := token
            name := p.name.getD ""
            modifiers := p.modifiers.getD .none
            returns := p.returns.getD .void
            params := p.params.getD []
            locals := p.locals.getD [] }

/-- Reads a method. -/
def readMethod (brackets : Nat) : Step Method :=
  readRecord methodSchema (inside methodFields brackets)

/-! ## Types -/

/-- The fields of a type that have been read. -/
structure TypeParts where
  token : Option Token := none
  space : Option String := none
  name : Option String := none
  methods : Option (List Method) := none
  nested : Option Forest := none

/-- The fields of a type, with a reader of nested types. -/
def typeFields (brackets : Nat) (readNested : Step Forest) : List (FieldReader TypeParts) :=
  [field "token" (·.token) (fun p x => { p with token := some x }) (readToken brackets),
    field "namespace" (·.space) (fun p x => { p with space := some x }) readText,
    field "name" (·.name) (fun p x => { p with name := some x }) readText,
    field "methods" (·.methods) (fun p x => { p with methods := some x })
      (readList (inside readMethod brackets)),
    field "nested_types" (·.nested) (fun p x => { p with nested := some x }) readNested]

/-- Types as records. -/
def typeSchema : Schema TypeParts TypeDecl where
  title := "struct TypeDef"
  blank := {}
  finish p :=
    match p.token with
    | none => .error "token"
    | some token =>
        .ok
          { token := token
            space := p.space.getD ""
            name := p.name.getD ""
            methods := p.methods.getD []
            nested := p.nested.getD [] }

mutual

/-- Reads a type with its nested types. -/
def readType : Nat → Step TypeDecl
  | 0 => readRecord typeSchema none
  | brackets + 1 => readRecord typeSchema (some (typeFields brackets (readTypes brackets)))

/-- Reads a list of types. -/
def readTypes : Nat → Step Forest
  | 0 => readList none
  | brackets + 1 => readList (some (readType brackets))

end

/-! ## Dumps -/

/-- The fields of a dump that have been read. -/
structure Parts where
  name : Option String := none
  types : Option Forest := none

/-- The fields of a dump. -/
def fields (brackets : Nat) : List (FieldReader Parts) :=
  [field "name" (·.name) (fun p x => { p with name := some x }) readText,
    field "types" (·.types) (fun p x => { p with types := some x }) (readTypes brackets)]

/-- Dumps as records. -/
def schema : Schema Parts Dump where
  title := "struct ModuleDump"
  blank := {}
  finish p := .ok ⟨p.name.getD "", p.types.getD []⟩

/-- Reads a dump. -/
def read (brackets : Nat) : Step Dump := readRecord schema (inside fields brackets)

/-- The dump of a whole text. -/
def ofOctets (bs : Octets) : Except Fault Dump := readWhole (read maxBrackets) bs

end Dump

/-! ## Whole texts -/

/-- The token of a whole text. -/
def Token.ofJson (s : String) : Except Fault Token :=
  readWhole (Dump.readToken Dump.maxBrackets) (octets s)

/-- The tokens of a whole text that lists them. -/
def Token.listOfJson (s : String) : Except Fault (List Token) :=
  readWhole (readList (Dump.inside Dump.readToken Dump.maxBrackets)) (octets s)

/-- The element class of a whole text. -/
def ElementClass.ofJson (s : String) : Except Fault ElementClass :=
  readWhole (Dump.readClass Dump.maxBrackets) (octets s)

/-- The method of a whole text. -/
def Method.ofJson (s : String) : Except Fault Method :=
  readWhole (Dump.readMethod Dump.maxBrackets) (octets s)

/-- The type of a whole text. -/
def TypeDecl.ofJson (s : String) : Except Fault TypeDecl :=
  readWhole (Dump.readType Dump.maxBrackets) (octets s)

end VmHandler
