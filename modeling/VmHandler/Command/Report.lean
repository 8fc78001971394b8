import VmHandler.Command.Table
import VmHandler.Search

/-!
# Reports

What the three commands find out about a module. Each report can be written as one value for a
program to read or as lines of text.
-/

set_option autoImplicit false

namespace VmHandler.Command

open VmHandler.Json

/-- A text, or no value in its place. -/
def textOrNull : Option String → Value
  | none => .null
  | some s => .text s

/-- The last part of a path. -/
def fileName (path : String) : String :=
  String.ofList ((path.toList.reverse.takeWhile (· ≠ '/')).reverse)

/-! ## The handler -/

/-- A handler that was found. -/
structure HandlerEntry where
  type : Token
  /-- The full name of the type. -/
  typeName : String
  method : Token
  methodName : String
  signature : String
  deriving DecidableEq, Repr

/-- The entry of a selection. -/
def HandlerEntry.ofSelection (s : Selection) : HandlerEntry :=
  ⟨s.type.token, s.type.fullName, s.method.token, s.method.name, s.signature⟩

/-- The entry as a value. -/
def HandlerEntry.toValue (e : HandlerEntry) : Value :=
  .object
    [("vm_type", .text e.type.text), ("vm_type_name", .text e.typeName),
      ("handler", .text e.method.text), ("handler_name", .text e.methodName),
      ("signature", .text e.signature)]

/-- What the search found out. -/
structure LocateReport where
  /-- The name of the file. -/
  file : String
  moduleName : String
  /-- The number of types. -/
  types : Nat
  /-- The handler, or why there is none. -/
  result : Except Search.Failure HandlerEntry
  events : List Event
  deriving Repr

namespace LocateReport

/-- The report of a search of a module in a file, with the log that the search left. -/
def ofDiscovery (path : String) (m : Module) (result : Except Search.Failure Selection)
    (log : EventLog) : LocateReport where
  file := fileName path
  moduleName := m.name
  types := m.types.length
  result := result.map HandlerEntry.ofSelection
  events := log.toList

/-- The handler, if one was found. -/
def handler? (r : LocateReport) : Option HandlerEntry :=
  match r.result with
  | .ok e => some e
  | .error _ => none

/-- Why there is no handler, if there is none. -/
def failure? (r : LocateReport) : Option Search.Failure :=
  match r.result with
  | .ok _ => none
  | .error f => some f

/-- The messages of the warnings. -/
def warnings (r : LocateReport) : List String :=
  (r.events.filter (·.kind.level = .warn)).map Event.message

/-- The report as a value. -/
def toValue (r : LocateReport) : Value :=
  .object
    [("file", .text r.file), ("module", .text r.moduleName), ("types_scanned", .natural r.types),
      ("handler",
        match r.handler? with
        | none => .null
        | some e => e.toValue),
      ("error", textOrNull (r.failure?.map Search.Failure.message)),
      ("warnings", .list (r.warnings.map .text)),
      ("events", .list (r.events.map Event.toValue))]

/-- The lines on the handler. -/
def handlerLines (r : LocateReport) : List String :=
  match r.handler? with
  | none => ["  no VM function handler found"]
  | some e =>
      [s!"  VM type:          {e.typeName} ({e.type})",
        s!"  Function handler: {e.methodName} ({e.method})",
        s!"  Signature:        {e.signature}"]

/-- The lines on the warnings. -/
def warningLines (r : LocateReport) : List String :=
  if r.warnings.isEmpty then []
  else "  Warnings:" :: r.warnings.map fun w => s!"    - {w}"

/-- The report as lines of text. -/
def lines (r : LocateReport) : List String :=
  s!"{r.file}: module '{r.moduleName}', {r.types} types" :: r.handlerLines ++ r.warningLines

end LocateReport

/-! ## The candidates -/

/-- A candidate in a list. -/
structure CandidateEntry where
  /-- The position of the type. -/
  index : Nat
  type : Token
  method : Token
  signature : String
  /-- The full name of the type and the name of the handler. -/
  name : String
  deriving DecidableEq, Repr

/-- The entry of a candidate. -/
def CandidateEntry.ofCandidate (c : Candidate) : CandidateEntry :=
  { index := c.index
    type := c.type.token
    method := c.method.token
    signature := c.signature
    name := s!"{c.type.fullName}::{c.method.name}" }

/-- The entry as a value. -/
def CandidateEntry.toValue (e : CandidateEntry) : Value :=
  .object
    [("index", .natural e.index), ("vm_type", .text e.type.text), ("handler", .text e.method.text),
      ("signature", .text e.signature), ("name", .text e.name)]

/-- The entry as a row of a table. -/
def CandidateEntry.row (e : CandidateEntry) : List String :=
  [toString e.index, e.type.text, e.method.text, e.signature, e.name]

/-- The candidates of a module. -/
structure CandidatesReport where
  entries : List CandidateEntry
  deriving DecidableEq, Repr

namespace CandidatesReport

/-- The report on a module. -/
def ofModule (m : Module) : CandidatesReport :=
  ⟨(Search.candidates {} m).map .ofCandidate⟩

/-- The report as a value. -/
def toValue (r : CandidatesReport) : Value :=
  .object
    [("candidates", .list (r.entries.map CandidateEntry.toValue)),
      ("count", .natural r.entries.length)]

/-- The columns of the list. -/
def columns : List Column :=
  [⟨"#", true⟩, ⟨"Type", false⟩, ⟨"Method", false⟩, ⟨"Signature", false⟩, ⟨"Name", false⟩]

/-- How many candidates there are, in words. -/
def countLine (r : CandidatesReport) : String :=
  match r.entries.length with
  | 0 => "no qualifying type."
  | 1 => "1 qualifying type."
  | n => s!"{n} qualifying types, the first one is selected."

/-- The report as lines of text. -/
def lines (r : CandidatesReport) : List String :=
  tableLines columns (r.entries.map CandidateEntry.row) ++ ["", r.countLine]

end CandidatesReport

/-! ## The types -/

/-- A type in a list. -/
structure TypeEntry where
  token : Token
  /-- The number of methods. -/
  methods : Nat
  /-- The number of types nested directly in it. -/
  nested : Nat
  /-- The token of the handler and the signature that accepts it, if the type is a candidate. -/
  handler : Option (Token × String)
  name : String
  deriving DecidableEq, Repr

namespace TypeEntry

/-- The entry of a type. -/
def ofType (t : TypeDecl) : TypeEntry where
  token := t.token
  methods := t.methods.length
  nested := t.nested.length
  handler := (t.handler? Signature.known).map fun (m, s) => (m.token, s.name)
  name := t.fullName

/-- The handler in words. -/
def handlerText? (e : TypeEntry) : Option String :=
  e.handler.map fun (method, signature) => s!"{method} ({signature})"

/-- The entry as a value. -/
def toValue (e : TypeEntry) : Value :=
  .object
    [("token", .text e.token.text), ("methods", .natural e.methods), ("nested", .natural e.nested),
      ("handler", textOrNull e.handlerText?), ("name", .text e.name)]

/-- The entry as a row of a table. -/
def row (e : TypeEntry) : List String :=
  [e.token.text, toString e.methods, toString e.nested, e.handlerText?.getD "-", e.name]

end TypeEntry

/-- The types of a module. -/
structure TypesReport where
  entries : List TypeEntry
  deriving DecidableEq, Repr

namespace TypesReport

/-- Whether a type is to be listed when only one namespace is asked for. -/
def listed (space : Option String) (t : TypeDecl) : Bool :=
  match space with
  | none => true
  | some s => t.space = s

/-- The report on a module, or on one namespace of it. -/
def ofModule (m : Module) (space : Option String) : TypesReport :=
  ⟨(m.types.filter (listed space)).map .ofType⟩

/-- The report as a value. -/
def toValue (r : TypesReport) : Value :=
  .object
    [("types", .list (r.entries.map TypeEntry.toValue)), ("count", .natural r.entries.length)]

/-- The columns of the list. -/
def columns : List Column :=
  [⟨"Token", false⟩, ⟨"Methods", true⟩, ⟨"Nested", true⟩, ⟨"Handler", false⟩, ⟨"Name", false⟩]

/-- The report as lines of text. -/
def lines (r : TypesReport) : List String :=
  tableLines columns (r.entries.map TypeEntry.row)
    ++ ["", s!"{r.entries.length} type(s) listed."]

end TypesReport

end VmHandler.Command
