import VmHandler.Signature
import VmHandler.Module
import VmHandler.Event

/-!
# The search for the handler

The types of a module are visited in order. For each type the signatures are tried in order of
priority, and each signature looks at every method of the type before the next signature is tried.
A type for which some signature finds a method is a candidate, and the first candidate is selected.

The policy says what becomes of further candidates. Under `first` nobody looks for them; under
`report` each is reported and ignored; under `reject` the search fails if there are any.
-/

set_option autoImplicit false

namespace VmHandler

/-! ## Configuration -/

/-- What is done about more than one candidate. -/
inductive Policy where
  /-- the search ends at the first candidate -/
  | first
  /-- further candidates are reported -/
  | report
  /-- further candidates make the search fail -/
  | reject
  deriving DecidableEq, Repr

namespace Policy

/-- The name of a policy. -/
def name : Policy → String
  | first => "first"
  | report => "report"
  | reject => "reject"

/-- Every policy. -/
def all : List Policy := [first, report, reject]

/-- The policy of a name. -/
def ofName? (s : String) : Option Policy := all.find? (·.name = s)

end Policy

/-- What is searched for, and how. -/
structure Search where
  /-- The signatures, in order of priority. -/
  signatures : List Signature := Signature.known
  /-- What is done about more than one candidate. -/
  policy : Policy := .first
  /-- Whether the types are looked at side by side. -/
  parallel : Bool := false
  deriving DecidableEq, Repr

namespace Search

/-- A part of a search that is set. -/
inductive Setting where
  /-- replaces the signatures -/
  | signatures (signatures : List Signature)
  /-- adds a signature with the lowest priority -/
  | signature (signature : Signature)
  | policy (policy : Policy)
  /-- sets whether the types are looked at side by side -/
  | parallel (parallel : Bool)
  deriving DecidableEq, Repr

/-- The search with one part set. -/
def apply (s : Search) : Setting → Search
  | .signatures signatures => { s with signatures := signatures }
  | .signature signature => { s with signatures := s.signatures ++ [signature] }
  | .policy policy => { s with policy := policy }
  | .parallel parallel => { s with parallel := parallel }

/-- The search with some parts set, one after the other. -/
def ofSettings (settings : List Setting) : Search := settings.foldl apply {}

/-- Whether the types behind the first candidate have to be looked at. -/
def scansAll (s : Search) : Bool := s.policy ≠ .first

end Search

/-! ## Candidates -/

/-- The first method of a type that the first signature with such a method accepts. -/
def TypeDecl.handler? (t : TypeDecl) (signatures : List Signature) : Option (Method × Signature) :=
  signatures.findSome? fun s => (t.methods.find? s.accepts).map fun m => (m, s)

/-- A type that declares a handler. -/
structure Candidate where
  /-- The position of the type in the order of the visit. -/
  index : Nat
  type : TypeDecl
  /-- The handler. -/
  method : Method
  /-- The name of the signature that accepts the handler. -/
  signature : String
  deriving Repr

/-- A selected handler with the type that declares it. -/
structure Selection where
  type : TypeDecl
  /-- The handler. -/
  method : Method
  /-- The name of the signature that accepts the handler. -/
  signature : String
  deriving Repr

/-- The candidate without its position. -/
def Candidate.selection (c : Candidate) : Selection := ⟨c.type, c.method, c.signature⟩

/-- The names and tokens of a selection and the signature. -/
def Selection.text (s : Selection) : String :=
  s!"{s.type.fullName}::{s.method.name} ({s.method.token} in {s.type.token}, {s.signature})"

namespace Search

/-- The candidate of the type at a position. -/
def candidate? (s : Search) (index : Nat) (t : TypeDecl) : Option Candidate :=
  (t.handler? s.signatures).map fun (m, signature) => ⟨index, t, m, signature.name⟩

/-- The candidates among types of which the first has a given position. -/
def scanFrom (s : Search) (index : Nat) : List TypeDecl → List Candidate
  | [] => []
  | t :: ts =>
      match s.candidate? index t with
      | some c => c :: scanFrom s (index + 1) ts
      | none => scanFrom s (index + 1) ts

/-- The first candidate among types of which the first has a given position. -/
def scanFirstFrom (s : Search) (index : Nat) : List TypeDecl → Option Candidate
  | [] => none
  | t :: ts =>
      match s.candidate? index t with
      | some c => some c
      | none => scanFirstFrom s (index + 1) ts

/-- Tasks that look at one type each, for types of which the first has a given position. -/
def tasksFrom (s : Search) (index : Nat) : List TypeDecl → List (Task (Option Candidate))
  | [] => []
  | t :: ts => Task.spawn (fun _ => s.candidate? index t) :: tasksFrom s (index + 1) ts

/-- All candidates, or only the first one. Side by side, the answers are taken in the order of the
types, whichever comes in first. -/
def scan (s : Search) (m : Module) (all : Bool) : List Candidate :=
  match s.parallel, all with
  | false, false => (s.scanFirstFrom 0 m.types).toList
  | false, true => s.scanFrom 0 m.types
  | true, false => ((s.tasksFrom 0 m.types).findSome? Task.get).toList
  | true, true => (s.tasksFrom 0 m.types).filterMap Task.get

/-- All candidates, whatever the policy. -/
def candidates (s : Search) (m : Module) : List Candidate := s.scan m true

/-! ## Discovery -/

/-- Why no handler is selected. -/
inductive Failure where
  | notFound
  /-- there are several candidates, whose types are these -/
  | ambiguous (types : List Token)
  deriving DecidableEq, Repr

/-- What the failure says. -/
def Failure.message : Failure → String
  | notFound => "Could not locate the VM function handler - unsupported protector version?"
  | ambiguous types =>
      "Multiple types contain a VM function handler - ["
        ++ ", ".intercalate (types.map Token.detail) ++ "]"

/-- The announcement of how many types and candidates there are. -/
def scanned (m : Module) (found : List Candidate) : Announcement :=
  ⟨.debug, s!"scanned {m.types.length} types of '{m.name}', {found.length} qualifying"⟩

/-- The event of a module without candidates. -/
def notFoundEvent (m : Module) : Event :=
  .ofSettings .handlerNotFound
    [.message
      s!"no type of '{m.name}' declares a VM function handler - unsupported protector version?"]

/-- The event of a candidate that is ignored. -/
def ignoredEvent (c : Candidate) : Event :=
  .ofSettings .ambiguousHandler
    [.type c.type.token, .method c.method.token,
      .message (s!"{c.type.fullName} also declares a handler candidate "
        ++ s!"{c.method.name} ({c.method.token}), ignored")]

/-- The event of a search that fails with several candidates. -/
def ambiguousEvent (found : List Candidate) : Event :=
  .ofSettings .ambiguousHandler
    [.message s!"{found.length} types declare a VM function handler"]

/-- The event of a candidate that is selected. -/
def foundEvent (c : Candidate) : Event :=
  .ofSettings .handlerFound
    [.type c.type.token, .method c.method.token,
      .message (s!"VM type {c.type.fullName} ({c.type.token}), "
        ++ s!"function handler {c.method.name} ({c.method.token}), {c.signature} signature")]

/-- Selects one of the candidates found and records what there is to report. -/
def select (s : Search) (m : Module) (j : Journal) :
    List Candidate → Except Failure Selection × Journal
  | [] => (.error .notFound, j.record (notFoundEvent m))
  | c :: cs =>
      match s.policy with
      | .first => (.ok c.selection, j.record (foundEvent c))
      | .report => (.ok c.selection, (j.recordAll (cs.map ignoredEvent)).record (foundEvent c))
      | .reject =>
          if cs.isEmpty then (.ok c.selection, j.record (foundEvent c))
          else
            (.error (.ambiguous ((c :: cs).map fun c => c.type.token)),
              j.record (ambiguousEvent (c :: cs)))

/-- Searches a module, and records and announces what there is to report. -/
def discover (s : Search) (m : Module) (j : Journal) : Except Failure Selection × Journal :=
  let found := s.scan m s.scansAll
  s.select m (j.announce (scanned m found)) found

end Search

end VmHandler
