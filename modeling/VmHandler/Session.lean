import VmHandler.Search

/-!
# Sessions

A session works on one module after another. It stores at most one runtime structure, which is the
type of the virtual machine with its handler, until it is reset. While one is stored nothing else
is: neither the structure nor the log changes.
-/

set_option autoImplicit false

namespace VmHandler

/-- The type of the virtual machine and its handler. -/
structure Runtime where
  type : TypeDecl
  handler : Method
  deriving Repr

/-- The structure of two halves, if both are there. -/
def Runtime.ofParts (type : Option TypeDecl) (handler : Option Method) :
    Except Search.Failure Runtime :=
  match type, handler with
  | some t, some m => .ok ⟨t, m⟩
  | _, _ => .error .notFound

/-- The structure of a selection. -/
def Selection.runtime (s : Selection) : Runtime := ⟨s.type, s.method⟩

/-- The structure that is stored and the events of the searches. -/
structure Session where
  runtime : Option Runtime := none
  log : EventLog := {}
  deriving Repr

namespace Session

/-- Why nothing is stored. -/
inductive Refusal where
  /-- a structure is stored already -/
  | alreadyAssigned
  | search (failure : Search.Failure)
  deriving DecidableEq, Repr

/-- What the refusal says. -/
def Refusal.message : Refusal → String
  | alreadyAssigned => "The VM runtime structure has already been assigned"
  | search f => f.message

/-- Stores a structure. -/
def assign (s : Session) (r : Runtime) : Except Refusal Runtime × Session :=
  match s.runtime with
  | some _ => (.error .alreadyAssigned, s)
  | none => (.ok r, { s with runtime := some r })

/-- Searches a module and stores what is found. The search keeps a journal of its own, whose log is
added to that of the session; its announcements are the last part of the result. -/
def discover (s : Session) (search : Search) (m : Module) :
    Except Refusal Runtime × Session × List Announcement :=
  match s.runtime with
  | some _ => (.error .alreadyAssigned, s, [])
  | none =>
      match search.discover m {} with
      | (.error f, staged) =>
          (.error (.search f), { s with log := s.log ++ staged.log }, staged.announced)
      | (.ok selection, staged) =>
          match s.assign selection.runtime with
          | (.error refusal, s) => (.error refusal, s, staged.announced)
          | (.ok r, s) => (.ok r, { s with log := s.log ++ staged.log }, staged.announced)

/-- Forgets the structure and the log. -/
def reset (_ : Session) : Session := {}

/-- One step of work on a session. -/
inductive Action where
  | discover (search : Search) (target : Module)
  | assign (runtime : Runtime)
  | reset

/-- The session after one step. -/
def apply (s : Session) : Action → Session
  | .discover search m => (s.discover search m).2.1
  | .assign r => (s.assign r).2
  | .reset => s.reset

/-- The session after several steps. -/
def run (s : Session) (actions : List Action) : Session := actions.foldl apply s

end Session

end VmHandler
