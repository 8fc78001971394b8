import VmHandler.Token
import VmHandler.Json.Value

/-!
# Events

What a search has to report is recorded as events in a log, in order. Each event that is recorded
is also announced, once, at the level of its kind; an event that is copied from one log to another
is not announced again.
-/

set_option autoImplicit false

namespace VmHandler

/-! ## Announcements -/

/-- How much an announcement matters. -/
inductive Level where
  | debug
  | info
  | warn
  | error
  deriving DecidableEq, Repr

/-- The name of a level. -/
def Level.name : Level → String
  | debug => "DEBUG"
  | info => "INFO"
  | warn => "WARN"
  | error => "ERROR"

/-- A message for whoever listens. -/
structure Announcement where
  level : Level
  message : String
  deriving DecidableEq, Repr

/-! ## Events -/

/-- What happened. -/
inductive EventKind where
  | handlerFound
  | handlerNotFound
  /-- more than one type declares a handler -/
  | ambiguousHandler
  deriving DecidableEq, Repr

namespace EventKind

/-- The kind in words. -/
def description : EventKind → String
  | handlerFound => "handler found"
  | handlerNotFound => "handler not found"
  | ambiguousHandler => "ambiguous handler"

/-- The kind as a key. -/
def key : EventKind → String
  | handlerFound => "handler_found"
  | handlerNotFound => "handler_not_found"
  | ambiguousHandler => "ambiguous_handler"

/-- The level at which events of the kind are announced. -/
def level : EventKind → Level
  | handlerFound => .info
  | handlerNotFound => .error
  | ambiguousHandler => .warn

/-- Every kind. -/
def all : List EventKind := [handlerFound, handlerNotFound, ambiguousHandler]

/-- The kind of a key. -/
def ofKey? (s : String) : Option EventKind := all.find? (·.key = s)

end EventKind

/-- Something that happened, with the type and the method it is about. -/
structure Event where
  kind : EventKind
  /-- The type, if it is about one. -/
  type : Option Token
  /-- The method, if it is about one. -/
  method : Option Token
  message : String
  deriving DecidableEq, Repr

namespace Event

/-- A part of an event that is set when it is recorded. -/
inductive Setting where
  | type (token : Token)
  | method (token : Token)
  | message (message : String)
  deriving DecidableEq, Repr

/-- The event with one part set. -/
def apply (e : Event) : Setting → Event
  | .type t => { e with type := some t }
  | .method t => { e with method := some t }
  | .message s => { e with message := s }

/-- The event of a kind with some parts set, the last setting of a part deciding; where no words
are set, the kind is the message. -/
def ofSettings (kind : EventKind) (settings : List Setting) : Event :=
  settings.foldl apply ⟨kind, none, none, kind.description⟩

/-- The kind in brackets and the message. -/
def text (e : Event) : String := s!"[{e.kind.description}] {e.message}"

/-- The announcement of an event. -/
def announcement (e : Event) : Announcement := ⟨e.kind.level, e.message⟩

/-- A token, or no value in its place. -/
def tokenValue : Option Token → Json.Value
  | none => .null
  | some t => .text t.text

/-- The event as a value that can be written. -/
def toValue (e : Event) : Json.Value :=
  .object
    [("kind", .text e.kind.key), ("vm_type", tokenValue e.type), ("method", tokenValue e.method),
      ("message", .text e.message)]

end Event

/-! ## Logs -/

/-- The events that were recorded, first one first. -/
structure EventLog where
  events : Array Event := #[]
  deriving DecidableEq, Repr

namespace EventLog

/-- The events as a list. -/
def toList (log : EventLog) : List Event := log.events.toList

/-- The log with one event more. -/
def push (log : EventLog) (e : Event) : EventLog := ⟨log.events.push e⟩

/-- The log with the events of another one behind its own. -/
def append (log other : EventLog) : EventLog := ⟨log.events ++ other.events⟩

instance : Append EventLog := ⟨append⟩

/-- The number of events. -/
def size (log : EventLog) : Nat := log.events.size

/-- Whether there is an event of a kind. -/
def has (log : EventLog) (kind : EventKind) : Bool := log.events.any (·.kind = kind)

/-- The number of events of a kind. -/
def count (log : EventLog) (kind : EventKind) : Nat := log.events.countP (·.kind = kind)

/-- The events of a kind, in order. -/
def ofKind (log : EventLog) (kind : EventKind) : List Event :=
  log.toList.filter (·.kind = kind)

/-- The events that are announced as warnings, in order. -/
def warnings (log : EventLog) : List Event := log.toList.filter (·.kind.level = .warn)

@[simp] theorem toList_push (log : EventLog) (e : Event) :
    (log.push e).toList = log.toList ++ [e] := by
  simp [push, toList]

@[simp] theorem toList_append (log other : EventLog) :
    (log ++ other).toList = log.toList ++ other.toList := by
  show (append log other).toList = _
  simp [append, toList]

theorem count_eq_countP (log : EventLog) (kind : EventKind) :
    log.count kind = log.toList.countP (fun e => e.kind = kind) := by
  simp [count, toList]

end EventLog

/-! ## Recording -/

/-- A log together with what has been announced so far. -/
structure Journal where
  log : EventLog := {}
  /-- The announcements, first one first. -/
  announced : List Announcement := []
  deriving DecidableEq, Repr

namespace Journal

/-- Announces something that is no event. -/
def announce (j : Journal) (a : Announcement) : Journal :=
  { j with announced := j.announced ++ [a] }

/-- Records an event and announces it. -/
def record (j : Journal) (e : Event) : Journal :=
  { log := j.log.push e, announced := j.announced ++ [e.announcement] }

/-- Records several events in order. -/
def recordAll (j : Journal) (es : List Event) : Journal := es.foldl record j

@[simp] theorem log_announce (j : Journal) (a : Announcement) : (j.announce a).log = j.log := rfl

@[simp] theorem toList_log_record (j : Journal) (e : Event) :
    (j.record e).log.toList = j.log.toList ++ [e] :=
  EventLog.toList_push j.log e

@[simp] theorem toList_log_recordAll (j : Journal) (es : List Event) :
    (j.recordAll es).log.toList = j.log.toList ++ es := by
  induction es generalizing j with
  | nil => simp [recordAll]
  | cons e es ih =>
      have hrest := ih (j.record e)
      rw [toList_log_record, List.append_assoc] at hrest
      exact hrest

end Journal

end VmHandler
