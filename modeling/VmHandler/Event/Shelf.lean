import VmHandler.Event

/-!
# Several logs

Any number of logs side by side, with one stream of announcements. Recording works on one log and
announces the event; merging copies the events of one log behind those of another and announces
nothing; a log may be replaced by an empty one.
-/

set_option autoImplicit false

namespace VmHandler

/-- Logs with numbers, and what has been announced. -/
structure Shelf where
  /-- The log of each number. -/
  logs : Nat → EventLog := fun _ => {}
  /-- The announcements, first one first. -/
  announced : List Announcement := []

namespace Shelf

/-- One step of work on the logs. -/
inductive Action where
  | record (log : Nat) (kind : EventKind) (settings : List Event.Setting)
  /-- copies the events of a log to the end of another -/
  | merge (source target : Nat)
  /-- replaces a log by an empty one -/
  | renew (log : Nat)
  deriving DecidableEq, Repr

/-- The shelf with one log replaced. -/
def put (s : Shelf) (log : Nat) (content : EventLog) : Shelf :=
  { s with logs := fun i => if i = log then content else s.logs i }

/-- The shelf after one step. -/
def apply (s : Shelf) : Action → Shelf
  | .record log kind settings =>
      let event := Event.ofSettings kind settings
      { s.put log ((s.logs log).push event) with
        announced := s.announced ++ [event.announcement] }
  | .merge source target => s.put target (s.logs target ++ s.logs source)
  | .renew log => s.put log {}

/-- The shelf after several steps. -/
def run (s : Shelf) (actions : List Action) : Shelf := actions.foldl apply s

end Shelf

end VmHandler
