import VmHandler.Event.Shelf
import VmHandler.Proofs.Edits

/-!
# What logs hold

Work on several logs is followed by lists: each step adds some events behind those of one log, or
empties one log. What is recorded is added to one log and announced; what is merged is a copy of all
that another log holds at that moment, and is not announced. So an event stays where it is in its log
until the log is replaced, and each event that is recorded is announced once, however often it is
copied.
-/

set_option autoImplicit false

namespace VmHandler

/-! ## Settings -/

namespace Event

/-- The type that a setting sets. -/
def Setting.type? : Setting → Option Token
  | .type token => some token
  | _ => none

/-- The method that a setting sets. -/
def Setting.method? : Setting → Option Token
  | .method token => some token
  | _ => none

/-- The words that a setting sets. -/
def Setting.message? : Setting → Option String
  | .message words => some words
  | _ => none

theorem kind_foldl_apply (settings : List Setting) (e : Event) :
    (settings.foldl apply e).kind = e.kind := by
  induction settings generalizing e with
  | nil => rfl
  | cons x settings ih =>
      have hhead : (apply e x).kind = e.kind := by cases x <;> rfl
      rw [List.foldl_cons, ih, hhead]

/-- The event of a kind in which each part is as it was set last; where no words are set, the kind
is described. -/
def settled (kind : EventKind) (settings : List Setting) : Event where
  kind := kind
  type := (settings.filterMap Setting.type?).getLast?
  method := (settings.filterMap Setting.method?).getLast?
  message := (settings.filterMap Setting.message?).getLast?.getD kind.description

theorem ofSettings_eq_settled (kind : EventKind) (settings : List Setting) :
    ofSettings kind settings = settled kind settings := by
  have hkind := kind_foldl_apply settings ⟨kind, none, none, kind.description⟩
  have htype := foldl_last apply Event.type Setting.type? (by intro e x; cases x <;> rfl) settings
    ⟨kind, none, none, kind.description⟩
  have hmethod := foldl_last apply Event.method Setting.method? (by intro e x; cases x <;> rfl)
    settings ⟨kind, none, none, kind.description⟩
  have hmessage := foldl_last_getD apply Event.message Setting.message?
    (by intro e x; cases x <;> rfl) settings ⟨kind, none, none, kind.description⟩
  rw [Option.or_none] at htype hmethod
  unfold ofSettings settled
  rw [Event.mk.injEq]
  exact ⟨hkind, htype, hmethod, hmessage⟩

end Event

/-! ## Events of one kind -/

namespace EventLog

theorem countP_kinds (es : List Event) :
    es.countP (fun e => e.kind = .handlerFound) + es.countP (fun e => e.kind = .handlerNotFound) +
      es.countP (fun e => e.kind = .ambiguousHandler) = es.length := by
  induction es with
  | nil => rfl
  | cons e es ih =>
      rw [List.countP_cons, List.countP_cons, List.countP_cons, List.length_cons]
      cases e.kind <;> simp only [decide_true, decide_false, reduceCtorEq, if_true, if_false] <;>
        omega

theorem count_add_count_add_count (log : EventLog) :
    log.count .handlerFound + log.count .handlerNotFound + log.count .ambiguousHandler =
      log.size := by
  rw [count_eq_countP, count_eq_countP, count_eq_countP, countP_kinds, toList, Array.length_toList,
    size]

theorem has_eq_true_iff (log : EventLog) (kind : EventKind) :
    log.has kind = true ↔ 0 < log.count kind := by
  rw [count_eq_countP, List.countP_pos_iff, has, ← Array.any_toList, List.any_eq_true, toList]

theorem count_ofKind (log : EventLog) (kind : EventKind) (e : Event) :
    (log.ofKind kind).count e = if e.kind = kind then log.toList.count e else 0 := by
  unfold ofKind
  split
  · rename_i hkind
    exact List.count_filter (decide_eq_true hkind)
  · rename_i hkind
    rw [List.count_eq_zero, List.mem_filter]
    intro hmem
    exact hkind (of_decide_eq_true hmem.2)

/-- Only events of several candidates are announced as warnings. -/
theorem warnings_eq (log : EventLog) : log.warnings = log.ofKind .ambiguousHandler := by
  have hlevel : ∀ kind : EventKind, kind.level = .warn ↔ kind = .ambiguousHandler := by
    intro kind
    cases kind <;> decide
  unfold warnings ofKind
  simp only [hlevel]

end EventLog

/-! ## One step -/

namespace Shelf

/-- What each log holds, as a list. -/
abbrev Holdings := Nat → List Event

/-- The lists of the logs. -/
def holdings (s : Shelf) : Holdings := fun i => (s.logs i).toList

/-- The events that a step adds behind those of a log. -/
def Action.added (held : Holdings) (log : Nat) : Action → List Event
  | .record target kind settings => if target = log then [.settled kind settings] else []
  | .merge source target => if target = log then held source else []
  | .renew _ => []

/-- What each log holds after one step. -/
def Holdings.step (held : Holdings) (a : Action) : Holdings :=
  fun i => if a = .renew i then [] else held i ++ a.added held i

/-- What each log holds after several steps, if all logs were empty before. -/
def Holdings.after (actions : List Action) : Holdings :=
  actions.foldl Holdings.step fun _ => []

/-- The announcement that a step makes. -/
def Action.announcement? : Action → Option Announcement
  | .record _ kind settings => some ⟨kind.level, (Event.settled kind settings).message⟩
  | .merge _ _ => none
  | .renew _ => none

/-- A step that merges two different logs if it merges logs. -/
def Action.Proper : Action → Prop
  | .merge source target => source ≠ target
  | _ => True

instance : DecidablePred Action.Proper := fun a =>
  match a with
  | .record _ _ _ => isTrue trivial
  | .merge source target => inferInstanceAs (Decidable (source ≠ target))
  | .renew _ => isTrue trivial

theorem holdings_apply (s : Shelf) (a : Action) : (s.apply a).holdings = s.holdings.step a := by
  funext i
  cases a with
  | record target kind settings =>
      by_cases h : i = target
      · subst h
        simp [holdings, Holdings.step, Action.added, apply, put, Event.ofSettings_eq_settled]
      · simp [holdings, Holdings.step, Action.added, apply, put, h, Ne.symm h]
  | merge source target =>
      by_cases h : i = target
      · subst h
        simp [holdings, Holdings.step, Action.added, apply, put]
      · simp [holdings, Holdings.step, Action.added, apply, put, h, Ne.symm h]
  | renew target =>
      by_cases h : i = target
      · subst h
        simp [holdings, Holdings.step, apply, put, EventLog.toList]
      · simp [holdings, Holdings.step, Action.added, apply, put, h, Ne.symm h]

theorem announced_apply (s : Shelf) (a : Action) :
    (s.apply a).announced = s.announced ++ a.announcement?.toList := by
  cases a with
  | record target kind settings =>
      simp only [apply, Action.announcement?, Option.toList_some, Event.announcement,
        Event.ofSettings_eq_settled]
      rfl
  | merge source target => exact (List.append_nil _).symm
  | renew target => exact (List.append_nil _).symm

theorem Holdings.prefix_step (held : Holdings) {a : Action} {i : Nat} (h : a ≠ .renew i) :
    held i <+: held.step a i := by
  unfold Holdings.step
  rw [if_neg h]
  exact List.prefix_append _ _

/-- A merge leaves the log that it copies as it is. -/
theorem Holdings.step_merge_source (held : Holdings) {source target : Nat}
    (h : source ≠ target) : held.step (.merge source target) source = held source := by
  have hadded : Action.added held source (.merge source target) = [] := if_neg (Ne.symm h)
  unfold Holdings.step
  rw [if_neg Action.noConfusion, hadded, List.append_nil]

/-! ## Several steps -/

theorem holdings_run (s : Shelf) (actions : List Action) :
    (s.run actions).holdings = actions.foldl Holdings.step s.holdings := by
  induction actions generalizing s with
  | nil => rfl
  | cons a actions ih =>
      have hstep := s.holdings_apply a
      rw [List.foldl_cons, ← hstep]
      exact ih (s.apply a)

theorem announced_run (s : Shelf) (actions : List Action) :
    (s.run actions).announced = s.announced ++ actions.filterMap Action.announcement? := by
  induction actions generalizing s with
  | nil => exact (List.append_nil _).symm
  | cons a actions ih =>
      have hstep := s.announced_apply a
      have hrest := ih (s.apply a)
      rw [hstep, List.append_assoc] at hrest
      refine hrest.trans (congrArg (s.announced ++ ·) ?_)
      cases ha : a.announcement? with
      | none => rw [List.filterMap_cons_none ha, Option.toList_none, List.nil_append]
      | some x => rw [List.filterMap_cons_some ha, Option.toList_some, List.singleton_append]

/-- Until a log is replaced, what it holds stays at its beginning. -/
theorem prefix_holdings_run (s : Shelf) {actions : List Action} {i : Nat}
    (h : .renew i ∉ actions) : s.holdings i <+: (s.run actions).holdings i := by
  induction actions generalizing s with
  | nil => exact List.prefix_refl _
  | cons a actions ih =>
      obtain ⟨hhead, htail⟩ := not_or.mp (mt List.mem_cons.mpr h)
      have hstep : s.holdings i <+: (s.apply a).holdings i := by
        rw [holdings_apply]
        exact s.holdings.prefix_step (Ne.symm hhead)
      exact hstep.trans (ih (s.apply a) htail)

theorem run_append (s : Shelf) (before after : List Action) :
    s.run (before ++ after) = (s.run before).run after :=
  List.foldl_append

/-- After any work on logs that merges no log with itself, each log holds what the steps have put
behind one another into it since it was replaced last: the events that were recorded in it, with
each part as set last, and at each merge all that the other log held. What a log holds stays at its
beginning until the log is replaced, and a merge leaves the log that it copies as it is. Exactly the
events that were recorded have been announced, each once, in order, at the level of their kind. The
questions about kinds are answered from that list. -/
theorem run_holds (actions : List Action) (proper : ∀ a ∈ actions, a.Proper) :
    let s := run {} actions
    (∀ i, (s.logs i).toList = Holdings.after actions i) ∧
    (∀ before after, actions = before ++ after → ∀ i, .renew i ∉ after →
      ((run {} before).logs i).toList <+: (s.logs i).toList) ∧
    (∀ before source target after, actions = before ++ .merge source target :: after →
      ((run {} (before ++ [.merge source target])).logs source).toList =
          ((run {} before).logs source).toList ∧
        (run {} (before ++ [.merge source target])).announced = (run {} before).announced) ∧
    s.announced = actions.filterMap Action.announcement? ∧
    ∀ i kind,
      ((s.logs i).has kind = true ↔ 0 < (s.logs i).count kind) ∧
      (s.logs i).count .handlerFound + (s.logs i).count .handlerNotFound +
        (s.logs i).count .ambiguousHandler = (s.logs i).size ∧
      ((s.logs i).ofKind kind).Sublist (s.logs i).toList ∧
      (∀ e, ((s.logs i).ofKind kind).count e =
        if e.kind = kind then (s.logs i).toList.count e else 0) ∧
      (s.logs i).warnings = (s.logs i).ofKind .ambiguousHandler := by
  intro s
  refine ⟨?_, ?_, ?_, announced_run {} actions, ?_⟩
  · intro i
    exact congrFun (holdings_run {} actions) i
  · -- the log at any moment is a run of its own, and the rest of the run goes on from there
    intro before after hsplit i hkeeps
    have hprefix := (run {} before).prefix_holdings_run hkeeps
    rw [← run_append, ← hsplit] at hprefix
    exact hprefix
  · intro before source target after hsplit
    have hmem : Action.merge source target ∈ actions := by
      rw [hsplit]
      exact List.mem_append_right _ List.mem_cons_self
    have hne : source ≠ target := proper _ hmem
    have hholdings := congrFun ((run {} before).holdings_apply (.merge source target)) source
    rw [Holdings.step_merge_source _ hne] at hholdings
    rw [run_append]
    exact ⟨hholdings, rfl⟩
  · intro i kind
    have hsublist : ((s.logs i).ofKind kind).Sublist (s.logs i).toList := List.filter_sublist
    exact ⟨(s.logs i).has_eq_true_iff kind, (s.logs i).count_add_count_add_count, hsublist,
      (s.logs i).count_ofKind kind, (s.logs i).warnings_eq⟩

/-- An event that goes from one log through a second to a third, and from there back to the first,
which has been replaced in between. -/
def relay : List Action :=
  [.record 0 .ambiguousHandler [.message "first", .type ⟨3⟩, .message "second"], .merge 0 1,
    .record 1 .handlerNotFound [], .merge 1 2, .renew 0, .merge 2 0, .merge 0 1]

/-- The second log has been told everything twice, but each event has been announced once. -/
theorem run_holds_relay :
    (∀ a ∈ relay, a.Proper) ∧
    ((run {} relay).logs 1).toList =
      [⟨.ambiguousHandler, some ⟨3⟩, none, "second"⟩,
        ⟨.handlerNotFound, none, none, "handler not found"⟩,
        ⟨.ambiguousHandler, some ⟨3⟩, none, "second"⟩,
        ⟨.handlerNotFound, none, none, "handler not found"⟩] ∧
    (run {} relay).announced = [⟨.warn, "second"⟩, ⟨.error, "handler not found"⟩] := by
  have proper : ∀ a ∈ relay, a.Proper := by decide
  obtain ⟨hholds, _, _, hannounced, _⟩ := run_holds relay proper
  exact ⟨proper, (hholds 1).trans (by decide), hannounced.trans (by decide)⟩

end Shelf

end VmHandler
