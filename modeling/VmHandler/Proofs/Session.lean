import Mathlib.Data.List.Induction
import VmHandler.Proofs.Discovery
import VmHandler.Session

/-!
# The history of a session

While a structure is stored every step but a reset leaves the session as it is. So the steps since
the last reset are searches that fail, then at most one step that stores a structure, then steps
that change nothing, and the log holds what the searches before and at that point have recorded.
-/

set_option autoImplicit false

namespace VmHandler

namespace Session

/-- The answer to one step of work; forgetting everything has none. -/
def answer (s : Session) : Action → Option (Except Refusal Runtime)
  | .discover search m => some (s.discover search m).1
  | .assign r => some (s.assign r).1
  | .reset => none

/-! ## One step -/

section Step

variable {s : Session} {search : Search} {m : Module}

theorem discover_of_some {r : Runtime} (h : s.runtime = some r) :
    s.discover search m = (.error .alreadyAssigned, s, []) := by
  simp [discover, h]

theorem assign_of_some {r r' : Runtime} (h : s.runtime = some r) :
    s.assign r' = (.error .alreadyAssigned, s) := by
  simp [assign, h]

theorem assign_of_none {r : Runtime} (h : s.runtime = none) :
    s.assign r = (.ok r, { s with runtime := some r }) := by
  simp [assign, h]

/-- A search that fails adds its events and stores nothing. -/
theorem discover_of_error {f : Search.Failure} (h : s.runtime = none)
    (hf : (search.discover m {}).1 = .error f) :
    s.discover search m =
      (.error (.search f), { s with log := s.log ++ (search.discover m {}).2.log },
        (search.discover m {}).2.announced) := by
  cases hd : search.discover m {} with
  | mk r staged =>
      rw [hd] at hf
      obtain rfl : r = .error f := hf
      simp [discover, h, hd]

/-- A search that succeeds adds its events and stores what it has found. -/
theorem discover_of_ok {x : Selection} (h : s.runtime = none)
    (hx : (search.discover m {}).1 = .ok x) :
    s.discover search m =
      (.ok x.runtime, ⟨some x.runtime, s.log ++ (search.discover m {}).2.log⟩,
        (search.discover m {}).2.announced) := by
  cases hd : search.discover m {} with
  | mk r staged =>
      rw [hd] at hx
      obtain rfl : r = .ok x := hx
      simp [discover, h, hd, assign]

/-- While a structure is stored, only a reset changes anything. -/
theorem apply_of_some {r : Runtime} (h : s.runtime = some r) {a : Action} (ha : a ≠ .reset) :
    s.apply a = s := by
  cases a with
  | discover search m => rw [apply, discover_of_some h]
  | assign r' => rw [apply, assign_of_some h]
  | reset => contradiction

/-- A step stores a structure where there is none, forgets the one there is, or keeps it. -/
theorem runtime_apply (s : Session) (a : Action) :
    (s.apply a).runtime = s.runtime ∨
    (s.runtime = none ∧ ∃ r, s.answer a = some (.ok r) ∧ (s.apply a).runtime = some r) ∨
    (a = .reset ∧ (s.apply a).runtime = none) := by
  cases hs : s.runtime with
  | some r =>
      by_cases ha : a = .reset
      · subst ha
        exact Or.inr (Or.inr ⟨rfl, rfl⟩)
      · rw [apply_of_some hs ha]
        exact Or.inl hs
  | none =>
      cases a with
      | discover search m =>
          cases hr : (search.discover m {}).1 with
          | error f =>
              rw [apply, discover_of_error hs hr]
              exact Or.inl hs
          | ok x =>
              refine Or.inr (Or.inl ⟨rfl, x.runtime, ?_, ?_⟩)
              · rw [answer, discover_of_ok hs hr]
              · rw [apply, discover_of_ok hs hr]
      | assign r =>
          refine Or.inr (Or.inl ⟨rfl, r, ?_, ?_⟩)
          · rw [answer, assign_of_none hs]
          · rw [apply, assign_of_none hs]
      | reset => exact Or.inr (Or.inr ⟨rfl, rfl⟩)

/-- Where nothing is stored, the only way for a search of a session to fail is that the search
itself fails. -/
theorem discover_eq_error {e : Refusal} (h : s.runtime = none)
    (he : (s.discover search m).1 = .error e) :
    ∃ f, e = .search f ∧ (search.discover m {}).1 = .error f ∧
      (s.discover search m).2.1 = { s with log := s.log ++ (search.discover m {}).2.log } := by
  cases hr : (search.discover m {}).1 with
  | error f =>
      rw [discover_of_error h hr] at he ⊢
      exact ⟨f, (Except.error.inj he).symm, rfl, rfl⟩
  | ok x =>
      rw [discover_of_ok h hr] at he
      contradiction

end Step

/-! ## The steps since the last reset -/

/-- Whether the step is a search that fails. -/
def Action.Fails : Action → Prop
  | .discover search m => ∃ f, (search.discover m {}).1 = .error f
  | _ => False

/-- The events that the search of a step records in an empty log. -/
def Action.events : Action → List Event
  | .discover search m => (search.discover m {}).2.log.toList
  | _ => []

/-- What the steps since the last reset have made of a session. -/
inductive Since : List Action → Session → Prop where
  /-- nothing is stored: every step was a search that failed -/
  | empty {failed : List Action} {log : EventLog} (fails : ∀ a ∈ failed, a.Fails)
      (told : log.toList = failed.flatMap Action.events) :
      Since failed ⟨none, log⟩
  /-- the structure was assigned -/
  | assigned {failed later : List Action} {r : Runtime} {log : EventLog}
      (fails : ∀ a ∈ failed, a.Fails) (keeps : .reset ∉ later)
      (told : log.toList = failed.flatMap Action.events) :
      Since (failed ++ .assign r :: later) ⟨some r, log⟩
  /-- a search has found the structure -/
  | found {failed later : List Action} {search : Search} {m : Module} {x : Selection}
      {log : EventLog} (fails : ∀ a ∈ failed, a.Fails) (keeps : .reset ∉ later)
      (finds : (search.discover m {}).1 = .ok x)
      (told : log.toList =
        failed.flatMap Action.events ++ (search.discover m {}).2.log.toList) :
      Since (failed ++ .discover search m :: later) ⟨some x.runtime, log⟩

/-- One more step that is no reset. -/
theorem Since.snoc {actions : List Action} {s : Session} (h : Since actions s) {a : Action}
    (ha : a ≠ .reset) : Since (actions ++ [a]) (s.apply a) := by
  cases h with
  | @empty failed log fails told =>
      cases a with
      | discover search m =>
          cases hr : (search.discover m {}).1 with
          | error f =>
              rw [apply, discover_of_error rfl hr]
              refine .empty ?_ ?_
              · intro b hb
                rcases List.mem_append.mp hb with hb | hb
                · exact fails b hb
                · obtain rfl := List.mem_singleton.mp hb
                  exact ⟨f, hr⟩
              · simp [told, Action.events]
          | ok x =>
              rw [apply, discover_of_ok rfl hr]
              refine .found fails List.not_mem_nil hr ?_
              simp [told]
      | assign r =>
          rw [apply, assign_of_none rfl]
          exact .assigned fails List.not_mem_nil told
      | reset => contradiction
  | @assigned failed later r log fails keeps told =>
      rw [apply_of_some rfl ha, List.append_assoc, List.cons_append]
      refine .assigned fails ?_ told
      simp [keeps, ha.symm]
  | @found failed later search m x log fails keeps finds told =>
      rw [apply_of_some rfl ha, List.append_assoc, List.cons_append]
      refine .found fails ?_ finds told
      simp [keeps, ha.symm]

theorem run_snoc (s : Session) (actions : List Action) (a : Action) :
    s.run (actions ++ [a]) = (s.run actions).apply a := by
  simp [run]

/-- Every run has a part since its last reset, and that part tells what the session is. -/
theorem run_since (actions : List Action) :
    ∃ earlier since, actions = earlier ++ since ∧
      (earlier = [] ∨ earlier.getLast? = some .reset) ∧ Since since (run {} actions) := by
  induction actions using List.reverseRecOn with
  | nil => exact ⟨[], [], rfl, Or.inl rfl, .empty (List.forall_mem_nil _) rfl⟩
  | append_singleton actions a ih =>
      rw [run_snoc]
      by_cases ha : a = .reset
      · subst ha
        refine ⟨actions ++ [.reset], [], by simp, Or.inr (by simp), ?_⟩
        exact .empty (List.forall_mem_nil _) rfl
      · obtain ⟨earlier, since, rfl, hreset, hsince⟩ := ih
        exact ⟨earlier, since ++ [a], by simp, hreset, hsince.snoc ha⟩

/-! ## Handlers on record -/

/-- Searches that fail leave no record of a handler. -/
theorem countP_handlerFound_of_fails {failed : List Action} (h : ∀ a ∈ failed, a.Fails) :
    (failed.flatMap Action.events).countP (fun e => e.kind = .handlerFound) = 0 := by
  rw [List.countP_eq_zero]
  intro e he hkind
  obtain ⟨a, ha, he⟩ := List.mem_flatMap.mp he
  cases a with
  | discover search m =>
      obtain ⟨f, hf⟩ := h _ ha
      have houtcome := search.outcome_of_empty m
      rw [hf] at houtcome
      exact houtcome.kind_ne_handlerFound e he (of_decide_eq_true hkind)
  | assign r => exact List.not_mem_nil he
  | reset => exact List.not_mem_nil he

section Record

variable {failed : List Action} {log : EventLog}

theorem count_handlerFound_of_fails (fails : ∀ a ∈ failed, a.Fails)
    (told : log.toList = failed.flatMap Action.events) : log.count .handlerFound = 0 := by
  rw [EventLog.count_eq_countP, told, countP_handlerFound_of_fails fails]

/-- Where a search has found the structure, the last event and no other one names it. -/
theorem count_handlerFound_of_found {search : Search} {m : Module} {x : Selection}
    (fails : ∀ a ∈ failed, a.Fails) (finds : (search.discover m {}).1 = .ok x)
    (told : log.toList =
      failed.flatMap Action.events ++ (search.discover m {}).2.log.toList) :
    log.count .handlerFound = 1 ∧
      ∃ e, log.toList.getLast? = some e ∧ e.kind = .handlerFound ∧
        e.type = some x.runtime.type.token ∧ e.method = some x.runtime.handler.token := by
  have houtcome := search.outcome_of_empty m
  rw [finds] at houtcome
  constructor
  · rw [EventLog.count_eq_countP, told, List.countP_append,
      countP_handlerFound_of_fails fails, houtcome.countP_handlerFound]
    rfl
  · obtain ⟨before, e, hevents, houtline, _⟩ := houtcome.handlerFound_last
    refine ⟨e, ?_, congrArg Outline.kind houtline, congrArg Outline.type houtline,
      congrArg Outline.method houtline⟩
    rw [told, hevents, ← List.append_assoc, List.getLast?_concat]

end Record

/-- Whatever the steps were, a structure is stored only where there is none and forgotten only by a
reset; while one is stored every other step is refused and changes nothing; a search that fails
stores nothing and adds its events. So the log holds the events of the searches that failed since
the last reset, in their order, and behind them those of the search that has found the structure,
if a search has. Only the last event then says that a handler is found, and it names the type and
the handler of the structure; no other log says so. -/
theorem run_history (actions : List Action) :
    let s := run {} actions
    (∀ a, (s.apply a).runtime = s.runtime ∨
      (s.runtime = none ∧ ∃ r, s.answer a = some (.ok r) ∧ (s.apply a).runtime = some r) ∨
      (a = .reset ∧ (s.apply a).runtime = none)) ∧
    (∀ r, s.runtime = some r →
      (∀ search m, s.discover search m = (.error .alreadyAssigned, s, [])) ∧
      ∀ r', s.assign r' = (.error .alreadyAssigned, s)) ∧
    (∀ search m e, s.runtime = none → (s.discover search m).1 = .error e →
      ∃ f, e = .search f ∧ (search.discover m {}).1 = .error f ∧
        (s.discover search m).2.1.runtime = none ∧
        (s.discover search m).2.1.log.toList =
          s.log.toList ++ (search.discover m {}).2.log.toList) ∧
    ∃ earlier failed rest, actions = earlier ++ failed ++ rest ∧
      (earlier = [] ∨ earlier.getLast? = some .reset) ∧
      (∀ a ∈ failed, a.Fails) ∧
      ((rest = [] ∧ s.runtime = none ∧
          s.log.toList = failed.flatMap Action.events ∧
          s.log.count .handlerFound = 0) ∨
        (∃ r later, rest = .assign r :: later ∧ .reset ∉ later ∧
          s.runtime = some r ∧
          s.log.toList = failed.flatMap Action.events ∧
          s.log.count .handlerFound = 0) ∨
        (∃ search m x later, rest = .discover search m :: later ∧ .reset ∉ later ∧
          (search.discover m {}).1 = .ok x ∧
          s.runtime = some x.runtime ∧
          s.log.toList =
            failed.flatMap Action.events ++ (search.discover m {}).2.log.toList ∧
          s.log.count .handlerFound = 1 ∧
          ∃ e, s.log.toList.getLast? = some e ∧ e.kind = .handlerFound ∧
            e.type = some x.runtime.type.token ∧ e.method = some x.runtime.handler.token)) := by
  intro s
  refine ⟨s.runtime_apply, ?_, ?_, ?_⟩
  · intro r hr
    exact ⟨fun _ _ => discover_of_some hr, fun _ => assign_of_some hr⟩
  · intro search m e hnone he
    obtain ⟨f, hrefusal, hf, hafter⟩ := discover_eq_error hnone he
    refine ⟨f, hrefusal, hf, ?_, ?_⟩
    · rw [hafter]
      exact hnone
    · rw [hafter, EventLog.toList_append]
  · obtain ⟨earlier, since, hsplit, hreset, hsince⟩ := run_since actions
    change Since since s at hsince
    generalize s = now at hsince
    cases hsince with
    | empty fails told =>
        refine ⟨earlier, since, [], by simp [hsplit], hreset, fails, Or.inl ?_⟩
        exact ⟨rfl, rfl, told, count_handlerFound_of_fails fails told⟩
    | @assigned failed later r log fails keeps told =>
        refine ⟨earlier, failed, .assign r :: later, by simp [hsplit], hreset, fails,
          Or.inr (Or.inl ?_)⟩
        exact ⟨r, later, rfl, keeps, rfl, told, count_handlerFound_of_fails fails told⟩
    | @found failed later search m x log fails keeps finds told =>
        refine ⟨earlier, failed, .discover search m :: later, by simp [hsplit], hreset, fails,
          Or.inr (Or.inr ?_)⟩
        exact ⟨search, m, x, later, rfl, keeps, finds, rfl, told,
          count_handlerFound_of_found fails finds told⟩

end Session

end VmHandler
