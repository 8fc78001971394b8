import VmHandler.Proofs.Candidates

/-!
# What a search makes of the candidates

A search may stop at the first candidate, but what it returns and what it records are what the
policy makes of all candidates of the module. The relation `Outcome` says what that is, without the
scans and without the journal; every search has one outcome, whatever the journal holds already.
-/

set_option autoImplicit false

namespace VmHandler

/-! ## Events without their words -/

/-- An event without its words. -/
structure Outline where
  kind : EventKind
  type : Option Token
  method : Option Token
  deriving DecidableEq, Repr

/-- The event without its words. -/
def Event.outline (e : Event) : Outline := ⟨e.kind, e.type, e.method⟩

namespace Search

@[simp] theorem outline_notFoundEvent (m : Module) :
    (notFoundEvent m).outline = ⟨.handlerNotFound, none, none⟩ := rfl

@[simp] theorem outline_ignoredEvent (c : Candidate) :
    (ignoredEvent c).outline = ⟨.ambiguousHandler, some c.type.token, some c.method.token⟩ := rfl

@[simp] theorem outline_ambiguousEvent (cs : List Candidate) :
    (ambiguousEvent cs).outline = ⟨.ambiguousHandler, none, none⟩ := rfl

@[simp] theorem outline_foundEvent (c : Candidate) :
    (foundEvent c).outline = ⟨.handlerFound, some c.type.token, some c.method.token⟩ := rfl

/-! ## Outcomes -/

/-- What a policy makes of the candidates of a module: the result and the events, in order. -/
inductive Outcome (policy : Policy) (m : Module) :
    List Candidate → Except Failure Selection → List Event → Prop where
  /-- there is nothing to select -/
  | notFound : Outcome policy m [] (.error .notFound) [notFoundEvent m]
  /-- several candidates are rejected -/
  | ambiguous {c d : Candidate} {cs : List Candidate} (rejects : policy = .reject) :
      Outcome policy m (c :: d :: cs)
        (.error (.ambiguous ((c :: d :: cs).map fun c => c.type.token)))
        [ambiguousEvent (c :: d :: cs)]
  /-- the first candidate is selected, and the others are reported or nobody looks for them -/
  | found {c : Candidate} {cs : List Candidate} (accepts : policy = .reject → cs = []) :
      Outcome policy m (c :: cs) (.ok c.selection)
        ((if policy = .report then cs.map ignoredEvent else []) ++ [foundEvent c])

namespace Outcome

variable {policy : Policy} {m : Module} {cs : List Candidate} {es : List Event}

theorem exists_cons_of_ok {x : Selection} (h : Outcome policy m cs (.ok x) es) :
    ∃ c rest, cs = c :: rest ∧ x = c.selection := by
  cases h with
  | @found c rest _ => exact ⟨c, rest, rfl, rfl⟩

theorem eq_map_of_ambiguous {ts : List Token}
    (h : Outcome policy m cs (.error (.ambiguous ts)) es) :
    ts = cs.map fun c => c.type.token := by
  cases h with
  | ambiguous _ => rfl

theorem eq_nil_of_notFound (h : Outcome policy m cs (.error .notFound) es) : cs = [] := by
  cases h with
  | notFound => rfl

/-- How a search fails is told by the policy and the tokens of the types of the candidates. -/
theorem eq_error_of_tokens_eq {n : Module} {ds : List Candidate} {q : Except Failure Selection}
    {fs : List Event} {f : Failure} (h : Outcome policy m cs (.error f) es)
    (h' : Outcome policy n ds q fs)
    (htokens : (ds.map fun d => d.type.token) = cs.map fun c => c.type.token) : q = .error f := by
  cases h with
  | notFound =>
      obtain rfl := List.map_eq_nil_iff.mp htokens
      cases h' with
      | notFound => rfl
  | ambiguous rejects =>
      cases h' with
      | notFound => contradiction
      | ambiguous _ => rw [htokens]
      | found accepts =>
          rw [accepts rejects] at htokens
          simp at htokens

theorem isOk_iff {r : Except Failure Selection} (h : Outcome policy m cs r es) :
    r.isOk = true ↔ cs ≠ [] ∧ (policy = .reject → cs.length = 1) := by
  cases h with
  | notFound => exact ⟨fun h => absurd h Bool.false_ne_true, fun h => absurd rfl h.1⟩
  | @ambiguous c d rest rejects =>
      refine ⟨fun h => absurd h Bool.false_ne_true, ?_⟩
      intro hsingle
      have hlength : rest.length + 2 = 1 := hsingle.2 rejects
      omega
  | @found c rest accepts =>
      refine ⟨fun _ => ⟨List.cons_ne_nil c rest, ?_⟩, fun _ => rfl⟩
      intro rejects
      rw [accepts rejects]
      rfl

/-- A search that fails does not record that it has found a handler. -/
theorem kind_ne_handlerFound {f : Failure} (h : Outcome policy m cs (.error f) es) :
    ∀ e ∈ es, e.kind ≠ .handlerFound := by
  intro e he
  cases h with
  | notFound =>
      obtain rfl := List.mem_singleton.mp he
      exact EventKind.noConfusion
  | ambiguous _ =>
      obtain rfl := List.mem_singleton.mp he
      exact EventKind.noConfusion

/-- A search that succeeds records last, and only then, that it has found the handler. -/
theorem handlerFound_last {x : Selection} (h : Outcome policy m cs (.ok x) es) :
    ∃ earlier e, es = earlier ++ [e] ∧
      e.outline = ⟨.handlerFound, some x.type.token, some x.method.token⟩ ∧
      ∀ e ∈ earlier, e.kind ≠ .handlerFound := by
  cases h with
  | @found c cs _ =>
      refine ⟨_, foundEvent c, rfl, rfl, ?_⟩
      intro e he
      split at he
      · obtain ⟨d, _, rfl⟩ := List.mem_map.mp he
        exact EventKind.noConfusion
      · exact absurd he List.not_mem_nil

/-- Whether a handler is found is on record. -/
theorem exists_ok_iff {r : Except Failure Selection} (h : Outcome policy m cs r es) :
    (∃ x, r = .ok x) ↔ ∃ e ∈ es, e.kind = .handlerFound := by
  cases r with
  | error f =>
      constructor
      · rintro ⟨x, hx⟩
        contradiction
      · rintro ⟨e, he, hkind⟩
        exact absurd hkind (h.kind_ne_handlerFound e he)
  | ok x =>
      obtain ⟨earlier, e, rfl, houtline, _⟩ := h.handlerFound_last
      exact ⟨fun _ => ⟨e, by simp, congrArg Outline.kind houtline⟩, fun _ => ⟨x, rfl⟩⟩

/-- One event of a search that succeeds is of that kind. -/
theorem filter_handlerFound {x : Selection} (h : Outcome policy m cs (.ok x) es) :
    ∃ e, es.filter (fun e => e.kind = .handlerFound) = [e] ∧
      e.outline = ⟨.handlerFound, some x.type.token, some x.method.token⟩ := by
  obtain ⟨earlier, e, rfl, houtline, hearlier⟩ := h.handlerFound_last
  have hkind : e.kind = .handlerFound := congrArg Outline.kind houtline
  have hnone : earlier.filter (fun e => e.kind = .handlerFound) = [] := by
    rw [List.filter_eq_nil_iff]
    intro d hd hdkind
    exact hearlier d hd (of_decide_eq_true hdkind)
  refine ⟨e, ?_, houtline⟩
  rw [List.filter_append, hnone, List.nil_append, List.filter_singleton, hkind]
  rfl

/-- How often it is on record that a handler is found. -/
theorem countP_handlerFound {r : Except Failure Selection} (h : Outcome policy m cs r es) :
    es.countP (fun e => e.kind = .handlerFound) = if r.isOk then 1 else 0 := by
  cases r with
  | error f =>
      rw [List.countP_eq_zero.mpr]
      · rfl
      · intro e he hkind
        exact h.kind_ne_handlerFound e he (of_decide_eq_true hkind)
  | ok x =>
      obtain ⟨e, hfilter, _⟩ := h.filter_handlerFound
      rw [List.countP_eq_length_filter, hfilter]
      rfl

end Outcome

/-! ## Every search has its outcome -/

theorem select_outcome (s : Search) (m : Module) (cs : List Candidate) :
    ∃ r es, Outcome s.policy m cs r es ∧ ∀ j, s.select m j cs = (r, j.recordAll es) := by
  cases cs with
  | nil => exact ⟨_, _, .notFound, fun _ => rfl⟩
  | cons c cs =>
      cases hpolicy : s.policy with
      | first =>
          refine ⟨_, _, .found (fun h => Policy.noConfusion h), fun j => ?_⟩
          simp [select, hpolicy, Journal.recordAll]
      | report =>
          refine ⟨_, _, .found (fun h => Policy.noConfusion h), fun j => ?_⟩
          simp [select, hpolicy, Journal.recordAll]
      | reject =>
          cases cs with
          | nil =>
              refine ⟨_, _, .found fun _ => rfl, fun j => ?_⟩
              simp [select, hpolicy, Journal.recordAll]
          | cons d cs =>
              refine ⟨_, _, .ambiguous rfl, fun j => ?_⟩
              simp [select, hpolicy, Journal.recordAll]

/-- A search that stops at the first candidate makes of it what it would make of all of them. -/
theorem discover_eq_select (s : Search) (m : Module) (j : Journal) :
    s.discover m j =
      s.select m (j.announce (scanned m (s.scan m s.scansAll))) (s.candidates m) := by
  by_cases hfirst : s.policy = .first
  · have hscan : s.scan m s.scansAll = (s.candidates m).take 1 := by
      rw [scan_eq_take]
      simp [scansAll, hfirst]
    unfold discover
    simp only [hscan]
    cases s.candidates m with
    | nil => rfl
    | cons c cs => simp [select, hfirst]
  · have hscan : s.scan m s.scansAll = s.candidates m := by
      rw [scan_eq_take]
      simp [scansAll, hfirst]
    unfold discover
    simp only [hscan]

/-- A search of a module has one outcome, which it adds to whatever the journal holds. -/
theorem discover_outcome (s : Search) (m : Module) :
    ∃ r es, Outcome s.policy m (s.candidates m) r es ∧
      ∀ j, s.discover m j =
        (r, (j.announce (scanned m (s.scan m s.scansAll))).recordAll es) := by
  obtain ⟨r, es, houtcome, hselect⟩ := s.select_outcome m (s.candidates m)
  refine ⟨r, es, houtcome, fun j => ?_⟩
  rw [discover_eq_select, hselect]

/-- A search that stops at the first candidate selects it. -/
theorem fst_discover_of_first {s : Search} (hfirst : s.policy = .first) (m : Module) (j : Journal) :
    (s.discover m j).1 =
      match s.candidates m with
      | [] => .error .notFound
      | c :: _ => .ok c.selection := by
  rw [discover_eq_select]
  cases s.candidates m with
  | nil => rfl
  | cons c cs => simp only [select, hfirst]

/-- The result of a search does not depend on the journal that it writes. -/
theorem fst_discover_eq (s : Search) (m : Module) (j k : Journal) :
    (s.discover m j).1 = (s.discover m k).1 := by
  obtain ⟨r, es, _, hdiscover⟩ := s.discover_outcome m
  rw [hdiscover j, hdiscover k]

theorem exists_outcome (s : Search) (m : Module) (j : Journal) :
    ∃ es, Outcome s.policy m (s.candidates m) (s.discover m j).1 es := by
  obtain ⟨r, es, houtcome, hdiscover⟩ := s.discover_outcome m
  refine ⟨es, ?_⟩
  rw [hdiscover j]
  exact houtcome

theorem outcome_of_empty (s : Search) (m : Module) :
    Outcome s.policy m (s.candidates m) (s.discover m {}).1 (s.discover m {}).2.log.toList := by
  obtain ⟨r, es, houtcome, hdiscover⟩ := s.discover_outcome m
  have hlog : (s.discover m {}).2.log.toList = es := by
    rw [hdiscover, Journal.toList_log_recordAll]
    rfl
  rw [hlog, hdiscover]
  exact houtcome

/-! ## Result and trace -/

/-- A search returns what the policy makes of the full list of candidates, although it may have
looked for the first one only, and although the types may have been looked at side by side: it
fails to find a handler exactly if there is no candidate, it selects nothing but the first
candidate, and only a search that rejects several candidates fails because of them. -/
theorem discover_agrees_with_candidates (s : Search) (m : Module) (j : Journal) :
    ((s.discover m j).1 = .error .notFound ↔ s.candidates m = []) ∧
    (∀ x, (s.discover m j).1 = .ok x ↔
      ∃ c cs, s.candidates m = c :: cs ∧ (s.policy = .reject → cs = []) ∧ x = c.selection) ∧
    (∀ ts, (s.discover m j).1 = .error (.ambiguous ts) ↔
      s.policy = .reject ∧ 2 ≤ (s.candidates m).length ∧
        ts = (s.candidates m).map fun c => c.type.token) ∧
    ((s.candidates m).map fun c => c.type.token).Nodup ∧
    ∀ policy parallel,
      { s with policy := policy, parallel := parallel }.candidates m = s.candidates m := by
  obtain ⟨r, es, houtcome, hdiscover⟩ := s.discover_outcome m
  rw [hdiscover j]
  refine ⟨?_, ?_, ?_, s.nodup_tokens_candidates m, ?_⟩
  · generalize s.candidates m = cs at houtcome
    cases houtcome <;> simp
  · intro x
    generalize s.candidates m = cs at houtcome
    cases houtcome with
    | notFound => simp
    | ambiguous rejects => simp [rejects]
    | found accepts =>
        constructor
        · intro h
          exact ⟨_, _, rfl, accepts, (Except.ok.inj h).symm⟩
        · rintro ⟨c, cs, hcs, _, rfl⟩
          cases hcs
          rfl
  · intro ts
    generalize s.candidates m = cs at houtcome
    cases houtcome with
    | notFound => simp
    | ambiguous rejects => simp [rejects, eq_comm]
    | found accepts =>
        constructor
        · intro h
          contradiction
        · rintro ⟨rejects, hlength, _⟩
          rw [accepts rejects] at hlength
          contradiction
  · intro policy parallel
    apply candidates_congr
    rfl

/-- A search leaves the events of the log as they are and adds the trace of what the policy makes
of the candidates, which are the least hits of the types that have any, in the order of the types. It
has found a handler exactly if it says so, and it says so at most once. -/
theorem discover_appends_trace (s : Search) (m : Module) (j : Journal) :
    s.ListsLeastHits m (s.candidates m) ∧
    ∃ new : List Event,
      (s.discover m j).2.log.toList = j.log.toList ++ new ∧
      (s.candidates m = [] → new.map Event.outline = [⟨.handlerNotFound, none, none⟩]) ∧
      (s.policy = .reject → 2 ≤ (s.candidates m).length →
        new.map Event.outline = [⟨.ambiguousHandler, none, none⟩]) ∧
      (∀ c cs, s.candidates m = c :: cs → (s.policy = .reject → cs = []) →
        ∃ x, (s.discover m j).1 = .ok x ∧
          new.map Event.outline =
            (if s.policy = .report then
              cs.map fun d => ⟨.ambiguousHandler, some d.type.token, some d.method.token⟩
            else []) ++ [⟨.handlerFound, some x.type.token, some x.method.token⟩]) ∧
      ((∃ x, (s.discover m j).1 = .ok x) ↔ ∃ e ∈ new, e.kind = .handlerFound) ∧
      new.countP (fun e => e.kind = .handlerFound) ≤ 1 := by
  obtain ⟨r, es, houtcome, hdiscover⟩ := s.discover_outcome m
  rw [hdiscover j]
  refine ⟨s.listsLeastHits_candidates m, es, ?_, ?_, ?_, ?_, houtcome.exists_ok_iff, ?_⟩
  · simp
  · intro hnil
    rw [hnil] at houtcome
    cases houtcome
    simp
  · intro hrejects hlength
    generalize s.candidates m = cs at houtcome hlength
    cases houtcome with
    | notFound => contradiction
    | ambiguous _ => simp
    | found accepts =>
        rw [accepts hrejects] at hlength
        contradiction
  · intro c cs hcons haccepts
    rw [hcons] at houtcome
    cases houtcome with
    | ambiguous rejects => exact absurd (haccepts rejects) (List.cons_ne_nil _ _)
    | found _ =>
        refine ⟨c.selection, rfl, ?_⟩
        by_cases hreport : s.policy = .report
        · simp [hreport, Candidate.selection]
        · simp [hreport, Candidate.selection]
  · rw [houtcome.countP_handlerFound]
    split <;> decide

end Search

end VmHandler
