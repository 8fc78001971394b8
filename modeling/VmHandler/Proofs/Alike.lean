import Mathlib.Data.List.Forall2
import VmHandler.Proofs.Discovery
import VmHandler.Proofs.Lookup

/-!
# Modules that look alike

A search sees the tokens of the types in the order of the visit, and of each method its token,
whether it has an instance, its element classes and which types its local variables have. Modules
that agree in all of this are alike. No step of a search tells them apart, so it marks the same
candidates in both; and what it returns and records is a function of the marks.
-/

set_option autoImplicit false

namespace VmHandler

/-! ## What is looked at -/

/-- Methods that agree in all that a signature judges. Their names, their other modifiers and the
order and number of their local variables may differ. -/
structure Method.Alike (m n : Method) : Prop where
  token : m.token = n.token
  isStatic : m.isStatic = n.isStatic
  returns : m.returns = n.returns
  params : m.params = n.params
  locals : ∀ typeName, typeName ∈ m.locals ↔ typeName ∈ n.locals

/-- Types that agree in their token and, method by method, in what a signature judges. Their names
and the types nested in them may differ. -/
structure TypeDecl.Alike (t u : TypeDecl) : Prop where
  token : t.token = u.token
  methods : List.Forall₂ Method.Alike t.methods u.methods

/-- Modules that agree, position by position of the visit, in what a search looks at. -/
def Module.Alike (m n : Module) : Prop := List.Forall₂ TypeDecl.Alike m.types n.types

/-! ## Signatures -/

namespace Method.Alike

variable {m n : Method}

theorem declares_eq (h : m.Alike n) (typeName : String) :
    m.declares typeName = n.declares typeName := by
  have hmem := h.locals typeName
  rw [Bool.eq_iff_iff, declares, declares, List.contains_iff_mem, List.contains_iff_mem]
  exact hmem

theorem shapeAccepts_eq (h : m.Alike n) (shape : Shape) : shape.accepts m = shape.accepts n := by
  cases shape with
  | legacy => simp only [Shape.accepts, hasLegacyShape, h.isStatic, h.returns, h.params]
  | parameterless => simp only [Shape.accepts, hasParameterlessShape, h.isStatic, h.params]
  | pattern p => simp only [Shape.accepts, Pattern.accepts, h.isStatic, h.returns, h.params]

theorem accepts_eq (h : m.Alike n) (g : Signature) : g.accepts m = g.accepts n := by
  have hdeclares : m.declares = n.declares := funext h.declares_eq
  unfold Signature.accepts declaresAll
  rw [h.shapeAccepts_eq, hdeclares]

end Method.Alike

/-! ## Handlers -/

/-- The first method that a signature accepts has the same token in both lists. -/
theorem Method.map_token_find?_of_alike {ms ns : List Method}
    (h : List.Forall₂ Method.Alike ms ns) (g : Signature) :
    (ms.find? g.accepts).map Method.token = (ns.find? g.accepts).map Method.token := by
  induction h with
  | nil => rfl
  | @cons m n ms ns hmn hrest ih =>
      have haccepts := hmn.accepts_eq g
      rw [List.find?_cons, List.find?_cons, haccepts]
      cases g.accepts n with
      | true => exact congrArg some hmn.token
      | false => exact ih

/-- The same signature finds a handler in both types, and the handlers have the same token. -/
theorem TypeDecl.Alike.map_handler?_eq {t u : TypeDecl} (h : t.Alike u)
    (signatures : List Signature) :
    (t.handler? signatures).map (fun found => (found.1.token, found.2)) =
      (u.handler? signatures).map fun found => (found.1.token, found.2) := by
  unfold TypeDecl.handler?
  rw [List.map_findSome?, List.map_findSome?]
  congr 1
  funext g
  have hfind := Method.map_token_find?_of_alike h.methods g
  have hpair := congrArg (Option.map fun token => (token, g)) hfind
  simpa only [Function.comp_apply, Option.map_map, Function.comp_def] using hpair

/-! ## Candidates -/

/-- What a selection says without names: the tokens of the type and of the handler, and the
signature. -/
structure Mark where
  type : Token
  method : Token
  signature : String
  deriving DecidableEq, Repr

/-- The mark of a selection. -/
def Selection.mark (x : Selection) : Mark := ⟨x.type.token, x.method.token, x.signature⟩

/-- The position and the mark of a candidate. -/
def Candidate.mark (c : Candidate) : Nat × Mark := (c.index, c.selection.mark)

namespace Search

theorem map_mark_candidate? {t u : TypeDecl} (h : t.Alike u) (s : Search) (index : Nat) :
    (s.candidate? index t).map Candidate.mark = (s.candidate? index u).map Candidate.mark := by
  have hhandler := h.map_handler?_eq s.signatures
  have hmark := congrArg
    (Option.map fun found => (index, Mark.mk t.token found.1 found.2.name)) hhandler
  rw [Option.map_map, Option.map_map] at hmark
  rw [candidate?, candidate?, Option.map_map, Option.map_map]
  conv_rhs at hmark => rw [h.token]
  exact hmark

/-- Where the types of two modules are related one by one, and related types give the same marks,
the modules do. -/
theorem map_mark_candidates_of_forall₂ {s : Search} {R : TypeDecl → TypeDecl → Prop}
    (hcandidate : ∀ {t u : TypeDecl}, R t u → ∀ index,
      (s.candidate? index t).map Candidate.mark = (s.candidate? index u).map Candidate.mark)
    {m n : Module} (h : List.Forall₂ R m.types n.types) :
    (s.candidates m).map Candidate.mark = (s.candidates n).map Candidate.mark := by
  have hrel : ∀ {t u : TypeDecl}, R t u → ∀ index,
      Option.Rel (fun c d => c.mark = d.mark) (s.candidate? index t) (s.candidate? index u) := by
    intro t u htu index
    have hmark := hcandidate htu index
    generalize s.candidate? index t = c, s.candidate? index u = d at hmark
    cases c with
    | none =>
        rw [Option.map_none, eq_comm, Option.map_eq_none_iff] at hmark
        rw [hmark]
        exact .none
    | some c =>
        rw [Option.map_some, eq_comm, Option.map_eq_some_iff] at hmark
        obtain ⟨d, rfl, hd⟩ := hmark
        exact .some hd.symm
  rw [candidates_eq_scanFrom, candidates_eq_scanFrom, ← List.forall₂_eq_eq_eq,
    List.forall₂_map_left_iff, List.forall₂_map_right_iff]
  exact forall₂_scanFrom hrel h 0

theorem map_mark_candidates {m n : Module} (h : m.Alike n) (s : Search) :
    (s.candidates m).map Candidate.mark = (s.candidates n).map Candidate.mark :=
  map_mark_candidates_of_forall₂ (fun htu => map_mark_candidate? htu s) h

/-! ## Results and events -/

/-- The result and the events of a search, both without names and words, given the marks of the
candidates. -/
def verdict (policy : Policy) : List Mark → Except Failure Mark × List Outline
  | [] => (.error .notFound, [⟨.handlerNotFound, none, none⟩])
  | c :: cs =>
      if policy = .reject ∧ cs ≠ [] then
        (.error (.ambiguous ((c :: cs).map Mark.type)), [⟨.ambiguousHandler, none, none⟩])
      else
        (.ok c,
          (if policy = .report then
            cs.map fun d => ⟨.ambiguousHandler, some d.type, some d.method⟩
          else []) ++ [⟨.handlerFound, some c.type, some c.method⟩])

theorem Outcome.eq_verdict {policy : Policy} {m : Module} {cs : List Candidate}
    {r : Except Failure Selection} {es : List Event} (h : Outcome policy m cs r es) :
    (r.map Selection.mark, es.map Event.outline) =
      verdict policy (cs.map fun c => c.selection.mark) := by
  cases h with
  | notFound => rfl
  | @ambiguous c d cs rejects =>
      have hseveral : policy = .reject ∧ ((d :: cs).map fun c => c.selection.mark) ≠ [] :=
        ⟨rejects, List.cons_ne_nil _ _⟩
      have htokens : (c.selection.mark :: (d :: cs).map fun c => c.selection.mark).map Mark.type =
          (c :: d :: cs).map fun c => c.type.token := by
        rw [List.map_cons, List.map_map]
        rfl
      change _ = verdict policy (c.selection.mark :: (d :: cs).map fun c => c.selection.mark)
      rw [verdict, if_pos hseveral, htokens]
      rfl
  | @found c cs accepts =>
      have hsingle : ¬(policy = .reject ∧ (cs.map fun c => c.selection.mark) ≠ []) := by
        intro ⟨rejects, hne⟩
        rw [accepts rejects] at hne
        exact hne rfl
      rw [List.map_cons, verdict, if_neg hsingle, List.map_append, List.map_map]
      by_cases hreport : policy = .report
      · rw [if_pos hreport, if_pos hreport, List.map_map]
        rfl
      · rw [if_neg hreport, if_neg hreport]
        rfl

/-- The result of a search, without names, given the marks of the candidates. -/
theorem map_mark_discover (s : Search) (m : Module) (j : Journal) :
    (s.discover m j).1.map Selection.mark =
      (verdict s.policy ((s.candidates m).map fun c => c.selection.mark)).1 := by
  obtain ⟨es, houtcome⟩ := s.exists_outcome m j
  exact congrArg Prod.fst houtcome.eq_verdict

theorem map_mark_discover_of_marks {s : Search} {m : Module} {marks : List (Nat × Mark)}
    (hmarks : (s.candidates m).map Candidate.mark = marks) (j : Journal) :
    (s.discover m j).1.map Selection.mark = (verdict s.policy (marks.map Prod.snd)).1 := by
  rw [map_mark_discover, ← hmarks, List.map_map]
  rfl

theorem exists_of_map_mark_eq_ok {r : Except Failure Selection} {mark : Mark}
    (h : r.map Selection.mark = .ok mark) : ∃ x, r = .ok x ∧ x.mark = mark := by
  cases r with
  | error f => contradiction
  | ok x => exact ⟨x, rfl, Except.ok.inj h⟩

theorem eq_error_of_map_mark_eq_error {r : Except Failure Selection} {f : Failure}
    (h : r.map Selection.mark = .error f) : r = .error f := by
  cases r with
  | error f' => rw [Except.error.inj h]
  | ok x => contradiction

/-- Searches see nothing of a module but its tokens in the order of the visit and, of each method,
whether it has an instance, its element classes and the set of the types of its local variables. Of
modules that agree in this they list the same candidates, up to names; they return the same tokens
and the same signature, or fail for the same reason with the same tokens; and the events that they
add to whatever a log holds are the same up to their words. -/
theorem discover_of_alike {m n : Module} (h : m.Alike n) (s : Search) :
    (s.candidates m).map Candidate.mark = (s.candidates n).map Candidate.mark ∧
    ∀ j k : Journal,
      (s.discover m j).1.map Selection.mark = (s.discover n k).1.map Selection.mark ∧
      ∃ es fs : List Event,
        (s.discover m j).2.log.toList = j.log.toList ++ es ∧
        (s.discover n k).2.log.toList = k.log.toList ++ fs ∧
        es.map Event.outline = fs.map Event.outline := by
  have hcandidates := map_mark_candidates h s
  refine ⟨hcandidates, ?_⟩
  intro j k
  obtain ⟨r, es, houtcome, hdiscover⟩ := s.discover_outcome m
  obtain ⟨q, fs, houtcome', hdiscover'⟩ := s.discover_outcome n
  -- each run has the verdict on its own candidates, and their marks are the same
  have hmarks := congrArg (List.map Prod.snd) hcandidates
  rw [List.map_map, List.map_map] at hmarks
  have hverdict : (r.map Selection.mark, es.map Event.outline) =
      (q.map Selection.mark, fs.map Event.outline) := by
    rw [houtcome.eq_verdict, houtcome'.eq_verdict]
    exact congrArg (verdict s.policy) hmarks
  obtain ⟨hresult, hevents⟩ := Prod.mk.inj hverdict
  rw [hdiscover j, hdiscover' k]
  refine ⟨hresult, es, fs, ?_, ?_, hevents⟩
  · rw [Journal.toList_log_recordAll, Journal.log_announce]
  · rw [Journal.toList_log_recordAll, Journal.log_announce]

/-- A type with a handler, and nested in it another one. -/
def nestedPair : Forest :=
  [⟨⟨0x02000002⟩, "Vm", "Outer",
    [{ token := ⟨0x06000001⟩, name := "Run", locals := Signature.handlerLocals }],
    [⟨⟨0x02000003⟩, "", "Inner",
      [{ token := ⟨0x06000002⟩, name := "Step", locals := Signature.handlerLocals }], []⟩]⟩]

/-- The two types side by side, with other names, other modifiers, and the local variables in
another order or declared twice. -/
def flatPair : Forest :=
  [⟨⟨0x02000002⟩, "", "a",
    [{ token := ⟨0x06000001⟩, name := "b", modifiers := .ofFlags 0x0040,
       locals := Signature.handlerLocals.reverse }], []⟩,
    ⟨⟨0x02000003⟩, "c", "d",
      [{ token := ⟨0x06000002⟩, modifiers := .ofFlags 0x0080,
         locals := Signature.handlerLocals ++ Signature.handlerLocals }], []⟩]

/-- No search tells the nested pair from the flat one; one that finds both types finds them at the
same positions. -/
theorem discover_nestedPair_flatPair :
    ∃ m n : Module, Module.build "first" nestedPair = .ok m ∧
      Module.build "second" flatPair = .ok n ∧ m.Alike n ∧
      (candidates {} m).map Candidate.mark =
        [(0, ⟨⟨0x02000002⟩, ⟨0x06000001⟩, "parameterless"⟩),
          (1, ⟨⟨0x02000003⟩, ⟨0x06000002⟩, "parameterless"⟩)] ∧
      ∀ s : Search,
        (s.candidates m).map Candidate.mark = (s.candidates n).map Candidate.mark ∧
        ∀ j k : Journal,
          (s.discover m j).1.map Selection.mark = (s.discover n k).1.map Selection.mark ∧
          ∃ es fs : List Event,
            (s.discover m j).2.log.toList = j.log.toList ++ es ∧
            (s.discover n k).2.log.toList = k.log.toList ++ fs ∧
            es.map Event.outline = fs.map Event.outline := by
  obtain ⟨m, hm, hmtypes⟩ := Module.exists_build_of_tokens "first" nestedPair
    ⟨by decide, by decide⟩ ⟨by decide, by decide⟩
  obtain ⟨n, hn, hntypes⟩ := Module.exists_build_of_tokens "second" flatPair
    ⟨by decide, by decide⟩ ⟨by decide, by decide⟩
  have houter : ∀ typeName, typeName ∈ Signature.handlerLocals ↔
      typeName ∈ Signature.handlerLocals.reverse := fun _ => List.mem_reverse.symm
  have hinner : ∀ typeName, typeName ∈ Signature.handlerLocals ↔
      typeName ∈ Signature.handlerLocals ++ Signature.handlerLocals := by
    intro typeName
    rw [List.mem_append, or_self]
  have halike : m.Alike n := by
    rw [Module.Alike, hmtypes, hntypes]
    exact .cons ⟨rfl, .cons ⟨rfl, by decide, rfl, rfl, houter⟩ .nil⟩
      (.cons ⟨rfl, .cons ⟨rfl, by decide, rfl, rfl, hinner⟩ .nil⟩ .nil)
  refine ⟨m, n, hm, hn, halike, ?_, fun s => discover_of_alike halike s⟩
  rw [candidates_eq_scanFrom, hmtypes]
  decide

end Search

end VmHandler
