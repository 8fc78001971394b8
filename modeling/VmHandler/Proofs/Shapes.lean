import VmHandler.Proofs.MethodLists

/-!
# Shapes and patterns

A pattern accepts the methods that meet each of its constraints. The two shapes with names are
patterns in other words, so it makes no difference to a search which of the two forms a signature
has. A constraint on a class is met by that very class and by no other one. The unknown class is
no exception: who asks for it gets it, and it meets no other constraint.
-/

set_option autoImplicit false

namespace VmHandler

/-! ## What a pattern says -/

namespace Pattern

variable {p : Pattern} {m : Method}

/-- The constraints of a pattern, one by one; what is left open is not constrained. Where parameters
are constrained there are as many of them as constraints. -/
structure Describes (p : Pattern) (m : Method) : Prop where
  static : ∀ b, p.static = some b → m.isStatic = b
  returns : ∀ c, p.returns = some c → m.returns = c
  length : ∀ ws, p.params = some ws → m.params.length = ws.length
  params : ∀ ws, p.params = some ws →
    ∀ (i : Nat) c d, ws[i]? = some (some c) → m.params[i]? = some d → d = c

theorem agrees_iff {α : Type} [DecidableEq α] {wanted : Option α} {actual : α} :
    agrees wanted actual = true ↔ ∀ x, wanted = some x → actual = x := by
  cases wanted with
  | none => simp only [agrees, reduceCtorEq, false_imp_iff, implies_true]
  | some x =>
      rw [agrees, decide_eq_true_eq, eq_comm]
      simp only [Option.some.injEq, forall_eq']

/-- Both lists are followed to their ends, so the lengths agree as well. -/
theorem paramsAgree_iff {ws : List (Option ElementClass)} {cs : List ElementClass} :
    paramsAgree ws cs = true ↔
      cs.length = ws.length ∧
        ∀ (i : Nat) c d, ws[i]? = some (some c) → cs[i]? = some d → d = c := by
  induction ws generalizing cs with
  | nil => cases cs <;> simp [paramsAgree]
  | cons w ws ih =>
      cases cs with
      | nil => simp [paramsAgree]
      | cons d cs =>
          rw [paramsAgree, Bool.and_eq_true, agrees_iff, ih, List.length_cons, List.length_cons,
            Nat.add_right_cancel_iff]
          constructor
          · rintro ⟨hfirst, hlength, hrest⟩
            refine ⟨hlength, fun i => ?_⟩
            cases i with
            | zero =>
                intro c d' hc hd
                rw [← Option.some.inj hd]
                exact hfirst c (Option.some.inj hc)
            | succ i => exact hrest i
          · rintro ⟨hlength, hall⟩
            refine ⟨fun c hc => hall 0 c d ?_ rfl, hlength, fun i => hall (i + 1)⟩
            rw [hc]
            rfl

theorem accepts_iff_describes : p.accepts m = true ↔ p.Describes m := by
  rw [accepts, Bool.and_eq_true, Bool.and_eq_true, agrees_iff, agrees_iff]
  constructor
  · rintro ⟨⟨hstatic, hreturns⟩, hparams⟩
    have hagree : ∀ ws, p.params = some ws → paramsAgree ws m.params = true := by
      intro ws hws
      rwa [hws] at hparams
    exact ⟨hstatic, hreturns, fun ws hws => (paramsAgree_iff.mp (hagree ws hws)).1,
      fun ws hws => (paramsAgree_iff.mp (hagree ws hws)).2⟩
  · rintro ⟨hstatic, hreturns, hlength, hparams⟩
    refine ⟨⟨hstatic, hreturns⟩, ?_⟩
    split
    · rfl
    · rename_i ws hws
      exact paramsAgree_iff.mpr ⟨hlength ws hws, hparams ws hws⟩

/-! ## The named shapes as patterns -/

/-- A class and a truth value in, a class out. -/
def legacy : Pattern where
  static := some false
  returns := some .classType
  params := some [some .classType, some .boolean]

/-- No parameters, any return value. -/
def parameterless : Pattern where
  static := some false
  params := some []

theorem accepts_legacy (m : Method) : legacy.accepts m = m.hasLegacyShape := by
  obtain ⟨token, name, modifiers, returns, params, locals⟩ := m
  unfold accepts Method.hasLegacyShape legacy
  rcases params with _ | ⟨c, _ | ⟨d, _ | ⟨e, params⟩⟩⟩
  · simp [paramsAgree]
  · simp [paramsAgree]
  · simp only [agrees, paramsAgree]
    grind
  · simp [paramsAgree]

theorem accepts_parameterless (m : Method) :
    parameterless.accepts m = m.hasParameterlessShape := by
  obtain ⟨token, name, modifiers, returns, params, locals⟩ := m
  unfold accepts Method.hasParameterlessShape parameterless
  cases params <;> simp [agrees, paramsAgree]

end Pattern

/-- One shape asks for parameters and the other one for none. -/
theorem Method.not_hasLegacyShape_and_hasParameterlessShape (m : Method) :
    ¬(m.hasLegacyShape = true ∧ m.hasParameterlessShape = true) := by
  rintro ⟨hlegacy, hparameterless⟩
  unfold Method.hasLegacyShape at hlegacy
  unfold Method.hasParameterlessShape at hparameterless
  simp only [Bool.and_eq_true, decide_eq_true_eq] at hlegacy hparameterless
  omega

/-- The pattern that says the same as a shape. -/
def Shape.asPattern : Shape → Pattern
  | legacy => .legacy
  | parameterless => .parameterless
  | pattern p => p

theorem Shape.accepts_asPattern (shape : Shape) (m : Method) :
    shape.asPattern.accepts m = shape.accepts m := by
  cases shape with
  | legacy => exact Pattern.accepts_legacy m
  | parameterless => exact Pattern.accepts_parameterless m
  | pattern p => rfl

/-! ## Searches with patterns -/

/-- Signatures with the same name that accept the same methods. -/
structure Signature.Interchangeable (g k : Signature) : Prop where
  name : k.name = g.name
  accepts : ∀ m, k.accepts m = g.accepts m

/-- The second signature is the first one, or it has the pattern of the shape in place of the
shape. -/
structure Signature.Spelled (g k : Signature) : Prop where
  name : k.name = g.name
  locals : k.locals = g.locals
  shape : k.shape = g.shape ∨ k.shape = .pattern g.shape.asPattern

theorem Signature.Spelled.interchangeable {g k : Signature} (h : g.Spelled k) :
    g.Interchangeable k := by
  refine ⟨h.name, fun m => ?_⟩
  have hshape : k.shape.accepts m = g.shape.accepts m := by
    rcases h.shape with hsame | hpattern
    · rw [hsame]
    · rw [hpattern]
      exact g.shape.accepts_asPattern m
  rw [accepts, accepts, hshape, h.locals]

/-- Interchangeable signatures find the same handler under the same name. -/
theorem TypeDecl.map_name_handler?_of_interchangeable {gs ks : List Signature}
    (h : List.Forall₂ Signature.Interchangeable gs ks) (t : TypeDecl) :
    (t.handler? ks).map (fun found => (found.1, found.2.name)) =
      (t.handler? gs).map fun found => (found.1, found.2.name) := by
  induction h with
  | nil => rfl
  | @cons g k gs ks hgk _ ih =>
      have haccepts : k.accepts = g.accepts := funext hgk.accepts
      rw [handler?_cons, handler?_cons, haccepts]
      cases t.methods.find? g.accepts with
      | none => exact ih
      | some m => rw [Option.map_some, Option.map_some, hgk.name]

namespace Search

variable {s s' : Search}

theorem candidate?_of_interchangeable
    (h : List.Forall₂ Signature.Interchangeable s.signatures s'.signatures) (index : Nat)
    (t : TypeDecl) : s'.candidate? index t = s.candidate? index t := by
  have hhandler := congrArg (Option.map fun found => Candidate.mk index t found.1 found.2)
    (TypeDecl.map_name_handler?_of_interchangeable h t)
  rw [Option.map_map, Option.map_map] at hhandler
  exact hhandler

theorem candidates_of_interchangeable
    (h : List.Forall₂ Signature.Interchangeable s.signatures s'.signatures) (m : Module) :
    s'.candidates m = s.candidates m :=
  candidates_eq_of_candidate?_eq (candidate?_of_interchangeable h) m

/-- A search is a matter of its policy and of the candidates, result and journal alike. -/
theorem discover_of_candidates_eq {m : Module} (hpolicy : s'.policy = s.policy)
    (hcandidates : s'.candidates m = s.candidates m) (j : Journal) :
    s'.discover m j = s.discover m j := by
  have hscan : s'.scan m s'.scansAll = s.scan m s.scansAll := by
    rw [scan_eq_take, scan_eq_take, hcandidates, scansAll, scansAll, hpolicy]
  rw [discover_eq_select, discover_eq_select, hscan, hcandidates]
  unfold select
  rw [hpolicy]

/-- The two named shapes are the patterns that constrain a method in the same way, no method has
both, and a pattern accepts the methods that meet each of its constraints. So a search with
patterns in place of shapes, in whatever signatures, lists the same candidates of any module,
returns the same result, and records and announces the same. -/
theorem patterns_replace_shapes :
    (∀ m : Method,
      Pattern.legacy.accepts m = m.hasLegacyShape ∧
      Pattern.parameterless.accepts m = m.hasParameterlessShape ∧
      ¬(m.hasLegacyShape = true ∧ m.hasParameterlessShape = true)) ∧
    (∀ (p : Pattern) (m : Method), p.accepts m = true ↔ p.Describes m) ∧
    ∀ (s : Search) (ks : List Signature), List.Forall₂ Signature.Spelled s.signatures ks →
      ∀ m : Module,
        { s with signatures := ks }.candidates m = s.candidates m ∧
        ∀ j : Journal, { s with signatures := ks }.discover m j = s.discover m j := by
  refine ⟨fun m => ⟨Pattern.accepts_legacy m, Pattern.accepts_parameterless m,
    m.not_hasLegacyShape_and_hasParameterlessShape⟩, fun p m => Pattern.accepts_iff_describes, ?_⟩
  intro s ks hks m
  have hinterchangeable :
      List.Forall₂ Signature.Interchangeable s.signatures
        { s with signatures := ks }.signatures :=
    hks.imp fun _ _ h => h.interchangeable
  have hcandidates := candidates_of_interchangeable hinterchangeable m
  refine ⟨hcandidates, fun j => ?_⟩
  apply discover_of_candidates_eq
  · rfl
  · exact hcandidates

/-- The known signatures, with patterns in place of their shapes. -/
def knownPatterns : List Signature :=
  [⟨"legacy", .pattern .legacy, Signature.handlerLocals⟩,
    ⟨"parameterless", .pattern .parameterless, Signature.handlerLocals⟩]

/-- The patterns find an old handler in a type and a new one in the type nested in it. -/
theorem patterns_replace_shapes_outerAndInner :
    ∃ m,
      Module.build "vm" (outerAndInner [.oldHandler ⟨0x06000001⟩] [.newHandler ⟨0x06000002⟩]) =
        .ok m ∧
      (candidates { signatures := knownPatterns } m).map Candidate.mark =
        [(0, ⟨⟨0x02000002⟩, ⟨0x06000001⟩, "legacy"⟩),
          (1, ⟨⟨0x02000003⟩, ⟨0x06000002⟩, "parameterless"⟩)] ∧
      candidates { signatures := knownPatterns } m = candidates {} m ∧
      ∀ j, discover { signatures := knownPatterns } m j = discover {} m j := by
  obtain ⟨m, hm, htypes⟩ := Module.exists_build_of_tokens "vm"
    (outerAndInner [.oldHandler ⟨0x06000001⟩] [.newHandler ⟨0x06000002⟩])
    ⟨by decide, by decide⟩ ⟨by decide, by decide⟩
  obtain ⟨_, _, hreplace⟩ := patterns_replace_shapes
  have hspelled : List.Forall₂ Signature.Spelled Signature.known knownPatterns :=
    .cons ⟨rfl, rfl, .inr rfl⟩ (.cons ⟨rfl, rfl, .inr rfl⟩ .nil)
  obtain ⟨hcandidates, hdiscover⟩ := hreplace {} knownPatterns hspelled m
  refine ⟨m, hm, ?_, hcandidates, hdiscover⟩
  rw [candidates_eq_scanFrom, htypes]
  decide

end Search

/-! ## The unknown class -/

namespace Pattern

/-- The class that a pattern asks for in the parameter at a position. -/
def param? (p : Pattern) (i : Nat) : Option ElementClass :=
  (p.params.bind fun ws => ws[i]?).join

theorem param?_eq_some_iff {p : Pattern} {i : Nat} {c : ElementClass} :
    p.param? i = some c ↔ ∃ ws, p.params = some ws ∧ ws[i]? = some (some c) := by
  rw [param?, Option.join_eq_some_iff, Option.bind_eq_some_iff]

/-- A method that has what a pattern asks for, and nothing where the pattern is open. -/
def sample (p : Pattern) : Method where
  token := ⟨0x06000001⟩
  modifiers := if p.static = some true then Modifiers.none.markStatic else .none
  returns := p.returns.getD .void
  params := (p.params.getD []).map fun w => w.getD .void

/-- Every pattern accepts some method. -/
theorem describes_sample (p : Pattern) : p.Describes p.sample where
  static b hb := by
    change (if p.static = some true then Modifiers.none.markStatic else .none).isStatic = b
    rw [hb]
    cases b <;> decide
  returns c hc := by rw [sample, hc, Option.getD_some]
  length ws hws := by rw [sample, hws, Option.getD_some, List.length_map]
  params ws hws i c d hc hd := by
    rw [sample, hws, Option.getD_some, List.getElem?_map, hc] at hd
    exact (Option.some.inj hd).symm

end Pattern

namespace Shape

/-- The shape asks for some class where the class in the method is unknown. -/
def AsksWhereUnknown (shape : Shape) (m : Method) : Prop :=
  ((∃ c, shape.asPattern.returns = some c) ∧ m.returns = .unknown) ∨
    ∃ i, (∃ c, shape.asPattern.param? i = some c) ∧ m.params[i]? = some .unknown

/-- The shape asks for the unknown class somewhere. -/
def AsksForUnknown (shape : Shape) : Prop :=
  shape.asPattern.returns = some .unknown ∨ ∃ i, shape.asPattern.param? i = some .unknown

/-- An accepted method has the unknown class only where the shape asks for it or for nothing. -/
theorem eq_unknown_of_accepts {shape : Shape} {m : Method} (h : shape.accepts m = true) :
    (∀ c, shape.asPattern.returns = some c → m.returns = .unknown → c = .unknown) ∧
    ∀ i c, shape.asPattern.param? i = some c → m.params[i]? = some .unknown → c = .unknown := by
  rw [← accepts_asPattern, Pattern.accepts_iff_describes] at h
  constructor
  · intro c hc hunknown
    rw [← h.returns c hc, hunknown]
  · intro i c hc hunknown
    obtain ⟨ws, hws, hget⟩ := Pattern.param?_eq_some_iff.mp hc
    exact (h.params ws hws i c _ hget hunknown).symm

theorem accepts_sample (shape : Shape) : shape.accepts shape.asPattern.sample = true := by
  rw [← accepts_asPattern, Pattern.accepts_iff_describes]
  exact shape.asPattern.describes_sample

theorem asksWhereUnknown_sample {shape : Shape} (h : shape.AsksForUnknown) :
    shape.AsksWhereUnknown shape.asPattern.sample := by
  rcases h with hreturns | ⟨i, hparam⟩
  · refine .inl ⟨⟨_, hreturns⟩, ?_⟩
    exact shape.asPattern.describes_sample.returns _ hreturns
  · refine .inr ⟨i, ⟨_, hparam⟩, ?_⟩
    obtain ⟨ws, hws, hget⟩ := Pattern.param?_eq_some_iff.mp hparam
    rw [Pattern.sample, hws, Option.getD_some, List.getElem?_map, hget]
    rfl

/-- Where a shape asks for a class that is unknown in a method, it refuses the method unless the
unknown class is what it asks for. So the shapes that refuse all such methods are those that never
ask for the unknown class, and the two named shapes are among them. -/
theorem refuses_unknown_iff (shape : Shape) :
    ((∀ m, shape.AsksWhereUnknown m → shape.accepts m = false) ↔ ¬shape.AsksForUnknown) ∧
    (∀ m, shape.accepts m = true →
      (∀ c, shape.asPattern.returns = some c → m.returns = .unknown → c = .unknown) ∧
      ∀ i c, shape.asPattern.param? i = some c → m.params[i]? = some .unknown → c = .unknown) ∧
    ¬legacy.AsksForUnknown ∧ ¬parameterless.AsksForUnknown := by
  refine ⟨⟨?_, ?_⟩, fun m => eq_unknown_of_accepts, ?_, ?_⟩
  · intro hrefuses hasks
    have hrefused := hrefuses _ (asksWhereUnknown_sample hasks)
    rw [accepts_sample] at hrefused
    contradiction
  · intro hasks m hwhere
    by_contra haccepts
    rw [Bool.not_eq_false] at haccepts
    obtain ⟨hreturns, hparams⟩ := eq_unknown_of_accepts haccepts
    rcases hwhere with ⟨⟨c, hc⟩, hunknown⟩ | ⟨i, ⟨c, hc⟩, hunknown⟩
    · exact hasks (.inl (hreturns c hc hunknown ▸ hc))
    · exact hasks (.inr ⟨i, hparams i c hc hunknown ▸ hc⟩)
  · rintro (hreturns | ⟨i, hparam⟩)
    · contradiction
    · obtain ⟨ws, hws, hget⟩ := Pattern.param?_eq_some_iff.mp hparam
      obtain rfl := Option.some.inj hws
      rcases i with _ | _ | i <;> contradiction
  · rintro (hreturns | ⟨i, hparam⟩)
    · contradiction
    · obtain ⟨ws, hws, hget⟩ := Pattern.param?_eq_some_iff.mp hparam
      obtain rfl := Option.some.inj hws
      contradiction

/-- A pattern that asks for a return value and a parameter of unknown class accepts a method with
both. -/
theorem unknown_meets_unknown :
    ¬∀ (shape : Shape) (m : Method), shape.AsksWhereUnknown m → shape.accepts m = false := by
  intro h
  have hrefused : accepts { token := ⟨0x06000001⟩, returns := .unknown, params := [.unknown] }
      (.pattern { returns := some .unknown, params := some [some .unknown] }) = false :=
    h _ _ (.inl ⟨⟨_, rfl⟩, rfl⟩)
  exact absurd hrefused (by decide)

end Shape

end VmHandler
