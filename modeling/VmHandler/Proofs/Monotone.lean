import VmHandler.Proofs.Locals
import VmHandler.Proofs.MethodLists

/-!
# More local variables, fewer requirements

A method that gets more local variables is accepted by no fewer signatures, and a signature that
asks for fewer local variables accepts no fewer methods. The handler of a type may become another
one by this, found by another signature, but never by one of lower priority; and no type loses its
handler.
-/

set_option autoImplicit false

namespace VmHandler

/-! ## Methods and signatures -/

/-- The second method is the first one with local variables of more types. -/
structure Method.Extended (m n : Method) : Prop where
  locals : m.locals ⊆ n.locals
  rest : n = { m with locals := n.locals }

/-- The second signature is the first one with more local variables asked for. -/
structure Signature.Tightened (g k : Signature) : Prop where
  name : k.name = g.name
  shape : k.shape = g.shape
  locals : g.locals ⊆ k.locals

theorem Method.Extended.refl (m : Method) : m.Extended m := ⟨List.Subset.refl _, rfl⟩

theorem Signature.Tightened.refl (g : Signature) : g.Tightened g :=
  ⟨rfl, rfl, List.Subset.refl _⟩

/-- Local variables are no part of a shape. -/
theorem Method.Extended.shapeAccepts_eq {m n : Method} (h : m.Extended n) (shape : Shape) :
    shape.accepts n = shape.accepts m := by
  rw [h.rest]
  cases shape <;> rfl

/-- What the stricter signature accepts is accepted by the other one, also with local variables
added. -/
theorem Signature.Tightened.accepts {g k : Signature} {m n : Method} (hgk : g.Tightened k)
    (hmn : m.Extended n) (h : k.accepts m = true) : g.accepts n = true := by
  unfold Signature.accepts at h ⊢
  rw [Bool.and_eq_true] at h ⊢
  refine ⟨?_, Method.declaresAll_mono hmn.locals hgk.locals h.2⟩
  rw [hmn.shapeAccepts_eq, ← hgk.shape]
  exact h.1

/-- A signature that accepts some method of a list accepts some method of it with local variables
added, also where it asks for fewer. -/
theorem Signature.Tightened.exists_accepts {g k : Signature} {ms ns : List Method}
    (hgk : g.Tightened k) (hmethods : List.Forall₂ Method.Extended ms ns)
    (h : ∃ m ∈ ms, k.accepts m = true) : ∃ n ∈ ns, g.accepts n = true := by
  induction hmethods with
  | nil =>
      obtain ⟨m, hm, _⟩ := h
      exact absurd hm List.not_mem_nil
  | @cons m n ms ns hmn _ ih =>
      obtain ⟨m', hm', haccepts⟩ := h
      rcases List.mem_cons.mp hm' with rfl | hrest
      · exact ⟨n, List.mem_cons_self, hgk.accepts hmn haccepts⟩
      · obtain ⟨n', hn', haccepts'⟩ := ih ⟨m', hrest, haccepts⟩
        exact ⟨n', List.mem_cons_of_mem n hn', haccepts'⟩

/-! ## Priorities -/

namespace TypeDecl

variable {t u : TypeDecl} {g : Signature} {gs ks : List Signature} {i j : Nat}

/-- The handler of a type is found by the signature with a given priority: the signatures in front
of it accept no method of the type. -/
structure FindsAt (t : TypeDecl) (gs : List Signature) (priority : Nat) : Prop where
  found : ∃ h g, t.handler? gs = some (h, g) ∧ gs[priority]? = some g
  refused : ∀ k < priority, ∀ g, gs[k]? = some g → ∀ m ∈ t.methods, ¬g.accepts m = true

theorem not_findsAt_nil : ¬t.FindsAt [] i := by
  rintro ⟨⟨h, g, hfound, _⟩, _⟩
  contradiction

/-- The first signature finds the handler if it accepts any method. -/
theorem findsAt_zero_iff : t.FindsAt (g :: gs) 0 ↔ ∃ m ∈ t.methods, g.accepts m = true := by
  constructor
  · rintro ⟨⟨h, g', hfound, hg⟩, _⟩
    obtain rfl : g = g' := Option.some.inj hg
    obtain ⟨_, hmem, haccepts⟩ := accepts_of_handler?_eq_some hfound
    exact ⟨h, hmem, haccepts⟩
  · rintro ⟨m, hm, haccepts⟩
    obtain ⟨h, hfind⟩ := Option.isSome_iff_exists.mp (List.find?_isSome.mpr ⟨m, hm, haccepts⟩)
    refine ⟨⟨h, g, ?_, rfl⟩, fun k hk => absurd hk (Nat.not_lt_zero k)⟩
    rw [handler?_cons, hfind]

/-- A later one finds it if the first one accepts none and it is found among the others. -/
theorem findsAt_succ_iff :
    t.FindsAt (g :: gs) (i + 1) ↔ (∀ m ∈ t.methods, ¬g.accepts m = true) ∧ t.FindsAt gs i := by
  constructor
  · rintro ⟨⟨h, g', hfound, hg'⟩, hrefused⟩
    have hfirst : ∀ m ∈ t.methods, ¬g.accepts m = true := hrefused 0 (Nat.succ_pos i) g rfl
    rw [handler?_cons, List.find?_eq_none.mpr hfirst] at hfound
    exact ⟨hfirst, ⟨h, g', hfound, hg'⟩, fun k hk => hrefused (k + 1) (Nat.succ_lt_succ hk)⟩
  · rintro ⟨hfirst, ⟨h, g', hfound, hg'⟩, hrefused⟩
    refine ⟨⟨h, g', ?_, hg'⟩, fun k hk => ?_⟩
    · rw [handler?_cons, List.find?_eq_none.mpr hfirst]
      exact hfound
    · cases k with
      | zero =>
          intro k hk'
          obtain rfl : g = k := Option.some.inj hk'
          exact hfirst
      | succ k => exact hrefused k (Nat.lt_of_succ_lt_succ hk)

theorem FindsAt.not_lt (hi : t.FindsAt gs i) (hj : t.FindsAt gs j) : ¬i < j := by
  intro hlt
  obtain ⟨h, g, hfound, hg⟩ := hi.found
  obtain ⟨_, hmem, haccepts⟩ := accepts_of_handler?_eq_some hfound
  exact hj.refused i hlt g hg h hmem haccepts

theorem exists_findsAt (hqualifies : t.Qualifies gs) : ∃ i, t.FindsAt gs i := by
  induction gs with
  | nil =>
      obtain ⟨g, hg, _⟩ := hqualifies
      exact absurd hg List.not_mem_nil
  | cons g gs ih =>
      by_cases hfirst : ∃ m ∈ t.methods, g.accepts m = true
      · exact ⟨0, findsAt_zero_iff.mpr hfirst⟩
      · obtain ⟨g', hg', hlater⟩ := hqualifies
        rcases List.mem_cons.mp hg' with rfl | hrest
        · exact absurd hlater hfirst
        · obtain ⟨i, hi⟩ := ih ⟨g', hrest, hlater⟩
          refine ⟨i + 1, findsAt_succ_iff.mpr ⟨fun m hm haccepts => ?_, hi⟩⟩
          exact hfirst ⟨m, hm, haccepts⟩

/-- A handler is found by a signature of exactly one priority. -/
theorem isSome_handler?_iff_findsAt :
    (t.handler? gs).isSome = true ↔ ∃! i, t.FindsAt gs i := by
  constructor
  · intro hsome
    obtain ⟨i, hi⟩ := exists_findsAt (isSome_handler?_iff_qualifies.mp hsome)
    exact ⟨i, hi, fun j hj => Nat.le_antisymm
      (Nat.le_of_not_lt (hi.not_lt hj)) (Nat.le_of_not_lt (hj.not_lt hi))⟩
  · rintro ⟨i, hi, _⟩
    obtain ⟨h, g, hfound, _⟩ := hi.found
    rw [hfound]
    rfl

/-- Where methods get more local variables and signatures ask for fewer, the handler is found at the
same priority or a higher one. The induction is along the signatures: as long as the first one
accepts nothing on either side, the others decide. -/
theorem FindsAt.exists_le (hgs : List.Forall₂ Signature.Tightened gs ks)
    (hmethods : List.Forall₂ Method.Extended t.methods u.methods) (h : t.FindsAt ks j) :
    ∃ i ≤ j, u.FindsAt gs i := by
  induction hgs generalizing j with
  | nil => exact absurd h not_findsAt_nil
  | @cons g k gs ks hgk _ ih =>
      by_cases hfirst : ∃ n ∈ u.methods, g.accepts n = true
      · exact ⟨0, Nat.zero_le j, findsAt_zero_iff.mpr hfirst⟩
      · cases j with
        | zero => exact absurd (hgk.exists_accepts hmethods (findsAt_zero_iff.mp h)) hfirst
        | succ j =>
            obtain ⟨i, hle, hi⟩ := ih (findsAt_succ_iff.mp h).2
            refine ⟨i + 1, Nat.succ_le_succ hle, findsAt_succ_iff.mpr ⟨?_, hi⟩⟩
            intro n hn haccepts
            exact hfirst ⟨n, hn, haccepts⟩

end TypeDecl

namespace Search

variable {s : Search} {ks : List Signature}

/-! ## Candidates -/

/-- Where signatures ask for more, no type qualifies that did not before. -/
theorem map_type_candidates_sublist (hks : List.Forall₂ Signature.Tightened s.signatures ks)
    (m : Module) :
    (({ s with signatures := ks }.candidates m).map Candidate.type).Sublist
      ((s.candidates m).map Candidate.type) := by
  rw [map_type_candidates, map_type_candidates]
  refine List.monotone_filter_right m.types fun t hstrict => ?_
  obtain ⟨j, hj, _⟩ := TypeDecl.isSome_handler?_iff_findsAt.mp hstrict
  have hsame : List.Forall₂ Method.Extended t.methods t.methods :=
    List.forall₂_same.mpr fun m _ => .refl m
  obtain ⟨i, _, hi⟩ := hj.exists_le hks hsame
  obtain ⟨h, g, hfound, _⟩ := hi.found
  rw [hfound]
  rfl

/-- A handler is found by a signature of exactly one priority. If the methods of a type get more
local variables, the handler is found at the same priority or a higher one. If signatures ask for
more local variables and stay as they are otherwise, a type that still has a handler had one before,
found at the same priority or a higher one, and in no module do other types have a handler than
before. -/
theorem handlers_monotone_in_locals :
    (∀ (t : TypeDecl) (gs : List Signature),
      (t.handler? gs).isSome = true ↔ ∃! j, t.FindsAt gs j) ∧
    (∀ (t u : TypeDecl) (gs : List Signature),
      List.Forall₂ Method.Extended t.methods u.methods →
        ∀ j, t.FindsAt gs j → ∃ i ≤ j, u.FindsAt gs i) ∧
    ∀ gs ks : List Signature, List.Forall₂ Signature.Tightened gs ks →
      (∀ (t : TypeDecl) (j : Nat), t.FindsAt ks j → ∃ i ≤ j, t.FindsAt gs i) ∧
      ∀ (s : Search) (m : Module),
        (({ s with signatures := ks }.candidates m).map Candidate.type).Sublist
          (({ s with signatures := gs }.candidates m).map Candidate.type) := by
  refine ⟨fun t gs => TypeDecl.isSome_handler?_iff_findsAt, ?_, fun gs ks hks => ⟨?_, ?_⟩⟩
  · intro t u gs hmethods j hj
    exact hj.exists_le (List.forall₂_same.mpr fun g _ => .refl g) hmethods
  · intro t j hj
    exact hj.exists_le hks (List.forall₂_same.mpr fun m _ => .refl m)
  · intro s m
    exact map_type_candidates_sublist (s := { s with signatures := gs }) hks m

/-- A type with a new handler and, behind it, a method with the shape of old handlers. -/
def newThenOld (locals : List String) : TypeDecl :=
  ⟨⟨0x02000002⟩, "Vm", "Outer",
    [.newHandler ⟨0x06000001⟩, { Method.oldHandler ⟨0x06000002⟩ with locals := locals }], []⟩

/-- The known signatures, the first of which asks for one local variable more. -/
def oneLocalMore : List Signature :=
  [{ Signature.legacy with locals := "System.String" :: Signature.handlerLocals }, .parameterless]

/-- Without its local variables the second method is no handler, and the first one is found with the
lower priority; with them the second one is found with the higher priority. Once old handlers have
to declare a string, a type with nothing but an old handler has none any more. -/
theorem handlers_monotone_newThenOld :
    (newThenOld []).FindsAt Signature.known 1 ∧
    (∃ i ≤ 1, (newThenOld Signature.handlerLocals).FindsAt Signature.known i) ∧
    (newThenOld Signature.handlerLocals).FindsAt Signature.known 0 ∧
    (newThenOld []).FindsAt oneLocalMore 1 ∧
    (∃ i ≤ 1, (newThenOld []).FindsAt Signature.known i) ∧
    ∃ m, Module.build "vm" (outerAndInner [.oldHandler ⟨0x06000001⟩] [.newHandler ⟨0x06000002⟩]) =
        .ok m ∧
      ((candidates {} m).map fun c => c.type.token) = [⟨0x02000002⟩, ⟨0x02000003⟩] ∧
      ((candidates { signatures := oneLocalMore } m).map fun c => c.type.token) =
        [⟨0x02000003⟩] ∧
      ((candidates { signatures := oneLocalMore } m).map Candidate.type).Sublist
        ((candidates {} m).map Candidate.type) := by
  obtain ⟨_, hmore, hstricter⟩ := handlers_monotone_in_locals
  have hmethods : List.Forall₂ Method.Extended (newThenOld []).methods
      (newThenOld Signature.handlerLocals).methods :=
    .cons (.refl _) (.cons ⟨List.nil_subset _, rfl⟩ .nil)
  have htightened : List.Forall₂ Signature.Tightened Signature.known oneLocalMore :=
    .cons ⟨rfl, rfl, List.subset_cons_self _ _⟩ (.cons (.refl _) .nil)
  obtain ⟨hearlier, hshrinks⟩ := hstricter _ _ htightened
  have hfew : (newThenOld []).FindsAt Signature.known 1 :=
    TypeDecl.findsAt_succ_iff.mpr ⟨by decide, TypeDecl.findsAt_zero_iff.mpr (by decide)⟩
  have hstrict : (newThenOld []).FindsAt oneLocalMore 1 :=
    TypeDecl.findsAt_succ_iff.mpr ⟨by decide, TypeDecl.findsAt_zero_iff.mpr (by decide)⟩
  obtain ⟨m, hm, htypes⟩ := Module.exists_build_of_tokens "vm"
    (outerAndInner [.oldHandler ⟨0x06000001⟩] [.newHandler ⟨0x06000002⟩])
    ⟨by decide, by decide⟩ ⟨by decide, by decide⟩
  refine ⟨hfew, hmore _ _ _ hmethods 1 hfew, TypeDecl.findsAt_zero_iff.mpr (by decide), hstrict,
    hearlier _ 1 hstrict, m, hm, ?_, ?_, hshrinks {} m⟩
  · rw [candidates_eq_scanFrom, htypes]
    decide
  · rw [candidates_eq_scanFrom, htypes]
    decide

end Search

end VmHandler
