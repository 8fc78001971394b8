import VmHandler.Proofs.Alike

/-!
# One signature more

A signature that is added to a search has the lowest priority: it is asked about a type only if all
others refuse every method of the type. So the handlers that are found without it stay as they are,
and what it adds to the candidates are types without a handler so far. The first candidate may still
become another one, since a type that is added may come earlier in the visit.
-/

set_option autoImplicit false

namespace VmHandler

/-! ## The handler of a type -/

/-- A signature accepts a method of a list and refuses all methods before it. -/
def Signature.AcceptsFirst (g : Signature) (h : Method) (ms : List Method) : Prop :=
  g.accepts h = true ∧
    ∃ before after, ms = before ++ h :: after ∧ ∀ n ∈ before, g.accepts n = false

theorem Signature.find?_accepts_eq_some_iff {g : Signature} {h : Method} {ms : List Method} :
    ms.find? g.accepts = some h ↔ g.AcceptsFirst h ms := by
  simp only [AcceptsFirst, List.find?_eq_some_iff_append, Bool.not_eq_true']

namespace TypeDecl

variable {t : TypeDecl} {gs more : List Signature}

theorem handler?_append (t : TypeDecl) (gs more : List Signature) :
    t.handler? (gs ++ more) = (t.handler? gs).or (t.handler? more) :=
  List.findSome?_append

/-- Signatures of lower priority are not asked about a type that has a handler without them. -/
theorem handler?_append_of_qualifies (hqualifies : t.Qualifies gs) :
    t.handler? (gs ++ more) = t.handler? gs := by
  rw [handler?_append, Option.or_of_isSome (isSome_handler?_iff_qualifies.mpr hqualifies)]

/-- About any other type only they decide. -/
theorem handler?_append_of_not_qualifies (hqualifies : ¬t.Qualifies gs) :
    t.handler? (gs ++ more) = t.handler? more := by
  rw [handler?_append, handler?_eq_none_iff_not_qualifies.mpr hqualifies, Option.none_or]

theorem handler?_singleton_eq_some_iff {g k : Signature} {h : Method} :
    t.handler? [g] = some (h, k) ↔ k = g ∧ g.AcceptsFirst h t.methods := by
  rw [← Signature.find?_accepts_eq_some_iff, handler?, List.findSome?_singleton]
  simp [and_comm, eq_comm]

end TypeDecl

/-! ## Candidates -/

namespace Search

variable {s s' : Search} {more : List Signature}

theorem candidate?_eq_filter (hmore : s'.signatures = s.signatures ++ more) (index : Nat)
    (t : TypeDecl) :
    s.candidate? index t =
      (s'.candidate? index t).filter fun c => c.type.Qualifies s.signatures := by
  unfold candidate?
  rw [hmore]
  by_cases hqualifies : t.Qualifies s.signatures
  · rw [TypeDecl.handler?_append_of_qualifies hqualifies]
    cases t.handler? s.signatures with
    | none => rfl
    | some found => rw [Option.map_some, Option.filter_some, if_pos (decide_eq_true hqualifies)]
  · rw [TypeDecl.handler?_eq_none_iff_not_qualifies.mpr hqualifies]
    cases t.handler? (s.signatures ++ more) with
    | none => rfl
    | some found =>
        rw [Option.map_some, Option.filter_some, if_neg (by simpa using hqualifies),
          Option.map_none]

/-- Without the signatures of lower priority the candidates are those of the types that have a
handler without them. -/
theorem candidates_eq_filter (hmore : s'.signatures = s.signatures ++ more) (m : Module) :
    s.candidates m = (s'.candidates m).filter fun c => c.type.Qualifies s.signatures := by
  rw [candidates_eq_scanFrom, candidates_eq_scanFrom, scanFrom_eq_filterMap,
    scanFrom_eq_filterMap, List.filter_filterMap]
  congr 1
  funext p
  exact candidate?_eq_filter hmore p.2 p.1

/-- With them the first candidate stays the first one, or one that stands before it is added. -/
theorem first_candidate_cases (hmore : s'.signatures = s.signatures ++ more) {m : Module}
    {c : Candidate} {cs : List Candidate} (hcandidates : s.candidates m = c :: cs) :
    ∃ d ds, s'.candidates m = d :: ds ∧
      (d = c ∨ d.index < c.index ∧ ¬d.type.Qualifies s.signatures) := by
  have hfilter := candidates_eq_filter hmore m
  have hordered := s'.pairwise_index_candidates m
  rw [hcandidates] at hfilter
  generalize s'.candidates m = ds at hfilter hordered
  cases ds with
  | nil => contradiction
  | cons d ds =>
      refine ⟨d, ds, rfl, ?_⟩
      by_cases hqualifies : d.type.Qualifies s.signatures
      · rw [List.filter_cons, if_pos (decide_eq_true hqualifies)] at hfilter
        exact Or.inl (List.cons.inj hfilter).1.symm
      · rw [List.filter_cons, if_neg (by simpa using hqualifies)] at hfilter
        have hmem : c ∈ ds := List.mem_of_mem_filter (hfilter ▸ List.mem_cons_self)
        exact Or.inr ⟨List.rel_of_pairwise_cons hordered hmem, hqualifies⟩

/-! ## The added signature -/

/-- A signature that is added to a search leaves every type that has a handler its handler, which is
accepted by the same signature as before; any other type gets the first method that the added
signature accepts, if it accepts any. So the candidates without it are the candidates with it whose
types have a handler without it. A search for the first candidate that succeeds without it succeeds
with it, too, and selects the same, or what the added signature finds in a type that comes earlier
in the visit. -/
theorem appended_signature_conservative (s : Search) (g : Signature) (m : Module) :
    (∀ t : TypeDecl,
      (t.Qualifies s.signatures → ∃ h k, t.handler? s.signatures = some (h, k) ∧
        t.handler? (s.apply (.signature g)).signatures = some (h, k)) ∧
      (¬t.Qualifies s.signatures →
        ∀ h k, t.handler? (s.apply (.signature g)).signatures = some (h, k) ↔
          k = g ∧ g.AcceptsFirst h t.methods)) ∧
    s.candidates m =
      ((s.apply (.signature g)).candidates m).filter (fun c => c.type.Qualifies s.signatures) ∧
    ∀ j j' x, s.policy = .first → (s.discover m j).1 = .ok x →
      ∃ y, ((s.apply (.signature g)).discover m j').1 = .ok y ∧
        (y = x ∨
          (∃ i k : Nat, i < k ∧ m.types[i]? = some y.type ∧ m.types[k]? = some x.type) ∧
            ¬y.type.Qualifies s.signatures ∧ y.signature = g.name ∧
            g.AcceptsFirst y.method y.type.methods) := by
  have hmore : (s.apply (.signature g)).signatures = s.signatures ++ [g] := rfl
  refine ⟨fun t => ⟨?kept, ?added⟩, candidates_eq_filter hmore m, ?first⟩
  case kept =>
    intro hqualifies
    obtain ⟨⟨h, k⟩, hfound⟩ := Option.isSome_iff_exists.mp
      (TypeDecl.isSome_handler?_iff_qualifies.mpr hqualifies)
    exact ⟨h, k, hfound, (TypeDecl.handler?_append_of_qualifies hqualifies).trans hfound⟩
  case added =>
    intro hqualifies h k
    rw [hmore, TypeDecl.handler?_append_of_not_qualifies hqualifies,
      TypeDecl.handler?_singleton_eq_some_iff]
  case first =>
    intro j j' x hfirst hx
    obtain ⟨es, houtcome⟩ := s.exists_outcome m j
    rw [hx] at houtcome
    obtain ⟨c, cs, hcandidates, rfl⟩ := houtcome.exists_cons_of_ok
    obtain ⟨d, ds, hcandidates', hd⟩ := first_candidate_cases hmore hcandidates
    have hfirst' : (s.apply (.signature g)).policy = .first := hfirst
    refine ⟨d.selection, ?_, ?_⟩
    · rw [fst_discover_of_first hfirst', hcandidates']
    · rcases hd with rfl | ⟨hearlier, hqualifies⟩
      · exact Or.inl rfl
      · obtain ⟨hc, _⟩ := mem_candidates_iff.mp (hcandidates ▸ List.mem_cons_self)
        obtain ⟨hdtype, k, hfound, hname⟩ :=
          mem_candidates_iff.mp (hcandidates' ▸ List.mem_cons_self)
        rw [hmore, TypeDecl.handler?_append_of_not_qualifies hqualifies,
          TypeDecl.handler?_singleton_eq_some_iff] at hfound
        obtain ⟨rfl, hacceptsFirst⟩ := hfound
        exact Or.inr ⟨⟨d.index, c.index, hearlier, hdtype, hc⟩, hqualifies, hname.symm,
          hacceptsFirst⟩

/-- A signature that accepts every method. -/
def anyMethod : Signature := ⟨"any", .pattern {}, []⟩

/-- A type without a handler of a known generation, and behind it one whose handler comes second. -/
def earlyAndLate : Forest :=
  [⟨⟨0x02000002⟩, "Vm", "Early", [{ token := ⟨0x06000001⟩, name := "Main" }], []⟩,
    ⟨⟨0x02000003⟩, "Vm", "Late",
      [{ token := ⟨0x06000002⟩, name := "Load" },
        { token := ⟨0x06000003⟩, name := "Run", locals := Signature.handlerLocals }], []⟩]

/-- A signature that accepts every method leaves the later type its handler, but the search selects
the earlier type by it. -/
theorem appended_signature_earlyAndLate :
    ∃ m x y, Module.build "vm" earlyAndLate = .ok m ∧
      (candidates {} m).map Candidate.mark =
        [(1, ⟨⟨0x02000003⟩, ⟨0x06000003⟩, "parameterless"⟩)] ∧
      (candidates (apply {} (.signature anyMethod)) m).map Candidate.mark =
        [(0, ⟨⟨0x02000002⟩, ⟨0x06000001⟩, "any"⟩),
          (1, ⟨⟨0x02000003⟩, ⟨0x06000003⟩, "parameterless"⟩)] ∧
      (discover {} m {}).1 = .ok x ∧
      (discover (apply {} (.signature anyMethod)) m {}).1 = .ok y ∧
      (∃ i k : Nat, i < k ∧ m.types[i]? = some y.type ∧ m.types[k]? = some x.type) ∧
      anyMethod.AcceptsFirst y.method y.type.methods := by
  obtain ⟨m, hm, htypes⟩ := Module.exists_build_of_tokens "vm" earlyAndLate
    ⟨by decide, by decide⟩ ⟨by decide, by decide⟩
  have hmarks : (candidates {} m).map Candidate.mark =
      [(1, ⟨⟨0x02000003⟩, ⟨0x06000003⟩, "parameterless"⟩)] := by
    rw [candidates_eq_scanFrom, htypes]
    decide
  have hmarks' : (candidates (apply {} (.signature anyMethod)) m).map Candidate.mark =
      [(0, ⟨⟨0x02000002⟩, ⟨0x06000001⟩, "any"⟩),
        (1, ⟨⟨0x02000003⟩, ⟨0x06000003⟩, "parameterless"⟩)] := by
    rw [candidates_eq_scanFrom, htypes]
    decide
  obtain ⟨x, hx, hxmark⟩ := exists_of_map_mark_eq_ok (map_mark_discover_of_marks hmarks {})
  obtain ⟨z, hz, hzmark⟩ := exists_of_map_mark_eq_ok (map_mark_discover_of_marks hmarks' {})
  obtain ⟨_, _, hfirst⟩ := appended_signature_conservative {} anyMethod m
  obtain ⟨y, hy, hselected⟩ := hfirst {} {} x rfl hx
  refine ⟨m, x, y, hm, hmarks, hmarks', hx, hy, ?_⟩
  rcases hselected with hsame | ⟨hearlier, _, _, haccepts⟩
  · -- the two selections have different tokens
    have hmark : z.mark = x.mark := by rw [Except.ok.inj (hz.symm.trans hy), hsame]
    rw [hxmark, hzmark] at hmark
    exact absurd hmark (by decide)
  · exact ⟨hearlier, haccepts⟩

end Search

end VmHandler
