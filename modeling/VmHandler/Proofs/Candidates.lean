import Mathlib.Data.List.Forall2
import Mathlib.Data.List.Nodup
import VmHandler.Proofs.Catalog
import VmHandler.Proofs.Handler

/-!
# The candidates of a module

The four ways to scan a module read one list: a scan for all candidates gives it, whether the types
are looked at side by side or not, and a scan for the first candidate gives its head. The list holds
one entry for each type with a hit, in the order of the types, and each entry names the least hit.
-/

set_option autoImplicit false

namespace VmHandler

namespace Search

/-! ## Four scans, one list -/

/-- Joining the tasks in order gives what looking at one type after the other gives. -/
theorem filterMap_tasksFrom (s : Search) (index : Nat) (ts : List TypeDecl) :
    (s.tasksFrom index ts).filterMap Task.get = s.scanFrom index ts := by
  induction ts generalizing index with
  | nil => rfl
  | cons t ts ih =>
      rw [tasksFrom, scanFrom, ← ih (index + 1)]
      cases s.candidate? index t with
      | none => exact List.filterMap_cons_none rfl
      | some c => exact List.filterMap_cons_some rfl

/-- A scan that stops at the first candidate stops at the first one of all. -/
theorem scanFirstFrom_eq_head? (s : Search) (index : Nat) (ts : List TypeDecl) :
    s.scanFirstFrom index ts = (s.scanFrom index ts).head? := by
  induction ts generalizing index with
  | nil => rfl
  | cons t ts ih =>
      rw [scanFirstFrom, scanFrom]
      cases s.candidate? index t with
      | none => exact ih (index + 1)
      | some c => rfl

theorem candidates_eq_scanFrom (s : Search) (m : Module) :
    s.candidates m = s.scanFrom 0 m.types := by
  unfold candidates scan
  cases s.parallel with
  | false => rfl
  | true => exact s.filterMap_tasksFrom 0 m.types

/-- A scan for all candidates gives all of them, another one at most the first. -/
theorem scan_eq_take (s : Search) (m : Module) (all : Bool) :
    s.scan m all = if all then s.candidates m else (s.candidates m).take 1 := by
  cases all with
  | true => rfl
  | false =>
      rw [candidates_eq_scanFrom, if_neg Bool.false_ne_true, List.take_one]
      unfold scan
      cases s.parallel with
      | false => exact congrArg Option.toList (s.scanFirstFrom_eq_head? 0 m.types)
      | true =>
          rw [← s.filterMap_tasksFrom 0 m.types, List.head?_filterMap]

/-! ## The list and the types -/

/-- Scans of types that are related one by one give candidates that are related one by one. -/
theorem forall₂_scanFrom {s s' : Search} {R : TypeDecl → TypeDecl → Prop}
    {Q : Candidate → Candidate → Prop}
    (hcandidate : ∀ {t u : TypeDecl}, R t u → ∀ index,
      Option.Rel Q (s.candidate? index t) (s'.candidate? index u))
    {ts us : List TypeDecl} (h : List.Forall₂ R ts us) (index : Nat) :
    List.Forall₂ Q (s.scanFrom index ts) (s'.scanFrom index us) := by
  induction h generalizing index with
  | nil => exact .nil
  | @cons t u ts us htu _ ih =>
      have hhead := hcandidate htu index
      rw [scanFrom, scanFrom]
      generalize s.candidate? index t = c, s'.candidate? index u = d at hhead
      cases hhead with
      | none => exact ih (index + 1)
      | some hcd => exact .cons hcd (ih (index + 1))

/-- The list of candidates is made of the types with their positions. -/
theorem scanFrom_eq_filterMap (s : Search) (index : Nat) (ts : List TypeDecl) :
    s.scanFrom index ts = (ts.zipIdx index).filterMap fun p => s.candidate? p.2 p.1 := by
  induction ts generalizing index with
  | nil => rfl
  | cons t ts ih =>
      rw [scanFrom, List.zipIdx_cons, List.filterMap_cons, ih (index + 1)]
      cases s.candidate? index t with
      | none => rfl
      | some c => rfl

/-- Which candidates there are is a matter of what each type is a candidate for. -/
theorem candidates_eq_of_candidate?_eq {s s' : Search}
    (h : ∀ index t, s.candidate? index t = s'.candidate? index t) (m : Module) :
    s.candidates m = s'.candidates m := by
  rw [candidates_eq_scanFrom, candidates_eq_scanFrom, scanFrom_eq_filterMap,
    scanFrom_eq_filterMap]
  congr 1
  funext p
  exact h p.2 p.1

/-- That is a matter of the signatures alone. -/
theorem candidates_congr {s s' : Search} (h : s.signatures = s'.signatures) (m : Module) :
    s.candidates m = s'.candidates m := by
  refine candidates_eq_of_candidate?_eq (fun index t => ?_) m
  rw [candidate?, candidate?, h]

theorem candidate?_eq_some_iff {s : Search} {index : Nat} {t : TypeDecl} {c : Candidate} :
    s.candidate? index t = some c ↔
      c.index = index ∧ c.type = t ∧
        ∃ g, t.handler? s.signatures = some (c.method, g) ∧ g.name = c.signature := by
  rw [candidate?, Option.map_eq_some_iff]
  constructor
  · rintro ⟨⟨h, g⟩, hfound, rfl⟩
    exact ⟨rfl, rfl, g, hfound, rfl⟩
  · obtain ⟨position, type, method, name⟩ := c
    rintro ⟨rfl, rfl, g, hfound, rfl⟩
    exact ⟨(method, g), hfound, rfl⟩

/-- A candidate stands for the type at its position and the handler of that type. -/
theorem mem_candidates_iff {s : Search} {m : Module} {c : Candidate} :
    c ∈ s.candidates m ↔
      m.types[c.index]? = some c.type ∧
        ∃ g, c.type.handler? s.signatures = some (c.method, g) ∧ g.name = c.signature := by
  rw [candidates_eq_scanFrom, scanFrom_eq_filterMap, List.mem_filterMap]
  constructor
  · rintro ⟨⟨t, index⟩, hmem, hc⟩
    obtain ⟨rfl, rfl, hfound⟩ := candidate?_eq_some_iff.mp hc
    exact ⟨List.mk_mem_zipIdx_iff_getElem?.mp hmem, hfound⟩
  · rintro ⟨hget, hfound⟩
    exact ⟨(c.type, c.index), List.mk_mem_zipIdx_iff_getElem?.mpr hget,
      candidate?_eq_some_iff.mpr ⟨rfl, rfl, hfound⟩⟩

/-- Candidates stand in the order of their positions, no two of which are equal. -/
theorem pairwise_index_candidates (s : Search) (m : Module) :
    (s.candidates m).Pairwise fun c d => c.index < d.index := by
  have hpositions : m.types.zipIdx.Pairwise fun p q => p.2 < q.2 := by
    rw [← List.pairwise_map (f := Prod.snd) (R := fun i j => i < j), List.zipIdx_map_snd]
    exact List.pairwise_lt_range'
  rw [candidates_eq_scanFrom, scanFrom_eq_filterMap, List.pairwise_filterMap]
  refine hpositions.imp ?_
  intro p q hlt c hc d hd
  obtain ⟨hcindex, _⟩ := candidate?_eq_some_iff.mp hc
  obtain ⟨hdindex, _⟩ := candidate?_eq_some_iff.mp hd
  rw [hcindex, hdindex]
  exact hlt

/-- The types of the candidates are the types with a handler, in their order. -/
theorem map_type_candidates (s : Search) (m : Module) :
    (s.candidates m).map Candidate.type =
      m.types.filter fun t => (t.handler? s.signatures).isSome := by
  have hscan : ∀ (ts : List TypeDecl) (index : Nat),
      (s.scanFrom index ts).map Candidate.type =
        ts.filter fun t => (t.handler? s.signatures).isSome := by
    intro ts
    induction ts with
    | nil => intro index; rfl
    | cons t ts ih =>
        intro index
        rw [scanFrom, candidate?]
        cases h : t.handler? s.signatures with
        | none => simp [h, ih]
        | some found => simp [h, ih]
  rw [candidates_eq_scanFrom, hscan]

/-- There is a candidate if some type has a handler. -/
theorem candidates_ne_nil_iff {s : Search} {m : Module} :
    s.candidates m ≠ [] ↔ ∃ t ∈ m.types, t.Qualifies s.signatures := by
  rw [ne_eq, ← List.map_eq_nil_iff, map_type_candidates, List.filter_eq_nil_iff]
  simp only [TypeDecl.isSome_handler?_iff_qualifies, not_forall, not_not, exists_prop]

/-- No two candidates share the token of their type. -/
theorem nodup_tokens_candidates (s : Search) (m : Module) :
    ((s.candidates m).map fun c => c.type.token).Nodup := by
  have hsublist : (((s.candidates m).map Candidate.type).map TypeDecl.token).Sublist
      (m.types.map TypeDecl.token) := by
    rw [map_type_candidates]
    exact List.filter_sublist.map TypeDecl.token
  rw [List.map_map] at hsublist
  exact m.nodup_tokens.sublist hsublist

/-- A list that has one candidate for each type some method of which is accepted by some signature,
and no other one: in the order of the positions of the types, and each with the signature and the
method of the least hit of its type. -/
structure ListsLeastHits (s : Search) (m : Module) (cs : List Candidate) : Prop where
  inOrder : cs.Pairwise fun c d => c.index < d.index
  leastHit : ∀ c ∈ cs,
    m.types[c.index]? = some c.type ∧
    ∃ i j g, s.signatures[i]? = some g ∧ g.name = c.signature ∧
      c.type.methods[j]? = some c.method ∧
      IsLeast (c.type.hits s.signatures) (toLex (i, j))
  oneForEach : ∀ t ∈ m.types,
    (∃ g ∈ s.signatures, ∃ h ∈ t.methods, g.accepts h = true) ↔ ∃! c, c ∈ cs ∧ c.type = t

theorem listsLeastHits_candidates (s : Search) (m : Module) :
    s.ListsLeastHits m (s.candidates m) where
  inOrder := s.pairwise_index_candidates m
  leastHit := by
    intro c hc
    obtain ⟨hget, g, hfound, hname⟩ := mem_candidates_iff.mp hc
    obtain ⟨i, j, hg, hmethod, hleast⟩ := TypeDecl.handler?_eq_some_iff.mp hfound
    exact ⟨hget, i, j, g, hg, hname, hmethod, hleast⟩
  oneForEach := by
    intro t ht
    rw [← TypeDecl.hits_nonempty_iff, ← TypeDecl.isSome_handler?_iff]
    constructor
    · intro hsome
      obtain ⟨⟨h, g⟩, hfound⟩ := Option.isSome_iff_exists.mp hsome
      obtain ⟨index, hget⟩ := List.mem_iff_getElem?.mp ht
      refine ⟨⟨index, t, h, g.name⟩, ⟨mem_candidates_iff.mpr ⟨hget, g, hfound, rfl⟩, rfl⟩, ?_⟩
      -- Another candidate of the type would repeat its token.
      rintro c ⟨hc, rfl⟩
      exact List.inj_on_of_nodup_map (s.nodup_tokens_candidates m) hc
        (mem_candidates_iff.mpr ⟨hget, g, hfound, rfl⟩) rfl
    · rintro ⟨c, ⟨hc, rfl⟩, _⟩
      obtain ⟨_, g, hfound, _⟩ := mem_candidates_iff.mp hc
      rw [hfound]
      rfl

/-- There is exactly one candidate for each type some method of which is accepted by some
signature, and no other candidate. Candidates stand in the order of the positions of their types,
and each has the signature and the method of the least hit of its type. -/
theorem candidates_select_least_hits (s : Search) (m : Module) :
    (s.candidates m).Pairwise (fun c d => c.index < d.index) ∧
    (∀ c ∈ s.candidates m,
      m.types[c.index]? = some c.type ∧
      ∃ i j g, s.signatures[i]? = some g ∧ g.name = c.signature ∧
        c.type.methods[j]? = some c.method ∧
        IsLeast (c.type.hits s.signatures) (toLex (i, j))) ∧
    ∀ t ∈ m.types,
      (∃ g ∈ s.signatures, ∃ h ∈ t.methods, g.accepts h = true) ↔
        ∃! c, c ∈ s.candidates m ∧ c.type = t := by
  obtain ⟨horder, hleast, heach⟩ := s.listsLeastHits_candidates m
  exact ⟨horder, hleast, heach⟩

end Search

end VmHandler
