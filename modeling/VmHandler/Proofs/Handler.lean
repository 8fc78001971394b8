import Mathlib.Data.Prod.Lex
import Mathlib.Order.Bounds.Basic
import VmHandler.Search

/-!
# The handler of a type

The search for the handler of one type looks at pairs of positions, that of a signature and that of
a method the signature accepts. What it finds is the lexicographically least such pair: the priority
of the signature decides before the order of the methods does.
-/

set_option autoImplicit false

namespace VmHandler

namespace TypeDecl

/-- The pairs of positions at which a signature accepts a method of the type, priority first. -/
def hits (t : TypeDecl) (signatures : List Signature) : Set (Lex (Nat × Nat)) :=
  { p | ∃ s m, signatures[(ofLex p).1]? = some s ∧ t.methods[(ofLex p).2]? = some m ∧
      s.accepts m = true }

/-- Whether there is a hit does not depend on positions. -/
theorem hits_nonempty_iff {t : TypeDecl} {signatures : List Signature} :
    (t.hits signatures).Nonempty ↔
      ∃ s ∈ signatures, ∃ m ∈ t.methods, s.accepts m = true := by
  constructor
  · rintro ⟨p, s, m, hs, hm, haccepts⟩
    exact ⟨s, List.mem_of_getElem? hs, m, List.mem_of_getElem? hm, haccepts⟩
  · rintro ⟨s, hs, m, hm, haccepts⟩
    obtain ⟨i, hi⟩ := List.mem_iff_getElem?.mp hs
    obtain ⟨j, hj⟩ := List.mem_iff_getElem?.mp hm
    exact ⟨toLex (i, j), s, m, hi, hj, haccepts⟩

/-- The first signature looks at all methods before the next one is tried. -/
theorem handler?_cons (t : TypeDecl) (s : Signature) (signatures : List Signature) :
    t.handler? (s :: signatures) =
      match t.methods.find? s.accepts with
      | some m => some (m, s)
      | none => t.handler? signatures := by
  rw [handler?, List.findSome?_cons]
  cases t.methods.find? s.accepts <;> rfl

/-- No handler is found only if no signature accepts any method. -/
theorem handler?_eq_none_iff {t : TypeDecl} {signatures : List Signature} :
    t.handler? signatures = none ↔ ∀ s ∈ signatures, ∀ m ∈ t.methods, ¬ s.accepts m = true := by
  simp only [handler?, List.findSome?_eq_none_iff, Option.map_eq_none_iff, List.find?_eq_none]

/-- A handler is found if there is a hit. -/
theorem isSome_handler?_iff {t : TypeDecl} {signatures : List Signature} :
    (t.handler? signatures).isSome = true ↔ (t.hits signatures).Nonempty := by
  rw [Option.isSome_iff_ne_none, ne_eq, handler?_eq_none_iff, hits_nonempty_iff]
  simp only [not_forall, not_not, exists_prop]

/-- Some signature accepts some method of the type. -/
def Qualifies (t : TypeDecl) (signatures : List Signature) : Prop :=
  ∃ s ∈ signatures, ∃ m ∈ t.methods, s.accepts m = true

instance (t : TypeDecl) (signatures : List Signature) : Decidable (t.Qualifies signatures) :=
  inferInstanceAs (Decidable (∃ s ∈ signatures, ∃ m ∈ t.methods, s.accepts m = true))

theorem isSome_handler?_iff_qualifies {t : TypeDecl} {signatures : List Signature} :
    (t.handler? signatures).isSome = true ↔ t.Qualifies signatures :=
  isSome_handler?_iff.trans hits_nonempty_iff

theorem handler?_eq_none_iff_not_qualifies {t : TypeDecl} {signatures : List Signature} :
    t.handler? signatures = none ↔ ¬t.Qualifies signatures := by
  rw [← isSome_handler?_iff_qualifies, Option.not_isSome_iff_eq_none]

/-- A signature that finds a handler accepts it. -/
theorem accepts_of_handler?_eq_some {t : TypeDecl} {signatures : List Signature} {m : Method}
    {s : Signature} (h : t.handler? signatures = some (m, s)) :
    s ∈ signatures ∧ m ∈ t.methods ∧ s.accepts m = true := by
  obtain ⟨g, hg, hfind⟩ := List.exists_of_findSome?_eq_some h
  obtain ⟨n, hn, hpair⟩ := Option.map_eq_some_iff.mp hfind
  obtain ⟨rfl, rfl⟩ := Prod.mk.inj hpair
  exact ⟨hg, List.mem_of_find?_eq_some hn, List.find?_some hn⟩

/-- What is found is at the least hit. -/
theorem isLeast_of_handler?_eq_some {t : TypeDecl} {signatures : List Signature} {m : Method}
    {s : Signature} (h : t.handler? signatures = some (m, s)) :
    ∃ i j, signatures[i]? = some s ∧ t.methods[j]? = some m ∧
      IsLeast (t.hits signatures) (toLex (i, j)) := by
  -- The signature stands behind those that accept nothing, the method behind those it refuses.
  obtain ⟨before, s', after, hsplit, hfind, hbefore⟩ := List.findSome?_eq_some_iff.mp h
  obtain ⟨m', hm', hpair⟩ := Option.map_eq_some_iff.mp hfind
  obtain ⟨rfl, rfl⟩ : m' = m ∧ s' = s := by simpa using hpair
  obtain ⟨haccepts, j, hj, hget, hrefuses⟩ := List.find?_eq_some_iff_getElem.mp hm'
  have hs : signatures[before.length]? = some s' := by simp [hsplit]
  have hm : t.methods[j]? = some m' := by rw [List.getElem?_eq_getElem hj, hget]
  refine ⟨before.length, j, hs, hm, ⟨s', m', hs, hm, haccepts⟩, ?_⟩
  rintro p ⟨g, n, hg, hn, hgn⟩
  rw [Prod.Lex.le_iff]
  rcases Nat.lt_trichotomy (ofLex p).1 before.length with hlt | heq | hgt
  · -- An earlier signature accepts nothing.
    have hmem : g ∈ before := by
      rw [hsplit, List.getElem?_append_left hlt] at hg
      exact List.mem_of_getElem? hg
    have hnone := hbefore g hmem
    rw [Option.map_eq_none_iff, List.find?_eq_none] at hnone
    exact absurd hgn (hnone n (List.mem_of_getElem? hn))
  · -- The same signature refuses earlier methods.
    refine Or.inr ⟨heq.symm, ?_⟩
    have hsame : g = s' := by
      rw [heq, hs] at hg
      exact (Option.some.inj hg).symm
    subst hsame
    by_contra hle
    have hlt : (ofLex p).2 < j := Nat.lt_of_not_le hle
    obtain ⟨hbound, rfl⟩ := List.getElem?_eq_some_iff.mp hn
    simpa [hgn] using hrefuses (ofLex p).2 hlt
  · exact Or.inl hgt

/-- The handler of a type is the method at the least hit. -/
theorem handler?_eq_some_iff {t : TypeDecl} {signatures : List Signature} {m : Method}
    {s : Signature} :
    t.handler? signatures = some (m, s) ↔
      ∃ i j, signatures[i]? = some s ∧ t.methods[j]? = some m ∧
        IsLeast (t.hits signatures) (toLex (i, j)) := by
  constructor
  · exact isLeast_of_handler?_eq_some
  · rintro ⟨i, j, hs, hm, hleast⟩
    have hsome : (t.handler? signatures).isSome = true :=
      isSome_handler?_iff.mpr ⟨_, hleast.1⟩
    obtain ⟨⟨m', s'⟩, hfound⟩ := Option.isSome_iff_exists.mp hsome
    obtain ⟨i', j', hs', hm', hleast'⟩ := isLeast_of_handler?_eq_some hfound
    obtain ⟨rfl, rfl⟩ : i = i' ∧ j = j' := by
      simpa using toLex.injective (hleast.unique hleast')
    rw [hs] at hs'
    rw [hm] at hm'
    rw [hfound, Option.some.inj hs', Option.some.inj hm']

-- The method that is declared first is accepted as well, by the signature of lower priority.
example :
    let first : Method := { token := ⟨1⟩ }
    let second : Method :=
      { token := ⟨2⟩, returns := .classType, params := [.classType, .boolean] }
    (TypeDecl.mk ⟨3⟩ "" "" [first, second] []).handler?
        [⟨"old", .legacy, []⟩, ⟨"new", .parameterless, []⟩] =
      some (second, ⟨"old", .legacy, []⟩) := by
  decide

end TypeDecl

end VmHandler
