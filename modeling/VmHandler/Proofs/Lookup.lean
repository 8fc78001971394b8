import Mathlib.Algebra.Ring.Nat
import Mathlib.Data.List.Flatten
import Mathlib.Data.List.Perm.Subperm
import Mathlib.Logic.Function.Iterate
import VmHandler.Proofs.Traversal

/-!
# Finding types and methods by token

A forest is that of a module exactly if its tokens tell its types apart and its methods apart and
none of them is null. What a module then finds under a token is all there is under it, and a copy
finds the same.
-/

set_option autoImplicit false

namespace VmHandler

namespace Catalog

theorem mem_typeEntries_iff {ts : List TypeDecl} {token : Token} {t : TypeDecl} :
    (token, t) ∈ typeEntries ts ↔ t ∈ ts ∧ t.token = token := by
  rw [typeEntries, List.mem_map]
  constructor
  · rintro ⟨u, hu, heq⟩
    cases heq
    exact ⟨hu, rfl⟩
  · rintro ⟨ht, rfl⟩
    exact ⟨t, ht, rfl⟩

theorem mem_methodEntries_iff {ts : List TypeDecl} {token : Token} {t : TypeDecl} {h : Method} :
    (token, (t, h)) ∈ methodEntries ts ↔ t ∈ ts ∧ h ∈ t.methods ∧ h.token = token := by
  rw [methodEntries, List.mem_flatMap]
  constructor
  · rintro ⟨u, hu, hmem⟩
    obtain ⟨n, hn, heq⟩ := List.mem_map.mp hmem
    cases heq
    exact ⟨hu, hn, rfl⟩
  · rintro ⟨ht, hh, rfl⟩
    exact ⟨t, ht, List.mem_map.mpr ⟨h, hh, rfl⟩⟩

end Catalog

namespace Module

variable {m : Module}

theorem copy_eq (m : Module) : m.copy = m := eq_of_topLevel rfl rfl

/-! ## What makes a module -/

/-- A module is built from its own name and its own forest, and from no other ones. -/
theorem build_eq_ok_iff {name : String} {forest : Forest} :
    build name forest = .ok m ↔ m.name = name ∧ m.topLevel = forest := by
  unfold build
  constructor
  · intro h
    split at h
    · contradiction
    · rw [← Except.ok.inj h]
      exact ⟨rfl, rfl⟩
  · rintro ⟨rfl, rfl⟩
    split
    · rename_i d hd
      rw [← m.types_eq, m.catalog_eq] at hd
      contradiction
    · exact congrArg Except.ok (eq_of_topLevel rfl rfl)

/-- There is a module of a forest exactly if there is a catalog of its types. -/
theorem exists_build_eq_ok_iff {name : String} {forest : Forest} :
    (∃ m, build name forest = .ok m) ↔
      ∃ c, Catalog.ofTypes (Forest.preorder forest) = .ok c := by
  constructor
  · rintro ⟨m, hm⟩
    obtain ⟨_, rfl⟩ := build_eq_ok_iff.mp hm
    exact ⟨m.catalog, m.types_eq_preorder ▸ m.catalog_eq⟩
  · rintro ⟨c, hc⟩
    rw [← Forest.traverse_eq_preorder] at hc
    exact ⟨⟨name, forest, _, c, rfl, hc⟩, build_eq_ok_iff.mpr ⟨rfl, rfl⟩⟩

/-- A forest whose tokens tell its types apart and its methods apart is that of a module. -/
theorem exists_build_of_tokens (name : String) (forest : Forest)
    (htypes : (∀ t ∈ Forest.preorder forest, t.token.isNull = false) ∧
      ((Forest.preorder forest).map TypeDecl.token).Nodup)
    (hmethods : (∀ t ∈ Forest.preorder forest, ∀ h ∈ t.methods, h.token.isNull = false) ∧
      (((Forest.preorder forest).flatMap TypeDecl.methods).map Method.token).Nodup) :
    ∃ m, build name forest = .ok m ∧ m.types = Forest.preorder forest := by
  obtain ⟨m, hm⟩ : ∃ m, build name forest = .ok m :=
    exists_build_eq_ok_iff.mpr ⟨_, Catalog.ofTypes_eq_ok_iff.mpr ⟨htypes, hmethods, rfl⟩⟩
  have hforest : m.topLevel = forest := (build_eq_ok_iff.mp hm).2
  exact ⟨m, hm, by rw [m.types_eq_preorder, hforest]⟩

/-- A forest with no other tokens of types and no other methods than a module has is that of a
module, too. -/
theorem exists_build_of_subperm (m : Module) (name : String) {forest : Forest}
    (htypes : ((Forest.preorder forest).map TypeDecl.token).Subperm (m.types.map TypeDecl.token))
    (hmethods : ((Forest.preorder forest).flatMap TypeDecl.methods).Subperm
      (m.types.flatMap TypeDecl.methods)) :
    ∃ n, build name forest = .ok n ∧ n.types = Forest.preorder forest := by
  obtain ⟨⟨hnull, hnodup⟩, ⟨hnull', hnodup'⟩, _⟩ := Catalog.ofTypes_eq_ok_iff.mp m.catalog_eq
  refine exists_build_of_tokens name forest ⟨?_, ?_⟩ ⟨?_, ?_⟩
  · intro t ht
    obtain ⟨u, hu, htoken⟩ := List.mem_map.mp (htypes.subset (List.mem_map_of_mem ht))
    rw [← htoken]
    exact hnull u hu
  · obtain ⟨tokens, hperm, hsublist⟩ := htypes
    exact hperm.nodup_iff.mp (hnodup.sublist hsublist)
  · intro t ht h hh
    have hmem := hmethods.subset (List.mem_flatMap_of_mem ht hh)
    obtain ⟨u, hu, hhu⟩ := List.mem_flatMap.mp hmem
    exact hnull' u hu h hhu
  · obtain ⟨hs, hperm, hsublist⟩ := hmethods
    exact (hperm.map Method.token).nodup_iff.mp (hnodup'.sublist (hsublist.map Method.token))

/-- A forest of which a module visits every type, in the same order, is that of a module, too. -/
theorem exists_build_of_sublist (m : Module) (name : String) {forest : Forest}
    (h : (Forest.preorder forest).Sublist m.types) :
    ∃ n, build name forest = .ok n ∧ n.types = Forest.preorder forest :=
  m.exists_build_of_subperm name (h.map TypeDecl.token).subperm
    (h.flatMap TypeDecl.methods).subperm

/-! ## Lookups -/

theorem catalog_entries (m : Module) :
    m.catalog = ⟨.ofList (Catalog.typeEntries m.types), .ofList (Catalog.methodEntries m.types)⟩ :=
  (Catalog.ofTypes_eq_ok_iff.mp m.catalog_eq).2.2

theorem nodup_methodTokens (m : Module) :
    ((m.types.flatMap TypeDecl.methods).map Method.token).Nodup :=
  (Catalog.ofTypes_eq_ok_iff.mp m.catalog_eq).2.1.2

theorem type?_eq_some_iff {token : Token} {t : TypeDecl} :
    m.type? token = some t ↔ t ∈ m.types ∧ t.token = token := by
  rw [type?, Catalog.type?, m.catalog_entries, Catalog.getElem?_ofList_eq_some_iff,
    Catalog.mem_typeEntries_iff]
  rw [Catalog.map_fst_typeEntries]
  exact m.nodup_tokens

theorem methods_getElem?_eq_some_iff {token : Token} {t : TypeDecl} {h : Method} :
    m.catalog.methods[token]? = some (t, h) ↔ t ∈ m.types ∧ h ∈ t.methods ∧ h.token = token := by
  rw [m.catalog_entries, Catalog.getElem?_ofList_eq_some_iff, Catalog.mem_methodEntries_iff]
  rw [Catalog.map_fst_methodEntries]
  exact m.nodup_methodTokens

theorem method?_eq_some_iff {token : Token} {h : Method} :
    m.method? token = some h ↔ h ∈ m.types.flatMap TypeDecl.methods ∧ h.token = token := by
  rw [method?, Catalog.method?, Option.map_eq_some_iff, List.mem_flatMap]
  constructor
  · rintro ⟨⟨t, n⟩, hget, rfl⟩
    obtain ⟨ht, hn, htoken⟩ := methods_getElem?_eq_some_iff.mp hget
    exact ⟨⟨t, ht, hn⟩, htoken⟩
  · rintro ⟨⟨t, ht, hh⟩, htoken⟩
    exact ⟨(t, h), methods_getElem?_eq_some_iff.mpr ⟨ht, hh, htoken⟩, rfl⟩

theorem owner?_eq_some_iff {token : Token} {t : TypeDecl} :
    m.owner? token = some t ↔ t ∈ m.types ∧ ∃ h ∈ t.methods, h.token = token := by
  rw [owner?, Catalog.owner?, Option.map_eq_some_iff]
  constructor
  · rintro ⟨⟨u, h⟩, hget, rfl⟩
    obtain ⟨ht, hh, htoken⟩ := methods_getElem?_eq_some_iff.mp hget
    exact ⟨ht, h, hh, htoken⟩
  · rintro ⟨ht, h, hh, htoken⟩
    exact ⟨(t, h), methods_getElem?_eq_some_iff.mpr ⟨ht, hh, htoken⟩, rfl⟩

theorem isSome_owner? (m : Module) (token : Token) :
    (m.owner? token).isSome = (m.method? token).isSome := by
  rw [owner?, Catalog.owner?, Option.isSome_map, method?, Catalog.method?, Option.isSome_map]

/-- A method has no other owner than the one that is found. -/
theorem owner_unique {h : Method} {t u : TypeDecl} (ht : t ∈ m.types) (hht : h ∈ t.methods)
    (hu : u ∈ m.types) (hhu : h ∈ u.methods) : t = u := by
  have htowner : m.owner? h.token = some t := owner?_eq_some_iff.mpr ⟨ht, h, hht, rfl⟩
  have huowner : m.owner? h.token = some u := owner?_eq_some_iff.mpr ⟨hu, h, hhu, rfl⟩
  exact Option.some.inj (htowner.symm.trans huowner)

/-- The owner of a method finds the method under its token. -/
theorem method?_of_owner?_eq_some {token : Token} {t : TypeDecl} (h : m.owner? token = some t) :
    t.method? token = m.method? token := by
  obtain ⟨ht, n, hn, htoken⟩ := owner?_eq_some_iff.mp h
  rw [TypeDecl.method?]
  cases hfind : t.methods.find? fun x => x.token = token with
  | none => exact absurd (decide_eq_true htoken) (List.find?_eq_none.mp hfind n hn)
  | some x =>
      have hx : x ∈ m.types.flatMap TypeDecl.methods :=
        List.mem_flatMap.mpr ⟨t, ht, List.mem_of_find?_eq_some hfind⟩
      have hxtoken : x.token = token := by simpa using List.find?_some hfind
      exact (method?_eq_some_iff.mpr ⟨hx, hxtoken⟩).symm

theorem methodCount_eq_sum (m : Module) :
    m.methodCount = (m.types.map fun t => t.methods.length).sum := by
  rw [methodCount, m.catalog_entries, Catalog.size_ofList_of_nodup]
  · rw [Catalog.methodEntries, List.length_flatMap]
    simp only [Catalog.ownEntries, List.length_map]
  · rw [Catalog.map_fst_methodEntries]
    exact m.nodup_methodTokens

/-- Where an element is the only one with a property and stands at one place, filtering by the
property leaves it alone. -/
theorem filter_eq_toList {α : Type} {p : α → Bool} {xs : List α} (hnodup : xs.Nodup)
    {found : Option α} (hfound : ∀ x, found = some x ↔ x ∈ xs ∧ p x = true) :
    xs.filter p = found.toList := by
  cases found with
  | none =>
      rw [Option.toList_none, List.filter_eq_nil_iff]
      intro x hx hp
      exact nomatch (hfound x).mpr ⟨hx, hp⟩
  | some x =>
      obtain ⟨hx, hp⟩ := (hfound x).mp rfl
      have honly : ∀ y ∈ xs.filter p, y = x := by
        intro y hy
        obtain ⟨hy, hpy⟩ := List.mem_filter.mp hy
        exact (Option.some.inj ((hfound y).mpr ⟨hy, hpy⟩)).symm
      have hlength := List.nodup_replicate.mp
        (List.eq_replicate_of_mem honly ▸ hnodup.filter p)
      have hpos := List.length_pos_of_mem (List.mem_filter.mpr ⟨hx, hp⟩)
      rw [List.eq_replicate_of_mem honly, Nat.le_antisymm hlength hpos]
      rfl

/-- There is a module of a forest exactly if no token of a type or of a method is null and each of
them occurs once. The module finds under each token the one type and the one method that have it,
and for the method its one owner, which finds the same method; it counts all methods. So does every
copy, and every copy of a copy. -/
theorem build_indexes_tokens (name : String) (forest : Forest) :
    ((∃ m, build name forest = .ok m) ↔
      ((∀ t, Within t forest → t.token.isNull = false) ∧
        ((Forest.preorder forest).map TypeDecl.token).Nodup) ∧
      ((∀ t, Within t forest → ∀ h ∈ t.methods, h.token.isNull = false) ∧
        (((Forest.preorder forest).flatMap TypeDecl.methods).map Method.token).Nodup)) ∧
    ∀ m, build name forest = .ok m →
      (∀ token, m.types.filter (fun t => t.token = token) = (m.type? token).toList) ∧
      (∀ token, (m.types.flatMap TypeDecl.methods).filter (fun h => h.token = token) =
        (m.method? token).toList) ∧
      (∀ token, (m.owner? token).isSome = (m.method? token).isSome) ∧
      (∀ token h, m.method? token = some h → ∃ owner, m.owner? token = some owner ∧
        m.types.filter (fun t => h ∈ t.methods) = [owner] ∧ owner.method? token = some h) ∧
      m.methodCount = (m.types.map fun t => t.methods.length).sum ∧
      ∀ n, (copy^[n] m).type? = m.type? ∧ (copy^[n] m).method? = m.method? ∧
        (copy^[n] m).owner? = m.owner? ∧ (copy^[n] m).methodCount = m.methodCount := by
  refine ⟨?_, ?_⟩
  · rw [exists_build_eq_ok_iff]
    simp only [Catalog.ofTypes_eq_ok_iff, exists_and_left, exists_eq, and_true,
      Forest.mem_preorder_iff]
  · intro m _
    have htypes := m.nodup_types
    have hmethods := List.Nodup.of_map _ m.nodup_methodTokens
    refine ⟨?_, ?_, m.isSome_owner?, ?_, m.methodCount_eq_sum, ?_⟩
    · intro token
      apply filter_eq_toList htypes
      intro t
      rw [type?_eq_some_iff, decide_eq_true_iff]
    · intro token
      apply filter_eq_toList hmethods
      intro h
      rw [method?_eq_some_iff, decide_eq_true_iff]
    · intro token h hmethod
      obtain ⟨owner, howner⟩ : ∃ owner, m.owner? token = some owner := by
        rw [← Option.isSome_iff_exists, isSome_owner?, hmethod]
        rfl
      have hsame : owner.method? token = some h := (method?_of_owner?_eq_some howner).trans hmethod
      have hdeclares : h ∈ owner.methods := List.mem_of_find?_eq_some hsame
      obtain ⟨hin, _⟩ := owner?_eq_some_iff.mp howner
      refine ⟨owner, howner, ?_, hsame⟩
      rw [← Option.toList_some]
      apply filter_eq_toList htypes
      intro t
      rw [decide_eq_true_iff, Option.some.injEq]
      constructor
      · rintro rfl
        exact ⟨hin, hdeclares⟩
      · rintro ⟨ht, hht⟩
        exact owner_unique hin hdeclares ht hht
    · intro n
      have hcopy : copy^[n] m = m := Function.iterate_fixed m.copy_eq n
      rw [hcopy]
      exact ⟨rfl, rfl, rfl, rfl⟩

end Module

end VmHandler
