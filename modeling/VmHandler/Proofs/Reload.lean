import VmHandler.Proofs.Reading
import VmHandler.Proofs.RoundTrip

/-!
# Loading what was loaded and written

The writer spells out every field, so what is written of a module may nest deeper than the text that
it was loaded from: by one bracket at most, which is one too many if the text was as deep as a text
may be. Every other module that is loaded and written is loaded again.
-/

set_option autoImplicit false

namespace VmHandler

open VmHandler.Json

/-! ## Levels of a forest -/

/-- The types that stand inside exactly `n` others. -/
def Forest.level : Nat → Forest → List TypeDecl
  | 0, forest => forest
  | n + 1, forest => level n (forest.flatMap TypeDecl.nested)

namespace Dump

theorem depthOfItems_methods_le_iff {ms : List Method} {n : Nat} :
    depthOfItems (ms.map Method.toValue) ≤ n ↔ ms = [] ∨ 2 ≤ n := by
  rw [depthOfItems_map_le_iff]
  constructor
  · intro h
    cases ms with
    | nil => exact Or.inl rfl
    | cons m ms => exact Or.inr (depth_method m ▸ h m List.mem_cons_self)
  · rintro (rfl | h) m hm
    · contradiction
    · rw [depth_method]
      exact h

theorem depthOfItems_types_le_iff {forest : Forest} {n : Nat} :
    depthOfItems (Forest.toValues forest) ≤ n + 2 ↔
      (∀ t ∈ forest, t.methods = [] ∨ 2 ≤ n) ∧
        depthOfItems (Forest.toValues (forest.flatMap TypeDecl.nested)) ≤ n := by
  have htype (t : TypeDecl) : t.toValue.depth ≤ n + 2 ↔
      (t.methods = [] ∨ 2 ≤ n) ∧ ∀ u ∈ t.nested, u.toValue.depth ≤ n := by
    rw [depth_type, Nat.add_le_add_iff_right, Nat.max_le, depthOfItems_methods_le_iff,
      toValues_eq_map, depthOfItems_map_le_iff]
  rw [toValues_eq_map, toValues_eq_map, depthOfItems_map_le_iff, depthOfItems_map_le_iff,
    List.forall_mem_flatMap, ← forall₂_and]
  exact forall₂_congr fun t _ => htype t

theorem depthOfItems_types_le_one_iff {forest : Forest} :
    depthOfItems (Forest.toValues forest) ≤ 1 ↔ forest = [] := by
  rw [toValues_eq_map, depthOfItems_map_le_iff]
  constructor
  · intro h
    cases forest with
    | nil => rfl
    | cons t ts =>
        have ht := h t List.mem_cons_self
        rw [depth_type] at ht
        omega
  · rintro rfl t ht
    contradiction

/-- A forest is written the deeper the more levels it has; its last level counts for more if there
are methods on it. -/
theorem depthOfItems_types_le_iff_level {forest : Forest} {n : Nat} :
    depthOfItems (Forest.toValues forest) ≤ 2 * n + 3 ↔
      Forest.level (n + 1) forest = [] ∧ ∀ t ∈ Forest.level n forest, t.methods = [] := by
  -- Two brackets for each level: that of the list of its types and that of each of them.
  induction n generalizing forest with
  | zero =>
      rw [depthOfItems_types_le_iff, depthOfItems_types_le_one_iff]
      simp [Forest.level, and_comm]
  | succ n ih =>
      have hmethods : ∀ t ∈ forest, t.methods = [] ∨ 2 ≤ 2 * n + 3 := fun _ _ => Or.inr (by omega)
      rw [show 2 * (n + 1) + 3 = 2 * n + 3 + 2 by omega, depthOfItems_types_le_iff, ih,
        and_iff_right hmethods]
      rfl

end Dump

namespace Module

theorem nesting_toJson (m : Module) :
    nesting m.toJson = depthOfItems (Forest.toValues m.topLevel) + 2 := by
  rw [toJson, Dump.toJson, nesting_compact, Dump.depth_dump]
  rfl

theorem nesting_toJson_le_iff (m : Module) :
    nesting m.toJson ≤ 127 ↔
      Forest.level 62 m.topLevel = [] ∧ ∀ t ∈ Forest.level 61 m.topLevel, t.methods = [] := by
  rw [nesting_toJson, ← Dump.depthOfItems_types_le_iff_level]
  omega

/-- A module that has been loaded is written with at most one bracket more than may be open. -/
theorem nesting_toJson_of_ofJson_eq_ok {s : String} {m : Module} (h : ofJson s = .ok m) :
    nesting m.toJson ≤ 128 := by
  have hread := ofOctets_eq_ok_iff.mp h
  rw [Dump.ofOctets, readWhole] at hread
  split at hread
  · contradiction
  · rename_i d rest hd
    have hdump : d = m.toDump := by
      split at hread
      · exact Except.ok.inj hread
      · contradiction
    rw [toJson, Dump.toJson, nesting_compact, ← hdump]
    exact Dump.ensures_read Dump.maxBrackets _ d rest hd

end Module

/-! ## Types inside each other, and nothing else -/

/-- A type that holds `n` others, each inside the one before. -/
def TypeDecl.chain : Nat → TypeDecl
  | 0 => ⟨⟨1⟩, "", "", [], []⟩
  | n + 1 => ⟨⟨UInt32.ofNat (n + 2)⟩, "", "", [], [chain n]⟩

namespace Dump

/-- The types of a chain without what has its default. -/
def sparseChain : Nat → Value
  | 0 => .object [("token", (TypeDecl.chain 0).token.toValue)]
  | n + 1 =>
      .object
        [("token", (TypeDecl.chain (n + 1)).token.toValue),
          ("nested_types", .list [sparseChain n])]

/-- A dump of a chain without what has its default. -/
def sparse (n : Nat) : Value := .object [("types", .list [sparseChain n])]

theorem reads_sparseChain (n : Nat) : Reads readType (sparseChain n) (TypeDecl.chain n) := by
  rw [funext readType_eq]
  induction n with
  | zero =>
      exact reads_record
        (.cons (readsEntry_field (fun _ => rfl) rfl (reads_token _))
          (.nil _))
        rfl
  | succ n ih =>
      have hnested : Reads readTypes (.list [sparseChain n]) [TypeDecl.chain n] := by
        rw [funext readTypes_eq, funext readType_eq]
        exact reads_list (.cons ih .nil)
      exact reads_record
        (.cons (readsEntry_field (fun _ => rfl) rfl (reads_token _))
        (.cons (readsEntry_field (fun _ => rfl) rfl hnested)
          (.nil _)))
        rfl

theorem reads_sparse (n : Nat) : Reads read (sparse n) ⟨"", [TypeDecl.chain n]⟩ := by
  have htypes : Reads readTypes (.list [sparseChain n]) [TypeDecl.chain n] := by
    rw [funext readTypes_eq]
    exact reads_list (.cons (reads_sparseChain n) .nil)
  exact reads_record (.cons (readsEntry_field (fun _ => rfl) rfl htypes) (.nil _)) rfl

theorem depth_sparseChain (n : Nat) : (sparseChain n).depth = 2 * n + 1 := by
  induction n with
  | zero => rfl
  | succ n ih =>
      simp only [sparseChain, Token.toValue, Value.depth, depthOfItems, depthOfEntries, ih]
      omega

theorem depth_sparse (n : Nat) : (sparse n).depth = 2 * n + 3 := by
  simp only [sparse, Value.depth, depthOfItems, depthOfEntries, depth_sparseChain]
  omega

end Dump

namespace Module

theorem preorder_chain_succ (n : Nat) :
    Forest.preorder [TypeDecl.chain (n + 1)] =
      TypeDecl.chain (n + 1) :: Forest.preorder [TypeDecl.chain n] := by
  rw [Forest.preorder_cons]
  exact List.append_nil _

/-- Each type of a chain has a token of its own, from one up, and no method. -/
theorem mem_preorder_chain {n : Nat} {t : TypeDecl}
    (h : t ∈ Forest.preorder [TypeDecl.chain n]) :
    (∃ k ≤ n, t.token = ⟨UInt32.ofNat (k + 1)⟩) ∧ t.methods = [] := by
  induction n with
  | zero =>
      rw [List.mem_singleton.mp h]
      exact ⟨⟨0, Nat.le_refl 0, rfl⟩, rfl⟩
  | succ n ih =>
      rw [preorder_chain_succ, List.mem_cons] at h
      rcases h with rfl | h
      · exact ⟨⟨n + 1, Nat.le_refl _, rfl⟩, rfl⟩
      · obtain ⟨⟨k, hk, htoken⟩, hmethods⟩ := ih h
        exact ⟨⟨k, Nat.le_succ_of_le hk, htoken⟩, hmethods⟩

theorem nodup_tokens_chain {n : Nat} (h : n + 1 < UInt32.size) :
    ((Forest.preorder [TypeDecl.chain n]).map TypeDecl.token).Nodup := by
  induction n with
  | zero => exact List.nodup_singleton _
  | succ n ih =>
      rw [preorder_chain_succ, List.map_cons, List.nodup_cons]
      refine ⟨fun hmem => ?_, ih (Nat.lt_of_succ_lt h)⟩
      obtain ⟨t, ht, htoken⟩ := List.mem_map.mp hmem
      obtain ⟨⟨k, hk, hk'⟩, _⟩ := mem_preorder_chain ht
      have hvalue : (UInt32.ofNat (k + 1)).toNat = (UInt32.ofNat (n + 2)).toNat :=
        congrArg (fun t => t.value.toNat) (hk'.symm.trans htoken)
      rw [UInt32.toNat_ofNat_of_lt' (by omega), UInt32.toNat_ofNat_of_lt' (by omega)] at hvalue
      omega

theorem exists_build_chain {n : Nat} (h : n + 1 < UInt32.size) :
    ∃ m, build "" [TypeDecl.chain n] = .ok m := by
  have hnull : ∀ t ∈ Forest.preorder [TypeDecl.chain n], t.token.isNull = false := by
    intro t ht
    obtain ⟨⟨k, hk, htoken⟩, _⟩ := mem_preorder_chain ht
    rw [htoken, Token.isNull, decide_eq_false_iff_not, ← UInt32.toNat_inj,
      UInt32.toNat_ofNat_of_lt' (by omega)]
    exact Nat.succ_ne_zero k
  have hmethods : (Forest.preorder [TypeDecl.chain n]).flatMap TypeDecl.methods = [] :=
    List.flatMap_eq_nil_iff.mpr fun t ht => (mem_preorder_chain ht).2
  refine exists_build_eq_ok_iff.mpr ⟨_, Catalog.ofTypes_eq_ok_iff.mpr
    ⟨⟨hnull, nodup_tokens_chain h⟩, ⟨?_, ?_⟩, rfl⟩⟩
  · intro t ht m hm
    rw [(mem_preorder_chain ht).2] at hm
    contradiction
  · rw [hmethods]
    exact List.nodup_nil

/-- A dump of a chain is loaded if its text nests no deeper than a text may. -/
theorem exists_ofJson_sparse {n : Nat} (h : n ≤ 62) :
    ∃ m, ofJson (Dump.sparse n).compact = .ok m ∧ m.topLevel = [TypeDecl.chain n] := by
  obtain ⟨m, hm⟩ := exists_build_chain (n := n) (Nat.lt_of_le_of_lt (Nat.succ_le_succ h) (by decide))
  obtain ⟨hname, hforest⟩ := build_eq_ok_iff.mp hm
  have hdump : m.toDump = ⟨"", [TypeDecl.chain n]⟩ := by rw [toDump, hname, hforest]
  refine ⟨m, ?_, hforest⟩
  rw [ofJson_compact (hdump ▸ Dump.reads_sparse n), nesting_compact, Dump.depth_sparse]
  exact if_pos (by omega)

/-! ## Loading again -/

/-- A module that has been loaded is loaded again from what is written of it, as the same module
and with the same text, unless that text nests one bracket deeper than a text may. It does so exactly
if a type stands inside 62 others, or inside 61 others and declares a method. -/
theorem written_after_loading_loads_again {s : String} {m : Module} (h : ofJson s = .ok m) :
    nesting m.toJson ≤ 128 ∧
      (nesting m.toJson = 128 ↔
        Forest.level 62 m.topLevel ≠ [] ∨ ∃ t ∈ Forest.level 61 m.topLevel, t.methods ≠ []) ∧
      match ofJson m.toJson with
      | .ok m' => nesting m.toJson ≤ 127 ∧ m' = m ∧ m'.toJson = m.toJson
      | .error fault => nesting m.toJson = 128 ∧ fault = .unreadable .tooDeep := by
  have hbound := nesting_toJson_of_ofJson_eq_ok h
  have hdeep : nesting m.toJson = 128 ↔ ¬nesting m.toJson ≤ 127 := by omega
  refine ⟨hbound, ?_, ?_⟩
  · rw [hdeep, nesting_toJson_le_iff, not_and_or]
    simp only [not_forall, ne_eq, exists_prop]
  · by_cases hle : nesting m.toJson ≤ 127
    · rw [ofJson_toJson, if_pos hle]
      exact ⟨hle, rfl, rfl⟩
    · rw [ofJson_toJson, if_neg hle]
      exact ⟨hdeep.mpr hle, rfl⟩

/-- A chain of 62 types is loaded and written and loaded again. -/
theorem chain_of_62_loads_again :
    ∃ m, ofJson (Dump.sparse 61).compact = .ok m ∧
      nesting m.toJson ≤ 128 ∧
      (nesting m.toJson = 128 ↔
        Forest.level 62 m.topLevel ≠ [] ∨ ∃ t ∈ Forest.level 61 m.topLevel, t.methods ≠ []) ∧
      match ofJson m.toJson with
      | .ok m' => nesting m.toJson ≤ 127 ∧ m' = m ∧ m'.toJson = m.toJson
      | .error fault => nesting m.toJson = 128 ∧ fault = .unreadable .tooDeep := by
  obtain ⟨m, hload, _⟩ := exists_ofJson_sparse (n := 61) (by decide)
  exact ⟨m, hload, written_after_loading_loads_again hload⟩

/-- A chain of 63 types is loaded from a text as deep as a text may be. The list of methods and the
list of nested types that are written for the innermost one are a bracket too many. -/
theorem chain_of_63_does_not_load_again :
    ∃ m, ofJson (Dump.sparse 62).compact = .ok m ∧
      ofJson m.toJson = .error (.unreadable .tooDeep) := by
  obtain ⟨m, hload, hforest⟩ := exists_ofJson_sparse (n := 62) (by decide)
  have hdeep : ¬nesting m.toJson ≤ 127 := by
    rw [nesting_toJson_le_iff, hforest]
    rintro ⟨hlevel, _⟩
    exact List.cons_ne_nil (TypeDecl.chain 0) [] hlevel
  exact ⟨m, hload, by rw [ofJson_toJson, if_neg hdeep]⟩

end Module

end VmHandler
