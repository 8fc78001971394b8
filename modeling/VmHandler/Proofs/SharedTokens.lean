import VmHandler.Proofs.Lookup

/-!
# Tokens that a type and a method share

The tokens of types are told apart, and so are those of methods, but no token of a type is compared
with one of a method. So a token stands for one type and one method at most. Where it stands for
both, the module finds both under it, and the token occurs twice in the module. The only forests
that are accepted although a token occurs twice are those in which a type shares one with a method.
-/

set_option autoImplicit false

namespace VmHandler

namespace Forest

/-- The tokens of the types of a forest. -/
def typeTokens (forest : Forest) : List Token := (preorder forest).map TypeDecl.token

/-- The tokens of the methods that the types of a forest declare. -/
def methodTokens (forest : Forest) : List Token :=
  ((preorder forest).flatMap TypeDecl.methods).map Method.token

/-- The tokens of all types and of all methods, taken together. -/
def tokens (forest : Forest) : List Token := forest.typeTokens ++ forest.methodTokens

/-- A type and a method of the forest have the token. -/
def Shares (forest : Forest) (token : Token) : Prop :=
  token ∈ forest.typeTokens ∧ token ∈ forest.methodTokens

/-- Where types and methods are told apart among themselves, a token occurs twice only if a type
and a method share it. -/
theorem nodup_tokens_iff {forest : Forest} (htypes : forest.typeTokens.Nodup)
    (hmethods : forest.methodTokens.Nodup) :
    forest.tokens.Nodup ↔ ∀ token, ¬forest.Shares token := by
  rw [tokens, List.nodup_append]
  constructor
  · rintro ⟨-, -, hapart⟩ token ⟨htype, hmethod⟩
    exact hapart token htype token hmethod rfl
  · intro hapart
    refine ⟨htypes, hmethods, fun token htype other hmethod heq => ?_⟩
    exact hapart token ⟨htype, heq ▸ hmethod⟩

end Forest

namespace Module

variable {m : Module}

/-! ## What is found under a token -/

theorem nodup_typeTokens (m : Module) : (Forest.typeTokens m.topLevel).Nodup := by
  rw [Forest.typeTokens, ← m.types_eq_preorder]
  exact m.nodup_tokens

theorem nodup_methodTokens_topLevel (m : Module) : (Forest.methodTokens m.topLevel).Nodup := by
  rw [Forest.methodTokens, ← m.types_eq_preorder]
  exact m.nodup_methodTokens

theorem isSome_type?_iff {token : Token} :
    (m.type? token).isSome = true ↔ token ∈ Forest.typeTokens m.topLevel := by
  rw [Option.isSome_iff_exists, Forest.typeTokens, ← m.types_eq_preorder, List.mem_map]
  simp only [type?_eq_some_iff]

theorem isSome_method?_iff {token : Token} :
    (m.method? token).isSome = true ↔ token ∈ Forest.methodTokens m.topLevel := by
  rw [Option.isSome_iff_exists, Forest.methodTokens, ← m.types_eq_preorder, List.mem_map]
  simp only [method?_eq_some_iff]

/-- A token occurs among distinct ones as often as something is found under it. -/
theorem count_eq_length_toList {α : Type} {tokens : List Token} {token : Token} {found : Option α}
    (hnodup : tokens.Nodup) (hfound : found.isSome = true ↔ token ∈ tokens) :
    tokens.count token = found.toList.length := by
  cases found with
  | none => exact List.count_eq_zero.mpr fun hmem => nomatch hfound.mpr hmem
  | some x => exact List.count_eq_one_of_mem hnodup (hfound.mp rfl)

/-- A token occurs in a module once for the type and once for the method that it finds. -/
theorem count_tokens (m : Module) (token : Token) :
    (Forest.tokens m.topLevel).count token =
      (m.type? token).toList.length + (m.method? token).toList.length := by
  rw [Forest.tokens, List.count_append,
    count_eq_length_toList m.nodup_typeTokens isSome_type?_iff,
    count_eq_length_toList m.nodup_methodTokens_topLevel isSome_method?_iff]

theorem nodup_tokens_topLevel_iff (m : Module) :
    (Forest.tokens m.topLevel).Nodup ↔ ∀ token, m.type? token = none ∨ m.method? token = none := by
  rw [Forest.nodup_tokens_iff m.nodup_typeTokens m.nodup_methodTokens_topLevel]
  refine forall_congr' fun token => ?_
  rw [Forest.Shares, ← isSome_type?_iff, ← isSome_method?_iff, not_and_or,
    Option.not_isSome_iff_eq_none, Option.not_isSome_iff_eq_none]

/-- Tokens that point into different tables are different. -/
theorem not_shares_of_tables {forest : Forest}
    (h : ∀ token ∈ forest.typeTokens, ∀ other ∈ forest.methodTokens, token.table ≠ other.table)
    (token : Token) : ¬forest.Shares token :=
  fun hshares => h token hshares.1 token hshares.2 rfl

/-! ## Forests that are accepted -/

theorem exists_build_iff_tokens {name : String} {forest : Forest} :
    (∃ m, build name forest = .ok m) ↔
      (∀ token ∈ forest.tokens, token.isNull = false) ∧ forest.typeTokens.Nodup ∧
        forest.methodTokens.Nodup := by
  rw [exists_build_eq_ok_iff]
  simp only [Catalog.ofTypes_eq_ok_iff, exists_and_left, exists_eq, and_true, Forest.tokens,
    Forest.typeTokens, Forest.methodTokens, List.forall_mem_append, List.forall_mem_map,
    List.forall_mem_flatMap]
  constructor
  · rintro ⟨⟨hnull, hnodup⟩, hnull', hnodup'⟩
    exact ⟨⟨hnull, hnull'⟩, hnodup, hnodup'⟩
  · rintro ⟨⟨hnull, hnull'⟩, hnodup, hnodup'⟩
    exact ⟨⟨hnull, hnodup⟩, hnull', hnodup'⟩

/-- A forest is accepted although a token occurs more than once in it exactly if no token is null,
types and methods have distinct tokens among themselves, and a type shares its token with a method.
In a forest that is accepted a token occurs once for the type and once for the method that is found
under it, so at most twice; both are found exactly under the shared tokens, and no token occurs
twice exactly if each finds a type or a method at most. There are none that are shared where the
tokens of types and those of methods point into different tables. -/
theorem token_twice_iff_shared (name : String) (forest : Forest) :
    (((∃ m, build name forest = .ok m) ∧ ¬forest.tokens.Nodup) ↔
      (∀ token ∈ forest.tokens, token.isNull = false) ∧ forest.typeTokens.Nodup ∧
        forest.methodTokens.Nodup ∧ ∃ token, forest.Shares token) ∧
    ∀ m, build name forest = .ok m →
      (∀ token, forest.tokens.count token =
        (m.type? token).toList.length + (m.method? token).toList.length) ∧
      (∀ token, (m.type? token).isSome ∧ (m.method? token).isSome ↔ forest.Shares token) ∧
      (forest.tokens.Nodup ↔ ∀ token, m.type? token = none ∨ m.method? token = none) ∧
      ((∀ token ∈ forest.typeTokens, ∀ other ∈ forest.methodTokens, token.table ≠ other.table) →
        forest.tokens.Nodup) := by
  refine ⟨?accepted, fun m hm => ?found⟩
  case accepted =>
    rw [exists_build_iff_tokens, and_assoc, and_assoc]
    refine and_congr_right fun _ => and_congr_right fun htypes => and_congr_right fun hmethods => ?_
    rw [Forest.nodup_tokens_iff htypes hmethods]
    simp only [not_forall, not_not]
  case found =>
    obtain ⟨-, rfl⟩ := build_eq_ok_iff.mp hm
    refine ⟨m.count_tokens, fun token => ?_, m.nodup_tokens_topLevel_iff, fun htables => ?_⟩
    · rw [isSome_type?_iff, isSome_method?_iff, Forest.Shares]
    · rw [Forest.nodup_tokens_iff m.nodup_typeTokens m.nodup_methodTokens_topLevel]
      exact not_shares_of_tables htables

/-- A type that declares a method with its own token. -/
def sharedToken : Forest :=
  [⟨⟨0x02000002⟩, "", "", [{ token := ⟨0x02000002⟩ }], []⟩]

/-- The module of a type and a method with one token finds both under the token. -/
theorem token_twice_iff_shared_sharedToken :
    ∃ m, build "" sharedToken = .ok m ∧ (Forest.tokens sharedToken).count ⟨0x02000002⟩ = 2 ∧
      (m.type? ⟨0x02000002⟩).isSome ∧ (m.method? ⟨0x02000002⟩).isSome := by
  obtain ⟨haccepted, hfound⟩ := token_twice_iff_shared "" sharedToken
  obtain ⟨⟨m, hm⟩, -⟩ := haccepted.mpr
    ⟨by decide, by decide, by decide, ⟨0x02000002⟩, by decide, by decide⟩
  obtain ⟨-, hboth, -⟩ := hfound m hm
  exact ⟨m, hm, by decide, (hboth ⟨0x02000002⟩).mpr ⟨by decide, by decide⟩⟩

/-- A forest is accepted in which a token stands for a type and for a method. -/
theorem token_not_unique_across_kinds :
    ¬∀ (name : String) (forest : Forest) (m : Module), build name forest = .ok m →
      forest.tokens.Nodup ∧ ∀ token, m.type? token = none ∨ m.method? token = none := by
  intro h
  obtain ⟨m, hm⟩ : ∃ m, build "" sharedToken = .ok m :=
    exists_build_iff_tokens.mpr ⟨by decide, by decide, by decide⟩
  have htwice : ¬(Forest.tokens sharedToken).Nodup := by decide
  exact htwice (h "" sharedToken m hm).1

end Module

end VmHandler
