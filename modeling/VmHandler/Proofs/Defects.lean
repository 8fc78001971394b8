import Mathlib.Logic.Function.Basic
import VmHandler.Dump.Load
import VmHandler.Proofs.Lookup
import VmHandler.Proofs.TokenText

/-!
# The first defect of a forest

The tokens of a forest are checked one by one: type by type in preorder, the token of a type before
those of its methods. A check fails if its token is null, or else if an earlier check of the same
kind was about the same token. A forest that is rejected is rejected for the first check that fails,
and the text of the rejection tells which one that is.

Filling a catalog is the same run of checks. What carries the proof is that the catalog holds
exactly the tokens of the checks so far.
-/

set_option autoImplicit false

namespace VmHandler

/-! ## Checks in order -/

/-- The check of one token. -/
inductive Check where
  /-- the token of a type -/
  | type (t : TypeDecl)
  /-- the token of a method that a type declares -/
  | method (owner : TypeDecl) (m : Method)

/-- The checks of a type: its own token, then those of its methods in order of declaration. -/
def TypeDecl.checks (t : TypeDecl) : List Check := .type t :: t.methods.map (.method t)

/-- The checks of a forest: those of each type in preorder. -/
def Forest.checks (forest : Forest) : List Check := (preorder forest).flatMap TypeDecl.checks

/-- A check fails with a defect, given the checks before it. Null comes before repeated. -/
inductive Check.Fails (before : List Check) : Check → Defect → Prop where
  /-- a type with the null token is reported with its name -/
  | nullType {t : TypeDecl} (hnull : t.token.isNull = true) :
      Fails before (.type t) (.nullType t.name)
  /-- a type whose token an earlier type has is reported with the token -/
  | repeatedType {t u : TypeDecl} (hnull : t.token.isNull = false)
      (hearlier : .type u ∈ before) (hsame : u.token = t.token) :
      Fails before (.type t) (.repeatedType t.token)
  /-- a method with the null token is reported with its name and the token of its type -/
  | nullMethod {owner : TypeDecl} {m : Method} (hnull : m.token.isNull = true) :
      Fails before (.method owner m) (.nullMethod m.name owner.token)
  /-- a method whose token an earlier method has, of whatever type, is reported with the token -/
  | repeatedMethod {owner other : TypeDecl} {m n : Method} (hnull : m.token.isNull = false)
      (hearlier : .method other n ∈ before) (hsame : n.token = m.token) :
      Fails before (.method owner m) (.repeatedMethod m.token)

section Fails

variable {before : List Check} {d : Defect}

theorem Check.fails_type_iff {t : TypeDecl} :
    Fails before (.type t) d ↔
      if t.token.isNull then d = .nullType t.name
      else (∃ u, .type u ∈ before ∧ u.token = t.token) ∧ d = .repeatedType t.token := by
  constructor
  · intro h
    cases h with
    | nullType hnull => simp [hnull]
    | repeatedType hnull hearlier hsame => simpa [hnull] using ⟨_, hearlier, hsame⟩
  · intro h
    split at h
    · rename_i hnull
      exact h ▸ Fails.nullType hnull
    · rename_i hnull
      obtain ⟨⟨u, hearlier, hsame⟩, rfl⟩ := h
      exact Fails.repeatedType (by simpa using hnull) hearlier hsame

theorem Check.fails_method_iff {owner : TypeDecl} {m : Method} :
    Fails before (.method owner m) d ↔
      if m.token.isNull then d = .nullMethod m.name owner.token
      else (∃ other n, .method other n ∈ before ∧ n.token = m.token) ∧
        d = .repeatedMethod m.token := by
  constructor
  · intro h
    cases h with
    | nullMethod hnull => simp [hnull]
    | repeatedMethod hnull hearlier hsame => simpa [hnull] using ⟨_, _, hearlier, hsame⟩
  · intro h
    split at h
    · rename_i hnull
      exact h ▸ Fails.nullMethod hnull
    · rename_i hnull
      obtain ⟨⟨other, n, hearlier, hsame⟩, rfl⟩ := h
      exact Fails.repeatedMethod (by simpa using hnull) hearlier hsame

end Fails

/-- The defect of the first check that fails, where `before` have been passed already. -/
def FirstDefect (before checks : List Check) (d : Defect) : Prop :=
  ∃ passed check later, checks = passed ++ check :: later ∧
    check.Fails (before ++ passed) d ∧
    ∀ earlier c between, passed = earlier ++ c :: between → ∀ d', ¬c.Fails (before ++ earlier) d'

theorem not_firstDefect_nil {before : List Check} {d : Defect} : ¬FirstDefect before [] d := by
  rintro ⟨passed, check, later, h, _⟩
  simp at h

/-- The first check that fails is the next one, or the next one is passed and it is a later one. -/
theorem firstDefect_cons_iff {before checks : List Check} {check : Check} {d : Defect} :
    FirstDefect before (check :: checks) d ↔
      check.Fails before d ∨
        (∀ d', ¬check.Fails before d') ∧ FirstDefect (before ++ [check]) checks d := by
  constructor
  · rintro ⟨passed, c, later, h, hfails, hpassed⟩
    cases passed with
    | nil =>
        simp only [List.nil_append, List.cons.injEq] at h
        obtain ⟨rfl, rfl⟩ := h
        exact Or.inl (by simpa using hfails)
    | cons p passed =>
        simp only [List.cons_append, List.cons.injEq] at h
        obtain ⟨rfl, rfl⟩ := h
        refine Or.inr ⟨by simpa using hpassed [] check passed rfl, passed, c, later, rfl, ?_, ?_⟩
        · simpa using hfails
        · intro earlier e between heq
          simpa using hpassed (check :: earlier) e between (by simp [heq])
  · rintro (hfails | ⟨hnext, passed, c, later, rfl, hfails, hpassed⟩)
    · refine ⟨[], check, checks, rfl, by simpa using hfails, fun earlier e between heq => ?_⟩
      simp at heq
    · refine ⟨check :: passed, c, later, rfl, by simpa using hfails, ?_⟩
      intro earlier e between heq
      cases earlier with
      | nil =>
          simp only [List.nil_append, List.cons.injEq] at heq
          obtain ⟨rfl, _⟩ := heq
          simpa using hnext
      | cons e' earlier =>
          simp only [List.cons_append, List.cons.injEq] at heq
          obtain ⟨rfl, heq⟩ := heq
          simpa using hpassed earlier e between heq

/-! ## A catalog during the checks -/

namespace Catalog

/-- The catalog after a check, which adds a type without its methods or a method. -/
def after (c : Catalog) : Check → Except Defect Catalog
  | .type t =>
      if t.token.isNull then .error (.nullType t.name)
      else if c.types.contains t.token then .error (.repeatedType t.token)
      else .ok { c with types := c.types.insert t.token t }
  | .method owner m => c.addMethod owner m

/-- The catalog after several checks. -/
def afterAll (c : Catalog) : List Check → Except Defect Catalog
  | [] => .ok c
  | check :: checks =>
      match c.after check with
      | .error d => .error d
      | .ok c => afterAll c checks

theorem afterAll_append (c : Catalog) (xs ys : List Check) :
    c.afterAll (xs ++ ys) =
      match c.afterAll xs with
      | .error d => .error d
      | .ok c => c.afterAll ys := by
  induction xs generalizing c with
  | nil => rfl
  | cons x xs ih =>
      rw [List.cons_append, afterAll, afterAll]
      cases c.after x with
      | error d => rfl
      | ok next => exact ih next

theorem addMethods_eq_afterAll (c : Catalog) (owner : TypeDecl) (ms : List Method) :
    c.addMethods owner ms = c.afterAll (ms.map (.method owner)) := by
  induction ms generalizing c with
  | nil => rfl
  | cons m ms ih =>
      rw [addMethods, List.map_cons, afterAll, after]
      cases c.addMethod owner m with
      | error d => rfl
      | ok next => exact ih next

theorem addType_eq_afterAll (c : Catalog) (t : TypeDecl) : c.addType t = c.afterAll t.checks := by
  simp only [addType, TypeDecl.checks, afterAll, after]
  split
  · rfl
  · split
    · rfl
    · exact addMethods_eq_afterAll _ t t.methods

theorem addTypes_eq_afterAll (c : Catalog) (ts : List TypeDecl) :
    c.addTypes ts = c.afterAll (ts.flatMap TypeDecl.checks) := by
  induction ts generalizing c with
  | nil => rfl
  | cons t ts ih =>
      rw [addTypes, List.flatMap_cons, afterAll_append, ← addType_eq_afterAll]
      cases c.addType t with
      | error d => rfl
      | ok next => exact ih next

/-- The catalog holds the tokens of the checks so far, those of types and of methods apart. -/
structure Holds (c : Catalog) (before : List Check) : Prop where
  types : ∀ token, token ∈ c.types ↔ ∃ t, .type t ∈ before ∧ t.token = token
  methods : ∀ token, token ∈ c.methods ↔ ∃ owner m, .method owner m ∈ before ∧ m.token = token

variable {c : Catalog} {before : List Check}

theorem holds_empty : empty.Holds [] :=
  ⟨fun _ => by simp [empty], fun _ => by simp [empty]⟩

theorem Holds.addType (h : c.Holds before) (t : TypeDecl) :
    Holds { c with types := c.types.insert t.token t } (before ++ [.type t]) := by
  refine ⟨fun token => ?_, fun token => ?_⟩
  · rw [mem_insert_iff, h.types]
    simp [or_and_right, exists_or, eq_comm, or_comm]
  · rw [h.methods]
    simp

theorem Holds.addMethod (h : c.Holds before) (owner : TypeDecl) (m : Method) :
    Holds { c with methods := c.methods.insert m.token (owner, m) }
      (before ++ [.method owner m]) := by
  refine ⟨fun token => ?_, fun token => ?_⟩
  · rw [h.types]
    simp
  · rw [mem_insert_iff, h.methods]
    simp [or_and_right, exists_or, eq_comm, or_comm]

/-- One check: it fails as the tokens before it say, or the catalog goes on to hold its token. -/
theorem Holds.after_cases (h : c.Holds before) (check : Check) :
    (∃ d, c.after check = .error d ∧ ∀ d', check.Fails before d' ↔ d' = d) ∨
      ∃ next, c.after check = .ok next ∧ (∀ d, ¬check.Fails before d) ∧
        next.Holds (before ++ [check]) := by
  cases check with
  | type t =>
      simp only [Check.fails_type_iff, ← h.types]
      by_cases hnull : t.token.isNull = true
      · exact Or.inl ⟨.nullType t.name, by simp [after, hnull], by simp [hnull]⟩
      · by_cases htaken : t.token ∈ c.types
        · refine Or.inl ⟨.repeatedType t.token, ?_, ?_⟩
          · simp [after, hnull, htaken]
          · simp [hnull, htaken]
        · refine Or.inr ⟨_, ?_, ?_, h.addType t⟩
          · simp [after, hnull, htaken]
          · simp [hnull, htaken]
  | method owner m =>
      simp only [Check.fails_method_iff, ← h.methods]
      by_cases hnull : m.token.isNull = true
      · refine Or.inl ⟨.nullMethod m.name owner.token, ?_, by simp [hnull]⟩
        simp [after, Catalog.addMethod, hnull]
      · by_cases htaken : m.token ∈ c.methods
        · refine Or.inl ⟨.repeatedMethod m.token, ?_, ?_⟩
          · simp [after, Catalog.addMethod, hnull, htaken]
          · simp [hnull, htaken]
        · refine Or.inr ⟨_, ?_, ?_, h.addMethod owner m⟩
          · simp [after, Catalog.addMethod, hnull, htaken]
          · simp [hnull, htaken]

/-- All checks: the defect, if there is one, is that of the first check that fails. -/
theorem Holds.afterAll_eq_error_iff (h : c.Holds before) (checks : List Check) (d : Defect) :
    c.afterAll checks = .error d ↔ FirstDefect before checks d := by
  induction checks generalizing c before with
  | nil => exact iff_of_false nofun not_firstDefect_nil
  | cons check checks ih =>
      rw [firstDefect_cons_iff, afterAll]
      rcases h.after_cases check with ⟨e, hafter, hfails⟩ | ⟨next, hafter, hpassed, hnext⟩
      · simp [hafter, hfails, eq_comm]
      · simp [hafter, hpassed, ih hnext]

end Catalog

/-! ## The text of a defect -/

theorem Defect.message_eq (d : Defect) :
    d.message =
      match d with
      | nullType name => "Type '" ++ name ++ "' has a null token"
      | repeatedType token => "Duplicate type token " ++ token.text
      | nullMethod name owner =>
          "Method '" ++ name ++ "' of type " ++ owner.text ++ " has a null token"
      | repeatedMethod token => "Duplicate method token " ++ token.text := by
  cases d <;> rfl

/-- No two defects are reported in the same words. -/
theorem Defect.message_injective : Function.Injective message := by
  intro d e h
  have hchars := congrArg String.toList h
  rw [message_eq, message_eq] at hchars
  -- Defects of different kinds already differ in the words before the first name or token.
  cases d <;> cases e <;> simp only [String.toList_append] at hchars <;>
    try simp at hchars; done
  case nullType.nullType name name' =>
    simpa [String.toList_inj] using hchars
  case repeatedType.repeatedType token token' =>
    simpa [String.toList_inj, Token.text_injective.eq_iff] using hchars
  case repeatedMethod.repeatedMethod token token' =>
    simpa [String.toList_inj, Token.text_injective.eq_iff] using hchars
  case nullMethod.nullMethod name owner name' owner' =>
    -- The name may hold anything, but what follows it has a fixed length.
    simp only [List.append_assoc, List.append_cancel_left_eq] at hchars
    obtain ⟨hname, hrest⟩ := List.append_inj' hchars (by simp [Token.text, Token.chars])
    simp only [List.append_cancel_left_eq, List.append_cancel_right_eq] at hrest
    rw [String.toList_inj.mp hname, Token.text_injective (String.toList_inj.mp hrest)]

namespace Module

theorem build_eq_error_iff (name : String) {forest : Forest} {d : Defect} :
    build name forest = .error d ↔ FirstDefect [] forest.checks d := by
  have hfill : build name forest = .error d ↔
      Catalog.ofTypes (Forest.traverse forest) = .error d := by
    unfold build
    split
    · rename_i e he
      simp [he]
    · rename_i c hc
      simp [hc]
  rw [hfill, Forest.traverse_eq_preorder, Catalog.ofTypes, Catalog.addTypes_eq_afterAll]
  exact Catalog.holds_empty.afterAll_eq_error_iff forest.checks d

/-- A forest is rejected exactly if one of its checks fails, and then for the first one that fails
and for no other: a type with the null token is reported with its name, a type whose token an
earlier type has with the token, and likewise a method, which if its token is null is reported with
the token of its type, too. A dump is rejected with the same defect, and its words tell the defect. -/
theorem rejected_for_first_defect (name : String) (forest : Forest) :
    ((∀ m, build name forest ≠ .ok m) ↔ ∃ d, FirstDefect [] forest.checks d) ∧
      (∀ d, build name forest = .error d ↔ FirstDefect [] forest.checks d) ∧
      (∀ reason, ofDump ⟨name, forest⟩ = .error reason ↔
        ∃ d, FirstDefect [] forest.checks d ∧ reason = .defect d) ∧
      ∀ d d', (Malformed.defect d).message = (Malformed.defect d').message → d = d' := by
  refine ⟨?rejected, fun d => build_eq_error_iff name, fun reason => ?dump, fun d d' h => ?words⟩
  case rejected =>
    simp only [← build_eq_error_iff name]
    cases build name forest <;> simp
  case dump =>
    simp only [← build_eq_error_iff name]
    unfold ofDump
    cases build name forest <;> simp [eq_comm]
  case words =>
    have hreason : "Malformed - " ++ d.message = "Malformed - " ++ d'.message := h
    have hchars := congrArg String.toList hreason
    rw [String.toList_append, String.toList_append, List.append_cancel_left_eq] at hchars
    exact Defect.message_injective (String.toList_inj.mp hchars)

end Module

end VmHandler
