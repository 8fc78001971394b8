import VmHandler.Proofs.Alike

/-!
# The same types with other methods

A search visits the types in preorder and looks at the methods of one type at a time. So what
becomes of it when the method lists of types anywhere in a forest are changed follows from what
becomes of a single type. Two changes keep the types that have a handler.

The methods of every type may be declared in another order. A signature is tried on all methods of a
type before the next one is, so the order decides neither whether there is a handler nor which
signature accepts it; it decides which method is taken among several that this signature accepts.

Methods that no signature accepts may be deleted, and then even the same methods are selected.
-/

set_option autoImplicit false

namespace VmHandler

/-! ## Forests that differ in methods only -/

mutual

/-- Types that differ only in method lists, their own and those of the types nested in them, where
each list is related to the one in its place. -/
inductive TypeDecl.Edited (edit : List Method → List Method → Prop) :
    TypeDecl → TypeDecl → Prop where
  /-- a type with another method list, and edited types nested in it -/
  | type {token : Token} {space name : String} {ms ns : List Method}
      {nested nested' : List TypeDecl} (methods : edit ms ns)
      (inner : Forest.Edited edit nested nested') :
      TypeDecl.Edited edit ⟨token, space, name, ms, nested⟩ ⟨token, space, name, ns, nested'⟩

/-- Forests that differ only in the method lists of types, at any depth. -/
inductive Forest.Edited (edit : List Method → List Method → Prop) :
    List TypeDecl → List TypeDecl → Prop where
  /-- without types there is nothing to edit -/
  | nil : Forest.Edited edit [] []
  /-- a type and the types beside it -/
  | cons {t u : TypeDecl} {ts us : List TypeDecl} (head : TypeDecl.Edited edit t u)
      (tail : Forest.Edited edit ts us) : Forest.Edited edit (t :: ts) (u :: us)

end

/-- Types with the same token and related method lists, whatever is nested in them. -/
structure TypeDecl.Counterpart (edit : List Method → List Method → Prop) (t u : TypeDecl) :
    Prop where
  token : t.token = u.token
  methods : edit t.methods u.methods

section Edited

variable {edit : List Method → List Method → Prop}

mutual

theorem TypeDecl.Edited.forall₂_preorder : ∀ {t u : TypeDecl}, TypeDecl.Edited edit t u →
    List.Forall₂ (TypeDecl.Counterpart edit) t.preorder u.preorder
  | _, _, .type methods inner => by
      rw [TypeDecl.preorder, TypeDecl.preorder]
      exact .cons ⟨rfl, methods⟩ inner.forall₂_preorder

/-- In preorder every type stands where its counterpart stands. -/
theorem Forest.Edited.forall₂_preorder : ∀ {ts us : List TypeDecl}, Forest.Edited edit ts us →
    List.Forall₂ (TypeDecl.Counterpart edit) (Forest.preorder ts) (Forest.preorder us)
  | _, _, .nil => .nil
  | _, _, .cons head tail => by
      rw [Forest.preorder, Forest.preorder]
      exact List.rel_append head.forall₂_preorder tail.forall₂_preorder

end

theorem map_token_of_counterparts {ts us : List TypeDecl}
    (h : List.Forall₂ (TypeDecl.Counterpart edit) ts us) :
    us.map TypeDecl.token = ts.map TypeDecl.token := by
  rw [eq_comm, ← List.forall₂_eq_eq_eq, List.forall₂_map_left_iff, List.forall₂_map_right_iff]
  exact h.imp fun _ _ htu => htu.token

theorem subperm_methods_of_counterparts
    (hedit : ∀ {ms ns : List Method}, edit ms ns → ns.Subperm ms) {ts us : List TypeDecl}
    (h : List.Forall₂ (TypeDecl.Counterpart edit) ts us) :
    (us.flatMap TypeDecl.methods).Subperm (ts.flatMap TypeDecl.methods) := by
  induction h with
  | nil => exact List.Subperm.refl []
  | cons htu _ ih =>
      rw [List.flatMap_cons, List.flatMap_cons]
      exact (hedit htu.methods).append ih

/-- Edits that add no method leave a module a module. -/
theorem Forest.Edited.exists_build {m : Module} {forest : Forest}
    (h : Forest.Edited edit m.topLevel forest)
    (hedit : ∀ {ms ns : List Method}, edit ms ns → ns.Subperm ms) (name : String) :
    ∃ n, Module.build name forest = .ok n ∧
      List.Forall₂ (TypeDecl.Counterpart edit) m.types n.types := by
  have hcounterparts := h.forall₂_preorder
  rw [← m.types_eq_preorder] at hcounterparts
  have htokens : ((Forest.preorder forest).map TypeDecl.token).Subperm
      (m.types.map TypeDecl.token) := by
    rw [map_token_of_counterparts hcounterparts]
  have hmethods := subperm_methods_of_counterparts hedit hcounterparts
  obtain ⟨n, hn, htypes⟩ := m.exists_build_of_subperm name htokens hmethods
  exact ⟨n, hn, htypes ▸ hcounterparts⟩

end Edited

/-! ## Methods in another order -/

/-- The first methods with a property in two orders of a list are the same unless several methods
have it, and there is one in both orders or in none. -/
theorem Method.rel_find?_of_perm {ms ns : List Method} (h : ms.Perm ns) (p : Method → Bool) :
    Option.Rel (fun x y => x ≠ y → 2 ≤ ms.countP p) (ms.find? p) (ns.find? p) := by
  have hfilter := h.filter p
  rw [← List.head?_filter, ← List.head?_filter, List.countP_eq_length_filter]
  generalize ms.filter p = xs, ns.filter p = ys at hfilter
  cases xs with
  | nil =>
      rw [← hfilter.nil_eq]
      exact .none
  | cons x xs =>
      cases ys with
      | nil => exact absurd hfilter.symm (List.not_perm_nil_cons x xs)
      | cons y ys =>
          refine .some fun hne => ?_
          cases xs with
          | nil =>
              have hsingle := List.perm_singleton.mp hfilter.symm
              exact absurd (List.cons.inj hsingle).1.symm hne
          | cons x' xs => exact Nat.le_add_left 2 xs.length

/-- In another order of the methods the same signature finds a handler, and another handler only if
it accepts several methods. -/
theorem TypeDecl.rel_handler?_of_perm {t u : TypeDecl} (h : t.methods.Perm u.methods)
    (signatures : List Signature) :
    Option.Rel
      (fun found found' => found.2 = found'.2 ∧
        (found.1 ≠ found'.1 → 2 ≤ t.methods.countP found.2.accepts))
      (t.handler? signatures) (u.handler? signatures) := by
  induction signatures with
  | nil => exact .none
  | cons g gs ih =>
      have hfind := Method.rel_find?_of_perm h g.accepts
      rw [handler?_cons, handler?_cons]
      generalize t.methods.find? g.accepts = x, u.methods.find? g.accepts = y at hfind
      cases hfind with
      | none => exact ih
      | some hxy => exact .some ⟨rfl, hxy⟩

/-- Candidates at the same position, of types with the same token, whose handlers are found by the
same signature. The handlers, and so their tokens, differ only if the signature accepts several
methods of the type. -/
structure Candidate.SameWinner (s : Search) (c d : Candidate) : Prop where
  index : c.index = d.index
  token : c.type.token = d.type.token
  signature : c.signature = d.signature
  winner : ∃ g ∈ s.signatures, g.name = c.signature ∧
    c.type.handler? s.signatures = some (c.method, g) ∧
    d.type.handler? s.signatures = some (d.method, g) ∧
    g.accepts c.method = true ∧ g.accepts d.method = true ∧
    (c.method ≠ d.method → 2 ≤ c.type.methods.countP g.accepts)

namespace Search

theorem rel_candidate?_of_perm (s : Search) {t u : TypeDecl}
    (h : TypeDecl.Counterpart List.Perm t u) (index : Nat) :
    Option.Rel (Candidate.SameWinner s) (s.candidate? index t) (s.candidate? index u) := by
  have hhandler := TypeDecl.rel_handler?_of_perm h.methods s.signatures
  rw [candidate?, candidate?]
  cases ht : t.handler? s.signatures with
  | none =>
      rw [ht] at hhandler
      generalize u.handler? s.signatures = found' at hhandler
      cases hhandler
      exact .none
  | some found =>
      cases hu : u.handler? s.signatures with
      | none =>
          rw [ht, hu] at hhandler
          contradiction
      | some found' =>
          obtain ⟨x, g⟩ := found
          obtain ⟨y, g'⟩ := found'
          rw [ht, hu] at hhandler
          cases hhandler with
          | some hsame =>
              obtain ⟨rfl, hseveral⟩ := hsame
              obtain ⟨hg, _, hx⟩ := TypeDecl.accepts_of_handler?_eq_some ht
              obtain ⟨_, _, hy⟩ := TypeDecl.accepts_of_handler?_eq_some hu
              exact .some ⟨rfl, h.token, rfl, g, hg, rfl, ht, hu, hx, hy, hseveral⟩

/-- Where the methods of the types of a module are declared in another order, in whatever types,
there is a module again. Its candidates stand at the same positions with the same type tokens and
the same signatures, each of which accepts the handlers on both sides; another method is selected
only if the signature accepts several methods of the type. A search of one of the modules fails
exactly if it fails in the other, for the same reason and with the same tokens. -/
theorem winners_of_permuted_methods (s : Search) (m : Module) {forest : Forest}
    (h : Forest.Edited List.Perm m.topLevel forest) (name : String) :
    ∃ n, Module.build name forest = .ok n ∧
      List.Forall₂ (Candidate.SameWinner s) (s.candidates m) (s.candidates n) ∧
      ∀ j k f, (s.discover m j).1 = .error f ↔ (s.discover n k).1 = .error f := by
  obtain ⟨n, hn, hcounterparts⟩ := h.exists_build (fun hperm => hperm.symm.subperm) name
  have hcandidates : List.Forall₂ (Candidate.SameWinner s) (s.candidates m) (s.candidates n) := by
    rw [candidates_eq_scanFrom, candidates_eq_scanFrom]
    exact forall₂_scanFrom (fun htu => s.rel_candidate?_of_perm htu) hcounterparts 0
  have htokens : ((s.candidates n).map fun d => d.type.token) =
      (s.candidates m).map fun c => c.type.token := by
    rw [eq_comm, ← List.forall₂_eq_eq_eq, List.forall₂_map_left_iff, List.forall₂_map_right_iff]
    exact hcandidates.imp fun _ _ hcd => hcd.token
  refine ⟨n, hn, hcandidates, fun j k f => ?_⟩
  obtain ⟨es, houtcome⟩ := s.exists_outcome m j
  obtain ⟨fs, houtcome'⟩ := s.exists_outcome n k
  constructor
  · intro hfails
    rw [hfails] at houtcome
    exact houtcome.eq_error_of_tokens_eq houtcome' htokens
  · intro hfails
    rw [hfails] at houtcome'
    exact houtcome'.eq_error_of_tokens_eq houtcome htokens.symm

end Search

/-- A method with the shape and the local variables of new handlers. -/
def Method.newHandler (token : Token) : Method :=
  { token := token, name := "Step", locals := Signature.handlerLocals }

/-- A method with the shape and the local variables of old handlers. -/
def Method.oldHandler (token : Token) : Method :=
  { token := token, name := "Run", returns := .classType, params := [.classType, .boolean],
    locals := Signature.handlerLocals }

/-- A type with another one nested in it. -/
def outerAndInner (outer inner : List Method) : Forest :=
  [⟨⟨0x02000002⟩, "Vm", "Outer", outer, [⟨⟨0x02000003⟩, "", "Inner", inner, []⟩]⟩]

theorem edited_outerAndInner {edit : List Method → List Method → Prop}
    {outer inner outer' inner' : List Method} (houter : edit outer outer')
    (hinner : edit inner inner') :
    Forest.Edited edit (outerAndInner outer inner) (outerAndInner outer' inner') :=
  .cons (.type houter (.cons (.type hinner .nil) .nil)) .nil

namespace Search

/-- Two new handlers change places in one type, and in the type nested in it a new and an old one.
In the first type the other one is selected, in the second type the old one all the same, and both
modules are rejected with the tokens of the two types. -/
theorem winners_of_permuted_outerAndInner :
    ∃ m n,
      Module.build "vm" (outerAndInner [.newHandler ⟨0x06000001⟩, .newHandler ⟨0x06000002⟩]
        [.newHandler ⟨0x06000003⟩, .oldHandler ⟨0x06000004⟩]) = .ok m ∧
      Module.build "vm" (outerAndInner [.newHandler ⟨0x06000002⟩, .newHandler ⟨0x06000001⟩]
        [.oldHandler ⟨0x06000004⟩, .newHandler ⟨0x06000003⟩]) = .ok n ∧
      (candidates { policy := .reject } m).map Candidate.mark =
        [(0, ⟨⟨0x02000002⟩, ⟨0x06000001⟩, "parameterless"⟩),
          (1, ⟨⟨0x02000003⟩, ⟨0x06000004⟩, "legacy"⟩)] ∧
      (candidates { policy := .reject } n).map Candidate.mark =
        [(0, ⟨⟨0x02000002⟩, ⟨0x06000002⟩, "parameterless"⟩),
          (1, ⟨⟨0x02000003⟩, ⟨0x06000004⟩, "legacy"⟩)] ∧
      List.Forall₂ (Candidate.SameWinner { policy := .reject })
        (candidates { policy := .reject } m) (candidates { policy := .reject } n) ∧
      ∀ k, (discover { policy := .reject } n k).1 =
        .error (.ambiguous [⟨0x02000002⟩, ⟨0x02000003⟩]) := by
  obtain ⟨m, hm, htypes⟩ := Module.exists_build_of_tokens "vm"
    (outerAndInner [.newHandler ⟨0x06000001⟩, .newHandler ⟨0x06000002⟩]
      [.newHandler ⟨0x06000003⟩, .oldHandler ⟨0x06000004⟩])
    ⟨by decide, by decide⟩ ⟨by decide, by decide⟩
  have hmarks : (candidates { policy := .reject } m).map Candidate.mark =
      [(0, ⟨⟨0x02000002⟩, ⟨0x06000001⟩, "parameterless"⟩),
        (1, ⟨⟨0x02000003⟩, ⟨0x06000004⟩, "legacy"⟩)] := by
    rw [candidates_eq_scanFrom, htypes]
    decide
  have hrejected : (discover { policy := .reject } m {}).1 =
      .error (.ambiguous [⟨0x02000002⟩, ⟨0x02000003⟩]) :=
    eq_error_of_map_mark_eq_error (map_mark_discover_of_marks hmarks {})
  have hedited : Forest.Edited List.Perm m.topLevel
      (outerAndInner [.newHandler ⟨0x06000002⟩, .newHandler ⟨0x06000001⟩]
        [.oldHandler ⟨0x06000004⟩, .newHandler ⟨0x06000003⟩]) := by
    rw [(Module.build_eq_ok_iff.mp hm).2]
    exact edited_outerAndInner (.swap _ _ []) (.swap _ _ [])
  obtain ⟨n, hn, hcandidates, hfails⟩ :=
    winners_of_permuted_methods { policy := .reject } m hedited "vm"
  refine ⟨m, n, hm, hn, hmarks, ?_, hcandidates, fun k => (hfails {} k _).mp hrejected⟩
  rw [candidates_eq_scanFrom, n.types_eq_preorder, (Module.build_eq_ok_iff.mp hn).2]
  decide

end Search

/-! ## Methods that no signature accepts -/

/-- The second list is the first one without some methods that no signature accepts. -/
inductive Method.Thinned (signatures : List Signature) : List Method → List Method → Prop where
  | nil : Method.Thinned signatures [] []
  /-- the method stays -/
  | keep {ms ns : List Method} (m : Method) (rest : Method.Thinned signatures ms ns) :
      Method.Thinned signatures (m :: ms) (m :: ns)
  /-- the method is deleted -/
  | delete {ms ns : List Method} {m : Method}
      (refused : ∀ g ∈ signatures, g.accepts m = false)
      (rest : Method.Thinned signatures ms ns) : Method.Thinned signatures (m :: ms) ns

section Thinned

variable {signatures : List Signature} {ms ns : List Method}

theorem Method.Thinned.sublist (h : Method.Thinned signatures ms ns) : ns.Sublist ms := by
  induction h with
  | nil => exact .slnil
  | keep m _ ih => exact ih.cons_cons m
  | delete _ _ ih => exact ih.cons _

/-- A signature passes over what is deleted. -/
theorem Method.Thinned.find?_eq (h : Method.Thinned signatures ms ns) {g : Signature}
    (hg : g ∈ signatures) : ms.find? g.accepts = ns.find? g.accepts := by
  induction h with
  | nil => rfl
  | keep m _ ih => rw [List.find?_cons, List.find?_cons, ih]
  | delete refused _ ih => rw [List.find?_cons, refused g hg, ih]

theorem TypeDecl.handler?_eq_of_thinned {t u : TypeDecl} {gs : List Signature}
    (h : Method.Thinned signatures t.methods u.methods) (hgs : gs ⊆ signatures) :
    t.handler? gs = u.handler? gs := by
  induction gs with
  | nil => rfl
  | cons g gs ih =>
      obtain ⟨hg, hgs⟩ := List.cons_subset.mp hgs
      rw [handler?_cons, handler?_cons, h.find?_eq hg, ih hgs]

end Thinned

namespace Search

theorem map_mark_candidate?_of_thinned (s : Search) {t u : TypeDecl}
    (h : TypeDecl.Counterpart (Method.Thinned s.signatures) t u) (index : Nat) :
    (s.candidate? index t).map Candidate.mark = (s.candidate? index u).map Candidate.mark := by
  rw [candidate?, candidate?, TypeDecl.handler?_eq_of_thinned h.methods (List.Subset.refl _),
    Option.map_map, Option.map_map]
  congr 1
  funext found
  simp only [Function.comp_apply, Candidate.mark, Candidate.selection, Selection.mark, h.token]

/-- Where methods that no signature of a search accepts are deleted from a module, in whatever
types, there is a module again. The search lists the same candidates in both, up to names, selects
the same tokens by the same signature, or fails for the same reason with the same tokens. -/
theorem refused_methods_irrelevant (s : Search) (m : Module) {forest : Forest}
    (h : Forest.Edited (Method.Thinned s.signatures) m.topLevel forest) (name : String) :
    ∃ n, Module.build name forest = .ok n ∧
      (s.candidates m).map Candidate.mark = (s.candidates n).map Candidate.mark ∧
      ∀ j k, (s.discover m j).1.map Selection.mark = (s.discover n k).1.map Selection.mark := by
  obtain ⟨n, hn, hcounterparts⟩ := h.exists_build (fun hthinned => hthinned.sublist.subperm) name
  have hcandidates : (s.candidates m).map Candidate.mark =
      (s.candidates n).map Candidate.mark :=
    map_mark_candidates_of_forall₂ s.map_mark_candidate?_of_thinned hcounterparts
  refine ⟨n, hn, hcandidates, fun j k => ?_⟩
  rw [map_mark_discover_of_marks hcandidates, map_mark_discover_of_marks rfl]

/-- Whoever looks for old handlers only finds the old one in the second type, whether the new ones
are deleted or not. -/
theorem refused_methods_irrelevant_outerAndInner :
    ∃ m n,
      Module.build "vm" (outerAndInner [.newHandler ⟨0x06000001⟩, .newHandler ⟨0x06000002⟩]
        [.newHandler ⟨0x06000003⟩, .oldHandler ⟨0x06000004⟩]) = .ok m ∧
      Module.build "vm" (outerAndInner [.newHandler ⟨0x06000002⟩]
        [.oldHandler ⟨0x06000004⟩]) = .ok n ∧
      (candidates { signatures := [.legacy] } n).map Candidate.mark =
        [(1, ⟨⟨0x02000003⟩, ⟨0x06000004⟩, "legacy"⟩)] ∧
      ∀ k, (discover { signatures := [.legacy] } n k).1.map Selection.mark =
        .ok ⟨⟨0x02000003⟩, ⟨0x06000004⟩, "legacy"⟩ := by
  obtain ⟨m, hm, htypes⟩ := Module.exists_build_of_tokens "vm"
    (outerAndInner [.newHandler ⟨0x06000001⟩, .newHandler ⟨0x06000002⟩]
      [.newHandler ⟨0x06000003⟩, .oldHandler ⟨0x06000004⟩])
    ⟨by decide, by decide⟩ ⟨by decide, by decide⟩
  have hmarks : (candidates { signatures := [.legacy] } m).map Candidate.mark =
      [(1, ⟨⟨0x02000003⟩, ⟨0x06000004⟩, "legacy"⟩)] := by
    rw [candidates_eq_scanFrom, htypes]
    decide
  have hedited : Forest.Edited (Method.Thinned [.legacy]) m.topLevel
      (outerAndInner [.newHandler ⟨0x06000002⟩] [.oldHandler ⟨0x06000004⟩]) := by
    rw [(Module.build_eq_ok_iff.mp hm).2]
    exact edited_outerAndInner (.delete (by decide) (.keep _ .nil))
      (.delete (by decide) (.keep _ .nil))
  obtain ⟨n, hn, hcandidates, hdiscover⟩ :=
    refused_methods_irrelevant { signatures := [.legacy] } m hedited "vm"
  refine ⟨m, n, hm, hn, hcandidates.symm.trans hmarks, fun k => ?_⟩
  rw [← hdiscover {} k, map_mark_discover_of_marks hmarks]
  rfl

end Search

end VmHandler
