import VmHandler.Proofs.Alike
import VmHandler.Proofs.Session

/-!
# Where a selection comes from

The list of candidates and the catalog are made from the types of a module independently of each
other. They agree: what a search selects is found in the catalog under its tokens, and the type that
the catalog names as the owner of the handler is the selected one. So whoever looks the handler up
later finds the type and the method that the search has judged.
-/

set_option autoImplicit false

namespace VmHandler

/-- A selection drawn from the types of a module, by one of the signatures of a search. -/
structure Selection.DrawnFrom (x : Selection) (s : Search) (m : Module) : Prop where
  type_mem : x.type ∈ m.types
  method_mem : x.method ∈ x.type.methods
  accepted : ∃ g ∈ s.signatures, g.name = x.signature ∧ g.accepts x.method = true

namespace Selection.DrawnFrom

variable {x : Selection} {s : Search} {m : Module}

theorem type?_eq (h : x.DrawnFrom s m) : m.type? x.type.token = some x.type :=
  Module.type?_eq_some_iff.mpr ⟨h.type_mem, rfl⟩

theorem method?_eq (h : x.DrawnFrom s m) : m.method? x.method.token = some x.method := by
  have hmem : x.method ∈ m.types.flatMap TypeDecl.methods :=
    List.mem_flatMap.mpr ⟨x.type, h.type_mem, h.method_mem⟩
  exact Module.method?_eq_some_iff.mpr ⟨hmem, rfl⟩

theorem owner?_eq (h : x.DrawnFrom s m) : m.owner? x.method.token = some x.type :=
  Module.owner?_eq_some_iff.mpr ⟨h.type_mem, x.method, h.method_mem, rfl⟩

/-- The two lookups give the halves of the structure of the selection. -/
theorem ofParts_eq (h : x.DrawnFrom s m) :
    Runtime.ofParts (m.type? x.type.token) (m.method? x.method.token) = .ok x.runtime := by
  rw [h.type?_eq, h.method?_eq]
  rfl

end Selection.DrawnFrom

namespace Search

variable {s : Search} {m : Module}

theorem drawnFrom_of_mem_candidates {c : Candidate} (h : c ∈ s.candidates m) :
    c.selection.DrawnFrom s m := by
  obtain ⟨hget, g, hfound, hname⟩ := mem_candidates_iff.mp h
  obtain ⟨hg, hmethod, haccepts⟩ := TypeDecl.accepts_of_handler?_eq_some hfound
  exact ⟨List.mem_of_getElem? hget, hmethod, g, hg, hname, haccepts⟩

theorem handler?_eq_none_of_candidates_eq_nil (h : s.candidates m = []) {t : TypeDecl}
    (ht : t ∈ m.types) : t.handler? s.signatures = none :=
  TypeDecl.handler?_eq_none_iff_not_qualifies.mpr fun hqualifies =>
    candidates_ne_nil_iff.mpr ⟨t, ht, hqualifies⟩ h

theorem drawnFrom_of_discover_eq_ok {j : Journal} {x : Selection}
    (h : (s.discover m j).1 = .ok x) : x.DrawnFrom s m := by
  obtain ⟨es, houtcome⟩ := s.exists_outcome m j
  rw [h] at houtcome
  obtain ⟨c, rest, hcandidates, rfl⟩ := houtcome.exists_cons_of_ok
  have hmem : c ∈ s.candidates m := hcandidates ▸ List.mem_cons_self
  exact drawnFrom_of_mem_candidates hmem

/-- What a search selects is found again under its tokens: the type, the handler among the methods of
the type, and the type as the owner of the handler; and some signature of that name accepts the
handler. The structure made of the selection, the one that a session without a structure stores, and
the one made of the two lookups are one. Where several candidates are rejected each token is that of
a type with a method that some signature accepts. Where nothing is found no signature accepts any
method. -/
theorem discover_resolves (s : Search) (m : Module) (j : Journal) :
    match (s.discover m j).1 with
    | .ok x =>
        (x.type ∈ m.types ∧ m.type? x.type.token = some x.type) ∧
        (x.method ∈ x.type.methods ∧ m.method? x.method.token = some x.method ∧
          m.owner? x.method.token = some x.type) ∧
        (∃ g ∈ s.signatures, g.name = x.signature ∧ g.accepts x.method = true) ∧
        x.runtime = ⟨x.type, x.method⟩ ∧
        Runtime.ofParts (m.type? x.type.token) (m.method? x.method.token) = .ok x.runtime ∧
        ∀ session : Session, session.runtime = none →
          (session.discover s m).1 = .ok x.runtime ∧
          (session.discover s m).2.1.runtime = some x.runtime
    | .error (.ambiguous ts) =>
        ∀ token ∈ ts, ∃ t, m.type? token = some t ∧
          ∃ h ∈ t.methods, ∃ g ∈ s.signatures, g.accepts h = true
    | .error .notFound =>
        ∀ t ∈ m.types, ∀ h ∈ t.methods, ∀ g ∈ s.signatures, g.accepts h = false := by
  split
  · -- a structure that is stored already is kept, so the session is asked when it has none
    rename_i x hx
    have hdrawn := drawnFrom_of_discover_eq_ok hx
    refine ⟨⟨hdrawn.type_mem, hdrawn.type?_eq⟩, ⟨hdrawn.method_mem, hdrawn.method?_eq,
      hdrawn.owner?_eq⟩, hdrawn.accepted, rfl, hdrawn.ofParts_eq, ?_⟩
    intro session hnone
    have hstaged : (s.discover m {}).1 = .ok x := (s.fst_discover_eq m {} j).trans hx
    rw [Session.discover_of_ok hnone hstaged]
    exact ⟨rfl, rfl⟩
  · rename_i ts hts
    intro token htoken
    obtain ⟨es, houtcome⟩ := s.exists_outcome m j
    rw [hts] at houtcome
    rw [houtcome.eq_map_of_ambiguous] at htoken
    obtain ⟨c, hc, rfl⟩ := List.mem_map.mp htoken
    have hdrawn := drawnFrom_of_mem_candidates hc
    obtain ⟨g, hg, _, haccepts⟩ := hdrawn.accepted
    exact ⟨c.type, hdrawn.type?_eq, c.method, hdrawn.method_mem, g, hg, haccepts⟩
  · rename_i hnone
    intro t ht h hh g hg
    obtain ⟨es, houtcome⟩ := s.exists_outcome m j
    rw [hnone] at houtcome
    have hhandler := handler?_eq_none_of_candidates_eq_nil houtcome.eq_nil_of_notFound ht
    have hrefuses := TypeDecl.handler?_eq_none_iff.mp hhandler g hg h hh
    exact Bool.eq_false_iff.mpr hrefuses

/-- In the nested pair the outer type is found again under its tokens if the first candidate is
selected, and both types are found if several candidates are rejected. -/
theorem discover_resolves_nestedPair :
    ∃ m : Module, Module.build "vm" nestedPair = .ok m ∧
      (∃ x : Selection, (discover {} m {}).1 = .ok x ∧ x.signature = "parameterless" ∧
        m.type? ⟨0x02000002⟩ = some x.type ∧ m.method? ⟨0x06000001⟩ = some x.method ∧
        m.owner? ⟨0x06000001⟩ = some x.type) ∧
      (discover { policy := .reject } m {}).1 =
        .error (.ambiguous [⟨0x02000002⟩, ⟨0x02000003⟩]) ∧
      ∀ token ∈ [Token.mk 0x02000002, ⟨0x02000003⟩], ∃ t, m.type? token = some t ∧
        ∃ h ∈ t.methods, ∃ g ∈ Signature.known, g.accepts h = true := by
  obtain ⟨m, hm, htypes⟩ := Module.exists_build_of_tokens "vm" nestedPair
    ⟨by decide, by decide⟩ ⟨by decide, by decide⟩
  have hmarks : ∀ policy, (candidates { policy := policy } m).map (fun c => c.selection.mark) =
      [⟨⟨0x02000002⟩, ⟨0x06000001⟩, "parameterless"⟩,
        ⟨⟨0x02000003⟩, ⟨0x06000002⟩, "parameterless"⟩] := by
    intro policy
    rw [candidates_eq_scanFrom, htypes]
    cases policy <;> decide
  refine ⟨m, hm, ?_, ?_⟩
  · have hmark := map_mark_discover {} m {}
    have hresolves := discover_resolves {} m {}
    rw [hmarks] at hmark
    cases hfirst : (discover {} m {}).1 with
    | error f =>
        rw [hfirst] at hmark
        contradiction
    | ok x =>
        rw [hfirst] at hmark hresolves
        obtain ⟨htype, hmethod, hsignature⟩ := Mark.mk.inj (Except.ok.inj hmark)
        obtain ⟨⟨_, htype?⟩, ⟨_, hmethod?, howner?⟩, _⟩ := hresolves
        rw [htype] at htype?
        rw [hmethod] at hmethod? howner?
        exact ⟨x, rfl, hsignature, htype?, hmethod?, howner?⟩
  · have hmark := map_mark_discover { policy := .reject } m {}
    have hresolves := discover_resolves { policy := .reject } m {}
    rw [hmarks] at hmark
    cases hrejected : (discover { policy := .reject } m {}).1 with
    | ok x =>
        rw [hrejected] at hmark
        contradiction
    | error f =>
        rw [hrejected] at hmark hresolves
        obtain rfl : f = .ambiguous [⟨0x02000002⟩, ⟨0x02000003⟩] := Except.error.inj hmark
        exact ⟨rfl, hresolves⟩

end Search

end VmHandler
