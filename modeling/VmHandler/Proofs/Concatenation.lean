import VmHandler.Proofs.Alike

/-!
# Forests side by side

The types of two forests side by side are visited one forest after the other, so a search of both is
made of a search of the first one and a search of the second one. In the second one positions count
from the number of all types of the first one, the nested ones included.
-/

set_option autoImplicit false

namespace VmHandler

/-! ## Candidates of two lists of types -/

/-- The candidate with a position that is higher by a number. -/
def Candidate.shift (n : Nat) (c : Candidate) : Candidate := { c with index := c.index + n }

namespace Search

theorem candidate?_add (s : Search) (index n : Nat) (t : TypeDecl) :
    s.candidate? (index + n) t = (s.candidate? index t).map (Candidate.shift n) := by
  rw [candidate?, candidate?, Option.map_map]
  rfl

/-- Where the first type has a higher position, so have all candidates. -/
theorem scanFrom_add (s : Search) (index n : Nat) (ts : List TypeDecl) :
    s.scanFrom (index + n) ts = (s.scanFrom index ts).map (Candidate.shift n) := by
  induction ts generalizing index with
  | nil => rfl
  | cons t ts ih =>
      rw [scanFrom, scanFrom, candidate?_add, Nat.add_right_comm, ih (index + 1)]
      cases s.candidate? index t <;> rfl

/-- Scanning two lists is scanning the first one and then the second one. -/
theorem scanFrom_append (s : Search) (index : Nat) (ts us : List TypeDecl) :
    s.scanFrom index (ts ++ us) = s.scanFrom index ts ++ s.scanFrom (index + ts.length) us := by
  rw [scanFrom_eq_filterMap, scanFrom_eq_filterMap, scanFrom_eq_filterMap, List.zipIdx_append,
    List.filterMap_append]

theorem candidates_of_append (s : Search) {m a b : Module} (h : m.types = a.types ++ b.types) :
    s.candidates m =
      s.candidates a ++ (s.candidates b).map (Candidate.shift a.types.length) := by
  rw [candidates_eq_scanFrom, candidates_eq_scanFrom, candidates_eq_scanFrom, h, scanFrom_append,
    scanFrom_add]

end Search

/-! ## Modules of two forests -/

/-- Two forests side by side are that of a module only if each of them is; the module visits the
types of the first one and then those of the second one. -/
theorem Module.exists_build_of_append {name : String} {ts us : Forest} {m : Module}
    (h : build name (ts ++ us) = .ok m) (left right : String) :
    ∃ a b, build left ts = .ok a ∧ build right us = .ok b ∧ m.types = a.types ++ b.types ∧
      a.types.length = Forest.size ts := by
  have htypes : m.types = Forest.preorder ts ++ Forest.preorder us := by
    rw [m.types_eq_preorder, (build_eq_ok_iff.mp h).2, Forest.preorder_append]
  obtain ⟨a, ha, hatypes⟩ := m.exists_build_of_sublist left
    (htypes ▸ List.sublist_append_left (Forest.preorder ts) (Forest.preorder us))
  obtain ⟨b, hb, hbtypes⟩ := m.exists_build_of_sublist right
    (htypes ▸ List.sublist_append_right (Forest.preorder ts) (Forest.preorder us))
  refine ⟨a, b, ha, hb, ?_, ?_⟩
  · rw [htypes, hatypes, hbtypes]
  · rw [hatypes, Forest.length_preorder]

namespace Search

/-- Where two forests side by side are that of a module, each of them is; the module visits the
types of the first one and then those of the second one. Its candidates are those of the first one
and then those of the second one, at positions that are higher by the number of all types of the
first one. A search for the first candidate selects what it selects in the first one if a type there
has a handler, and otherwise comes to what it comes to in the second one. -/
theorem discovery_composes {name : String} {ts us : Forest} {m : Module}
    (h : Module.build name (ts ++ us) = .ok m) (left right : String) :
    ∃ a b, Module.build left ts = .ok a ∧ Module.build right us = .ok b ∧
      (m.types = a.types ++ b.types ∧ a.types.length = Forest.size ts) ∧
      (∀ s : Search, s.candidates m =
        s.candidates a ++ (s.candidates b).map (Candidate.shift (Forest.size ts))) ∧
      ∀ s : Search, s.policy = .first → ∀ j,
        ((∃ t ∈ a.types, t.Qualifies s.signatures) →
          ∃ x, (∀ k, (s.discover a k).1 = .ok x) ∧ (s.discover m j).1 = .ok x) ∧
        ((∀ t ∈ a.types, ¬t.Qualifies s.signatures) →
          ∀ k, (s.discover m j).1 = (s.discover b k).1) := by
  obtain ⟨a, b, ha, hb, htypes, hlength⟩ := Module.exists_build_of_append h left right
  have hcandidates : ∀ s : Search, s.candidates m =
      s.candidates a ++ (s.candidates b).map (Candidate.shift (Forest.size ts)) := by
    intro s
    rw [s.candidates_of_append htypes, hlength]
  refine ⟨a, b, ha, hb, ⟨htypes, hlength⟩, hcandidates, fun s hfirst j => ⟨?left, ?right⟩⟩
  case left =>
    intro hqualifies
    obtain ⟨c, cs, hcons⟩ := List.exists_cons_of_ne_nil (candidates_ne_nil_iff.mpr hqualifies)
    refine ⟨c.selection, fun k => ?_, ?_⟩
    · rw [fst_discover_of_first hfirst, hcons]
    · rw [fst_discover_of_first hfirst, hcandidates, hcons]
      rfl
  case right =>
    intro hrefused k
    have hnil : s.candidates a = [] := by
      by_contra hne
      obtain ⟨t, ht, hqualifies⟩ := candidates_ne_nil_iff.mp hne
      exact hrefused t ht hqualifies
    rw [fst_discover_of_first hfirst, fst_discover_of_first hfirst, hcandidates, hnil,
      List.nil_append]
    cases s.candidates b with
    | nil => rfl
    | cons c cs => rfl

/-- A type with a handler of old generations. -/
def lateType : Forest :=
  [⟨⟨0x02000004⟩, "Vm", "Late",
    [{ token := ⟨0x06000003⟩, name := "Run", returns := .classType,
       params := [.classType, .boolean], locals := Signature.handlerLocals }], []⟩]

/-- Beside the nested pair the late type has the third position. A search for handlers of all
generations comes to what it comes to in the pair, and one for old handlers only to what it comes to
in the late type. -/
theorem discovery_composes_nestedPair_lateType :
    ∃ m a b, Module.build "vm" (nestedPair ++ lateType) = .ok m ∧
      Module.build "vm" nestedPair = .ok a ∧ Module.build "vm" lateType = .ok b ∧
      (candidates {} m).map Candidate.mark =
        [(0, ⟨⟨0x02000002⟩, ⟨0x06000001⟩, "parameterless"⟩),
          (1, ⟨⟨0x02000003⟩, ⟨0x06000002⟩, "parameterless"⟩),
          (2, ⟨⟨0x02000004⟩, ⟨0x06000003⟩, "legacy"⟩)] ∧
      candidates {} m = candidates {} a ++ (candidates {} b).map (Candidate.shift 2) ∧
      (∃ x, (∀ k, (discover {} a k).1 = .ok x) ∧ (discover {} m {}).1 = .ok x) ∧
      ∀ k, (discover { signatures := [.legacy] } m {}).1 =
        (discover { signatures := [.legacy] } b k).1 := by
  obtain ⟨m, hm, htypes⟩ := Module.exists_build_of_tokens "vm" (nestedPair ++ lateType)
    ⟨by decide, by decide⟩ ⟨by decide, by decide⟩
  obtain ⟨a, b, ha, hb, _, hcandidates, hfirst⟩ := discovery_composes hm "vm" "vm"
  have hatypes : a.types = Forest.preorder nestedPair := by
    rw [a.types_eq_preorder, (Module.build_eq_ok_iff.mp ha).2]
  have hmarks : (candidates {} m).map Candidate.mark =
      [(0, ⟨⟨0x02000002⟩, ⟨0x06000001⟩, "parameterless"⟩),
        (1, ⟨⟨0x02000003⟩, ⟨0x06000002⟩, "parameterless"⟩),
        (2, ⟨⟨0x02000004⟩, ⟨0x06000003⟩, "legacy"⟩)] := by
    rw [candidates_eq_scanFrom, htypes]
    decide
  refine ⟨m, a, b, hm, ha, hb, hmarks, hcandidates {}, ?_, ?_⟩
  · apply (hfirst {} rfl {}).1
    rw [hatypes]
    decide
  · apply (hfirst { signatures := [.legacy] } rfl {}).2
    rw [hatypes]
    decide

end Search

end VmHandler
