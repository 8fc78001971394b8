import VmHandler.Dump.Reader
import VmHandler.Dump.Writer
import VmHandler.Proofs.Nesting

/-!
# How deep the things are that are read

Whatever a text looks like, what a reader returns was read inside the brackets that it may open.
Written with all its fields it may still need one bracket more: an innermost type or method may have
been read without the lists that are written for it.
-/

set_option autoImplicit false

namespace VmHandler.Json

/-! ## Properties of what is read -/

/-- Whatever a reader returns has a property. -/
def Ensures {α : Type} (read : Step α) (P : α → Prop) : Prop :=
  ∀ bs x rest, read bs = .ok (x, rest) → P x

section Lists

variable {α : Type} {item : Step α} {P : α → Prop}

theorem ensures_readElements (h : Ensures item P) (bound : Octets) (isFirst : Bool)
    {done : List α} (hdone : ∀ x ∈ done, P x) :
    Ensures (readElements item bound isFirst done) fun xs => ∀ x ∈ xs, P x := by
  intro bs xs rest hread
  induction bound generalizing isFirst done bs with
  | nil => contradiction
  | cons b bound ih =>
      rw [readElements] at hread
      split at hread
      · contradiction
      · rw [← (Prod.mk.inj (Except.ok.inj hread)).1]
        exact fun x hx => hdone x (List.mem_reverse.mp hx)
      · split at hread
        · contradiction
        · rename_i x _ hx
          exact ih false (List.forall_mem_cons.mpr ⟨h _ x _ hx, hdone⟩) _ hread

theorem ensures_readList (h : Ensures item P) :
    Ensures (readList (some item)) fun xs => ∀ x ∈ xs, P x := by
  intro bs xs rest hread
  rw [readList] at hread
  split at hread
  · contradiction
  · split at hread
    · exact ensures_readElements h _ true (by simp) _ _ _ hread
    · contradiction

theorem ensures_readList_none {Q : List α → Prop} : Ensures (readList (α := α) none) Q := by
  intro bs xs rest hread
  rw [readList] at hread
  split at hread
  · contradiction
  · split at hread <;> contradiction

end Lists

section Records

variable {δ α : Type} {fields : List (FieldReader δ)} {I : δ → Prop}

/-- A property of parts that every field keeps. -/
def Keeps (fields : List (FieldReader δ)) (I : δ → Prop) : Prop :=
  ∀ f ∈ fields, ∀ parts, I parts → Ensures (f.read parts) I

theorem ensures_readEntry (h : Keeps fields I) (key : String) {parts : δ} (hparts : I parts) :
    Ensures (readEntry fields key parts) I := by
  intro bs parts' rest hread
  rw [readEntry] at hread
  split at hread
  · rename_i f hf
    split at hread
    · contradiction
    · split at hread
      · contradiction
      · exact h f (List.mem_of_find?_eq_some hf) parts hparts _ _ _ hread
  · split at hread
    · contradiction
    · split at hread
      · contradiction
      · rw [← (Prod.mk.inj (Except.ok.inj hread)).1]
        exact hparts

theorem ensures_readEntries (h : Keeps fields I) (bound : Octets) (isFirst : Bool) {parts : δ}
    (hparts : I parts) : Ensures (readEntries fields bound isFirst parts) I := by
  intro bs parts' rest hread
  induction bound generalizing isFirst parts bs with
  | nil => contradiction
  | cons b bound ih =>
      rw [readEntries] at hread
      split at hread
      · contradiction
      · rw [← (Prod.mk.inj (Except.ok.inj hread)).1]
        exact hparts
      · split at hread
        · contradiction
        · split at hread
          · contradiction
          · rename_i key _ _ _ parts'' _ hentry
            exact ih false (ensures_readEntry h key hparts _ _ _ hentry) _ hread

theorem ensures_readFields (h : Keeps fields I) (isFirst : Bool) {parts : δ} (hparts : I parts) :
    Ensures (readFields fields isFirst parts) I := by
  intro bs parts' rest hread
  induction fields generalizing isFirst parts bs with
  | nil =>
      rw [readFields] at hread
      split at hread
      · contradiction
      · rw [← (Prod.mk.inj (Except.ok.inj hread)).1]
        exact hparts
  | cons f fields ih =>
      obtain ⟨hf, hfields⟩ := List.forall_mem_cons.mp h
      rw [readFields] at hread
      split at hread
      · contradiction
      · rw [← (Prod.mk.inj (Except.ok.inj hread)).1]
        exact hparts
      · split at hread
        · contradiction
        · rename_i parts'' _ hfield
          exact ih hfields false (hf parts hparts _ _ _ hfield) _ hread

/-- A record has what follows from a property that its blank parts have and every field keeps. -/
theorem ensures_readRecord {schema : Schema δ α} {P : α → Prop} (h : Keeps fields I)
    (hblank : I schema.blank) (hfinish : ∀ parts x, I parts → schema.finish parts = .ok x → P x) :
    Ensures (readRecord schema (some fields)) P := by
  intro bs x rest hread
  rw [readRecord] at hread
  split at hread
  · contradiction
  · dsimp only at hread
    split at hread
    -- an object
    · split at hread
      · contradiction
      · rename_i parts _ hentries
        have hparts := ensures_readEntries h _ true hblank _ _ _ hentries
        split at hread
        · contradiction
        · rename_i y hy
          rw [← (Prod.mk.inj (Except.ok.inj hread)).1]
          exact hfinish parts y hparts hy
    · split at hread
      -- a list of fields
      · split at hread
        · contradiction
        · rename_i parts _ hfields
          have hparts := ensures_readFields h true hblank _ _ _ hfields
          split at hread
          · contradiction
          · rename_i y hy
            rw [← (Prod.mk.inj (Except.ok.inj hread)).1]
            exact hfinish parts y hparts hy
      · contradiction

theorem ensures_readRecord_none {schema : Schema δ α} {P : α → Prop} :
    Ensures (readRecord schema none) P := by
  intro bs x rest hread
  rw [readRecord] at hread
  split at hread
  · contradiction
  · split at hread
    · contradiction
    · split at hread <;> contradiction

end Records

end VmHandler.Json

namespace VmHandler.Dump

open VmHandler.Json

theorem ensures_field {δ α : Type} {key : String} {get : δ → Option α} {set : δ → α → δ}
    {read : Step α} {P : α → Prop} {I : δ → Prop} {parts : δ} (hread : Ensures read P)
    (hset : ∀ x, P x → I (set parts x)) :
    Ensures ((field key get set read).read parts) I := by
  intro bs parts' rest h
  simp only [field] at h
  split at h
  · contradiction
  · rename_i x _ hx
    rw [← (Prod.mk.inj (Except.ok.inj h)).1]
    exact hset x (hread _ x _ hx)

theorem ensures_true {α : Type} (read : Step α) : Ensures read fun _ => True :=
  fun _ _ _ _ => trivial

/-! ## The depth of what is written -/

theorem depthOfItems_map_le_iff {α : Type} {written : α → Value} {xs : List α} {n : Nat} :
    depthOfItems (xs.map written) ≤ n ↔ ∀ x ∈ xs, (written x).depth ≤ n := by
  rw [depthOfItems_le_iff, List.forall_mem_map]

theorem depth_method (m : Method) : m.toValue.depth = 2 := by
  have hparams : depthOfItems (m.params.map ElementClass.toValue) = 0 :=
    Nat.le_zero.mp (depthOfItems_map_le_iff.mpr fun _ _ => Nat.le_refl 0)
  have hlocals : depthOfItems (m.locals.map Value.text) = 0 :=
    Nat.le_zero.mp (depthOfItems_map_le_iff.mpr fun _ _ => Nat.le_refl 0)
  simp only [Method.toValue, Token.toValue, ElementClass.toValue, Value.depth, depthOfEntries,
    hparams, hlocals]
  rfl

theorem toValues_eq_map (f : Forest) : Forest.toValues f = f.map TypeDecl.toValue := by
  induction f with
  | nil => rw [Forest.toValues, List.map_nil]
  | cons t ts ih => rw [Forest.toValues, ih, List.map_cons]

theorem depth_type (t : TypeDecl) :
    t.toValue.depth =
      max (depthOfItems (t.methods.map Method.toValue)) (depthOfItems (Forest.toValues t.nested))
        + 2 := by
  obtain ⟨token, space, name, methods, nested⟩ := t
  simp only [TypeDecl.toValue, Token.toValue, Value.depth, depthOfEntries]
  omega

theorem depth_dump (d : Dump) : d.toValue.depth = depthOfItems (Forest.toValues d.types) + 2 := by
  simp only [Dump.toValue, Value.depth, depthOfEntries]
  omega

/-! ## The depth of what is read -/

theorem ensures_readMethod (brackets : Nat) :
    Ensures (readMethod brackets) fun m => m.toValue.depth ≤ brackets + 1 := by
  cases brackets with
  | zero => exact ensures_readRecord_none
  | succ brackets =>
      have hkeeps : Keeps (methodFields brackets) fun _ => True := fun f _ parts _ => ensures_true _
      refine ensures_readRecord hkeeps trivial fun _ m _ _ => ?_
      rw [depth_method]
      omega

theorem ensures_readMethods (brackets : Nat) :
    Ensures (readList (inside readMethod brackets)) fun ms =>
      depthOfItems (ms.map Method.toValue) ≤ brackets := by
  cases brackets with
  | zero => exact ensures_readList_none
  | succ brackets =>
      intro bs ms rest hread
      exact depthOfItems_map_le_iff.mpr (ensures_readList (ensures_readMethod brackets) _ _ _ hread)

/-- The lists among the parts of a type are at most so deep. -/
structure TypeParts.Within (depth : Nat) (p : TypeParts) : Prop where
  methods : ∀ ms ∈ p.methods, depthOfItems (ms.map Method.toValue) ≤ depth
  nested : ∀ f ∈ p.nested, depthOfItems (Forest.toValues f) ≤ depth

theorem keeps_typeFields {brackets : Nat} {readNested : Step Forest}
    (h : Ensures readNested fun f => depthOfItems (Forest.toValues f) ≤ brackets) :
    Keeps (typeFields brackets readNested) (TypeParts.Within brackets) := by
  simp only [Keeps, typeFields, List.forall_mem_cons]
  refine ⟨fun p hp => ?token, fun p hp => ?space, fun p hp => ?name, fun p hp => ?methods,
    fun p hp => ?nested, by simp⟩
  case token => exact ensures_field (ensures_true _) fun _ _ => ⟨hp.methods, hp.nested⟩
  case space => exact ensures_field (ensures_true _) fun _ _ => ⟨hp.methods, hp.nested⟩
  case name => exact ensures_field (ensures_true _) fun _ _ => ⟨hp.methods, hp.nested⟩
  case methods =>
    refine ensures_field (ensures_readMethods brackets) fun ms hms => ⟨?_, hp.nested⟩
    rintro _ ⟨⟩
    exact hms
  case nested =>
    refine ensures_field h fun f hf => ⟨hp.methods, ?_⟩
    rintro _ ⟨⟩
    exact hf

/-- A type whose parts are within a depth is at most two deeper. -/
theorem depth_of_typeSchema_finish {depth : Nat} {p : TypeParts} {t : TypeDecl}
    (hp : p.Within depth) (h : typeSchema.finish p = .ok t) : t.toValue.depth ≤ depth + 2 := by
  have hmethods : depthOfItems ((p.methods.getD []).map Method.toValue) ≤ depth := by
    cases hms : p.methods with
    | none => exact Nat.zero_le depth
    | some ms => exact hp.methods ms hms
  have hnested : depthOfItems (Forest.toValues (p.nested.getD [])) ≤ depth := by
    cases hf : p.nested with
    | none => exact Nat.zero_le depth
    | some f => exact hp.nested f hf
  simp only [typeSchema] at h
  split at h
  · contradiction
  · rw [← Except.ok.inj h, depth_type]
    exact Nat.add_le_add_right (Nat.max_le.mpr ⟨hmethods, hnested⟩) 2

/-- Both readers at once, as each of them hands its brackets less one to the other. -/
theorem ensures_readType_and_readTypes (brackets : Nat) :
    Ensures (readType brackets) (fun t => t.toValue.depth ≤ brackets + 1) ∧
      Ensures (readTypes brackets) (fun f => depthOfItems (Forest.toValues f) ≤ brackets) := by
  induction brackets with
  | zero =>
      rw [readType, readTypes]
      exact ⟨ensures_readRecord_none, ensures_readList_none⟩
  | succ brackets ih =>
      obtain ⟨htype, htypes⟩ := ih
      rw [readType, readTypes]
      constructor
      · refine ensures_readRecord (keeps_typeFields htypes) ⟨nofun, nofun⟩ fun p t hp ht => ?_
        exact depth_of_typeSchema_finish hp ht
      · intro bs f rest hread
        rw [toValues_eq_map]
        exact depthOfItems_map_le_iff.mpr (ensures_readList htype _ _ _ hread)

/-- A dump that is read, written with all its fields, opens at most one bracket more. -/
theorem ensures_read (brackets : Nat) :
    Ensures (read brackets) fun d => d.toValue.depth ≤ brackets + 1 := by
  cases brackets with
  | zero => exact ensures_readRecord_none
  | succ brackets =>
      have htypes := (ensures_readType_and_readTypes brackets).2
      have hkeeps : Keeps (fields brackets) fun p =>
          ∀ f ∈ p.types, depthOfItems (Forest.toValues f) ≤ brackets := by
        simp only [Keeps, fields, List.forall_mem_cons]
        refine ⟨fun p hp => ensures_field (ensures_true _) fun _ _ => hp, fun p hp => ?_, by simp⟩
        refine ensures_field htypes fun f hf => ?_
        rintro _ ⟨⟩
        exact hf
      refine ensures_readRecord hkeeps nofun fun p d hp hd => ?_
      rw [← Except.ok.inj hd, depth_dump]
      cases hf : p.types with
      | none => exact Nat.le_add_left 2 brackets
      | some f => exact Nat.add_le_add_right (hp f hf) 2

end VmHandler.Dump
