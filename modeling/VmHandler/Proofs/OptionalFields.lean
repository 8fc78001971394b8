import Mathlib.Data.List.Forall2
import VmHandler.Proofs.Spelling

/-!
# Documents with fields left out

What a document means to a reader: something is found in it wherever the reader may open as many
brackets as the document is deep, and nothing is found elsewhere. A list means what its elements
mean, and a record what its entries mean, of which some may be left out; the parts of a record then
hold nothing for them.
-/

set_option autoImplicit false

namespace VmHandler.Dump

open VmHandler.Json

/-- In the document `d` the value `x` is found if so many brackets may be opened as `d` is deep, and
nothing otherwise. -/
def Means {α : Type} (read : Nat → Step α) (d : Document) (x : α) : Prop :=
  ∀ brackets, found (read brackets) d = if d.depth ≤ brackets then some x else none

/-! ## Scalars -/

/-- The document of a token: its text. -/
def tokenDocument (t : Token) : Document := .text (some t.text)

/-- The document of a text. -/
def textDocument (s : String) : Document := .text (some s)

/-- The document of the attributes of a method: the numeral of their word. -/
def flagsDocument (w : UInt32) : Document := .number (.natural w.toNat)

/-- The document of an element class: its name. -/
def classDocument (c : ElementClass) : Document := .text (some c.name)

theorem means_token (t : Token) : Means readToken (tokenDocument t) t := by
  intro brackets
  rw [tokenDocument, found_text brackets t.parse?_text, Document.depth,
    if_pos (Nat.zero_le brackets)]

theorem means_text (s : String) : Means (fun _ => readText) (textDocument s) s := by
  intro brackets
  rw [finds_readText.found_eq, textDocument, Document.depth, if_pos (Nat.zero_le brackets)]
  rfl

theorem means_flags (w : UInt32) :
    Means (fun _ => readModifiers) (flagsDocument w) (.ofFlags w) := by
  intro brackets
  rw [flagsDocument, found_flags, Document.depth, if_pos (Nat.zero_le brackets)]

theorem means_class (c : ElementClass) : Means readClass (classDocument c) c := by
  intro brackets
  rw [(finds_readClass brackets).found_eq, classDocument, Document.depth,
    if_pos (Nat.zero_le brackets), class?]
  exact c.ofName?_name

/-! ## Lists -/

section Lists

variable {α : Type} {item : Nat → Step α}

theorem mapM_found {ds : List Document} {xs : List α} (h : List.Forall₂ (Means item) ds xs)
    (brackets : Nat) :
    ds.mapM (found (item brackets)) =
      if Document.depthOfItems ds ≤ brackets then some xs else none := by
  induction h with
  | nil => rfl
  | @cons d x ds xs hd _ ih =>
      rw [List.mapM_cons, hd brackets, ih, Document.depthOfItems]
      simp only [Nat.max_le]
      by_cases hhead : d.depth ≤ brackets
      · by_cases htail : Document.depthOfItems ds ≤ brackets <;> simp [hhead, htail]
      · simp [hhead]

/-- A list means the values that its elements mean. -/
theorem means_list (hsteady : ∀ brackets, Steady (item brackets)) {ds : List Document}
    {xs : List α} (h : List.Forall₂ (Means item) ds xs) :
    Means (fun brackets => readList (inside item brackets)) (.list ds) xs := by
  intro brackets
  rw [Document.depth]
  cases brackets with
  | zero => exact congrFun finds_readList_none.found_eq (.list ds)
  | succ brackets =>
      simp only [inside, (finds_readList (hsteady brackets)).found_eq, Document.items?,
        Nat.add_le_add_iff_right]
      exact mapM_found h brackets

theorem means_list_map (hsteady : ∀ brackets, Steady (item brackets)) {document : α → Document}
    (h : ∀ x, Means item (document x) x) (xs : List α) :
    Means (fun brackets => readList (inside item brackets)) (.list (xs.map document)) xs := by
  refine means_list hsteady (List.forall₂_map_left_iff.mpr (List.forall₂_same.mpr ?_))
  intro x _
  exact h x

end Lists

/-! ## What may be left out -/

section Optional

variable {α β : Type}

/-- What takes the place of a list that may be left out. -/
theorem getD_map_const {R : α → β → Prop} {xs? : Option (List α)} {ys : List β}
    (h : List.Forall₂ R (xs?.getD []) ys) : (xs?.map fun _ => ys).getD [] = ys := by
  cases xs? with
  | none => exact (List.forall₂_nil_left_iff.mp h).symm
  | some xs => rfl

theorem rel_map_of_forall {R : α → β → Prop} {f : α → β} (h : ∀ x, R x (f x)) (x? : Option α) :
    Option.Rel R x? (x?.map f) := by
  cases x? with
  | none => exact .none
  | some x => exact .some (h x)

theorem rel_self_of_forall {R : α → α → Prop} (h : ∀ x, R x x) (x? : Option α) :
    Option.Rel R x? x? := by
  have hrel := rel_map_of_forall (f := id) h x?
  rwa [Option.map_id_apply] at hrel

/-- A list that may be left out means what its elements mean. -/
theorem rel_means_list {item : Nat → Step β} (hsteady : ∀ brackets, Steady (item brackets))
    {document : α → Document} {xs? : Option (List α)} {ys : List β}
    (h : List.Forall₂ (fun x y => Means item (document x) y) (xs?.getD []) ys) :
    Option.Rel
      (fun xs ys => Means (fun brackets => readList (inside item brackets))
        (.list (xs.map document)) ys)
      xs? (xs?.map fun _ => ys) := by
  cases xs? with
  | none => exact .none
  | some xs => exact .some (means_list hsteady (List.forall₂_map_left_iff.mpr h))

end Optional

/-! ## Records -/

/-- The entry of a field, if it is not left out. -/
def entryOf (key : String) (value : Option Document) : List (Option String × Document) :=
  (value.map fun d => (some key, d)).toList

section Records

variable {δ α γ : Type} {fields : Nat → List (FieldReader δ)}

/-- Entries lead from some parts of a record to others if so many brackets may be opened as they are
deep, and to none otherwise. -/
def Enters (fields : Nat → List (FieldReader δ)) (parts : δ) (es : List (Option String × Document))
    (parts' : δ) : Prop :=
  ∀ brackets, es.foldl (enter (fields brackets)) (some parts) =
    if Document.depthOfEntries es ≤ brackets then some parts' else none

theorem enters_nil (parts : δ) : Enters fields parts [] parts := fun _ => rfl

theorem Enters.append {parts parts' parts'' : δ} {es es' : List (Option String × Document)}
    (h : Enters fields parts es parts') (h' : Enters fields parts' es' parts'') :
    Enters fields parts (es ++ es') parts'' := by
  intro brackets
  rw [List.foldl_append, h brackets, Document.depthOfEntries_append]
  simp only [Nat.max_le]
  by_cases hdepth : Document.depthOfEntries es ≤ brackets
  · simp only [hdepth, if_true, true_and, h' brackets]
  · simp only [hdepth, if_false, false_and, foldl_enter_none]

section Field

variable {key : String} {get : δ → Option α} {set : δ → α → δ} {read : Nat → Step α} {parts : δ}

/-- A field that is not among the parts is entered with what its value means. -/
theorem enters_field
    (hfield : ∀ brackets,
      (fields brackets).find? (·.key = key) = some (field key get set (read brackets)))
    (habsent : (get parts).isSome = false) {d : Document} {x : α} (hmeans : Means read d x) :
    Enters fields parts [(some key, d)] (set parts x) := by
  intro brackets
  have hpresent : (field key get set (read brackets)).present parts = false := habsent
  simp only [List.foldl_cons, List.foldl_nil, enter, hfield, take, Option.bind_some, hpresent,
    Bool.false_eq_true, if_false, found_field, hmeans brackets, Document.depthOfEntries,
    Nat.max_zero]
  by_cases hdepth : d.depth ≤ brackets
  · simp only [hdepth, if_true, Option.map_some]
  · simp only [hdepth, if_false, Option.map_none]

/-- A field that may be left out is entered with what its value means, or not at all. -/
theorem enters_entryOf
    (hfield : ∀ brackets,
      (fields brackets).find? (·.key = key) = some (field key get set (read brackets)))
    (habsent : (get parts).isSome = false) (put : Option α → δ) (hnone : put none = parts)
    (hsome : ∀ x, put (some x) = set parts x) {document : γ → Document} {value : Option γ}
    {x? : Option α} (hmeans : Option.Rel (fun v x => Means read (document v) x) value x?) :
    Enters fields parts (entryOf key (value.map document)) (put x?) := by
  cases hmeans with
  | none =>
      rw [hnone]
      exact enters_nil parts
  | some h =>
      rw [hsome]
      exact enters_field hfield habsent h

end Field

/-- A record means what its entries lead to. -/
theorem means_record {schema : Schema δ α}
    (hsteady : ∀ brackets, ∀ f ∈ fields brackets, ∀ parts, Steady (f.read parts)) {parts : δ}
    {es : List (Option String × Document)} {x : α} (h : Enters fields schema.blank es parts)
    (hfinish : schema.finish parts = .ok x) :
    Means (fun brackets => readRecord schema (inside fields brackets)) (.object es) x := by
  intro brackets
  rw [Document.depth]
  cases brackets with
  | zero => exact congrFun finds_readRecord_none.found_eq (.object es)
  | succ brackets =>
      simp only [inside, (finds_readRecord (hsteady brackets)).found_eq, Document.record?,
        h brackets, Nat.add_le_add_iff_right]
      by_cases hdepth : Document.depthOfEntries es ≤ brackets
      · simp only [hdepth, if_true, Option.bind_some, hfinish]
        rfl
      · simp only [hdepth, if_false, Option.bind_none]

end Records

/-! ## Texts -/

section Texts

variable {p : Place} {d : Document} {s : String} {α : Type} {read : Nat → Step α} {x : α}
  {r : Except Fault α}

/-- What a document means is read from a text that spells it, unless that nests too deeply. -/
theorem eq_ok_of_means (hmeans : Means read d x) (hs : p.Spells d s)
    (hread : r.toOption = found (read maxBrackets) d) (hdepth : nesting s ≤ 127) : r = .ok x := by
  have hle : d.depth ≤ maxBrackets := hs.depth_le_nesting.trans hdepth
  rw [hmeans maxBrackets, if_pos hle] at hread
  exact toOption_eq_some_iff.mp hread

/-- Nothing else is read from a text that spells it. -/
theorem eq_of_means (hmeans : Means read d x) (hread : r.toOption = found (read maxBrackets) d)
    {y : α} (h : r = .ok y) : y = x := by
  rw [hmeans maxBrackets, toOption_eq_some_iff.mpr h] at hread
  split at hread
  · exact Option.some.inj hread
  · contradiction

end Texts

end VmHandler.Dump
