import Mathlib.Data.List.Pairwise
import Mathlib.Logic.Relation
import VmHandler.Proofs.DumpMeaning

/-!
# Respelling dumps

A module is loaded from what a dump says, not from how the dump says it. At every depth the entries
of a module, a type or a method may change their order, entries with unknown keys may be added, a
token may be a text or a numeral, and attributes that are no modifiers may be there or not: each of
these steps leaves what is found in the document as it is, and so do any number of them.
-/

set_option autoImplicit false

namespace VmHandler.Dump

open VmHandler.Json

/-! ## Steps -/

/-- What a document may stand for inside a dump. -/
inductive Place where
  | module
  | types
  | type
  | methods
  | method
  | token
  /-- the attributes of a method -/
  | flags
  deriving DecidableEq

/-- The keys of the fields of a record, each with what its value stands for if that may be spelled
in several ways. -/
def Place.fields : Place → List (String × Option Place)
  | .module => [("name", none), ("types", some .types)]
  | .type =>
      [("token", some .token), ("namespace", none), ("name", none), ("methods", some .methods),
        ("nested_types", some .types)]
  | .method =>
      [("token", some .token), ("name", none), ("flags", some .flags), ("return_type", none),
        ("params", none), ("locals", none)]
  | _ => []

/-- What the elements of a list stand for. -/
def Place.item? : Place → Option Place
  | .types => some .type
  | .methods => some .method
  | _ => none

/-- One step of spelling a document in another way. -/
inductive Respelled : Place → Document → Document → Prop where
  /-- the entries of a record change their order -/
  | reorder {p : Place} {es es' : List (Option String × Document)} (hp : p.fields ≠ [])
      (h : es.Perm es') : Respelled p (.object es) (.object es')
  /-- an entry is added whose key names no field -/
  | add {p : Place} {key : String} (hp : p.fields ≠ []) (hkey : key ∉ p.fields.map Prod.fst)
      (es es' : List (Option String × Document)) (d : Document) :
      Respelled p (.object (es ++ es')) (.object (es ++ (some key, d) :: es'))
  /-- the value of a field is spelled in another way -/
  | value {p q : Place} {key : String} (hq : (key, some q) ∈ p.fields)
      (es es' : List (Option String × Document)) {d d' : Document} (h : Respelled q d d') :
      Respelled p (.object (es ++ (some key, d) :: es')) (.object (es ++ (some key, d') :: es'))
  /-- an element of a list is spelled in another way -/
  | item {p q : Place} (hq : p.item? = some q) (ds ds' : List Document) {d d' : Document}
      (h : Respelled q d d') : Respelled p (.list (ds ++ d :: ds')) (.list (ds ++ d' :: ds'))
  /-- a text that stands for a token becomes the numeral of its word -/
  | toNumeral {s : String} {t : Token} (h : Token.parse? s = some t) :
      Respelled .token (.text (some s)) (.number (.natural t.value.toNat))
  /-- the numeral of the word of a token becomes a text that stands for the token -/
  | toText {s : String} {t : Token} (h : Token.parse? s = some t) :
      Respelled .token (.number (.natural t.value.toNat)) (.text (some s))
  /-- attributes change that are no modifiers -/
  | flags {w w' : UInt32} (h : w &&& Modifiers.mask = w' &&& Modifiers.mask) :
      Respelled .flags (.number (.natural w.toNat)) (.number (.natural w'.toNat))

/-! ## What is found there -/

/-- The same is found in two documents, where so many brackets may be opened. -/
def Place.Alike (brackets : Nat) (d d' : Document) : Place → Prop
  | .module => found (read brackets) d = found (read brackets) d'
  | .types => found (readTypes brackets) d = found (readTypes brackets) d'
  | .type => found (readType brackets) d = found (readType brackets) d'
  | .methods =>
      found (readList (inside readMethod brackets)) d =
        found (readList (inside readMethod brackets)) d'
  | .method => found (readMethod brackets) d = found (readMethod brackets) d'
  | .token => found (readToken brackets) d = found (readToken brackets) d'
  | .flags => found readModifiers d = found readModifiers d'

section Fields

variable {δ α β : Type} {key key' : String} {get : δ → Option α} {get' : δ → Option β}
  {set : δ → α → δ} {set' : δ → β → δ} {read : Step α} {read' : Step β}

theorem found_field (parts : δ) (d : Document) :
    found ((field key get set read).read parts) d = (found read d).map (set parts) := by
  simp only [found, field]
  cases read (utf8 d.chars) <;> rfl

/-- Fields that are held in parts of their own may be read in either order. -/
theorem apart_field (hget : ∀ p x, (get' (set p x)).isSome = (get' p).isSome)
    (hget' : ∀ p y, (get (set' p y)).isSome = (get p).isSome)
    (hset : ∀ p x y, set' (set p x) y = set (set' p y) x) :
    Apart (field key get set read) (field key' get' set' read') := by
  intro parts d d'
  cases parts with
  | none => rfl
  | some p =>
      have hpresent : (field key get set read).present = fun p => (get p).isSome := rfl
      have hpresent' : (field key' get' set' read').present = fun p => (get' p).isSome := rfl
      simp only [take, found_field, Option.bind_some, hpresent, hpresent']
      cases hp : (get p).isSome <;> cases hp' : (get' p).isSome <;> cases found read d <;>
        cases found read' d' <;> simp [hp, hp', hget, hget', hset]

/-- A field is read once at most. -/
theorem apart_self (hget : ∀ p x, (get (set p x)).isSome = true) :
    Apart (field key get set read) (field key get set read) := by
  have hnone (parts : Option δ) (d d' : Document) :
      take (field key get set read) (take (field key get set read) parts d) d' = none := by
    cases parts with
    | none => rfl
    | some p =>
        have hpresent : (field key get set read).present = fun p => (get p).isSome := rfl
        simp only [take, found_field, Option.bind_some, hpresent]
        cases hp : (get p).isSome <;> cases found read d <;> simp [hget]
  intro parts d d'
  rw [hnone, hnone]

end Fields

/-! ## Fields of records -/

/-- The field makes the same of values in which the same is found. -/
def KeepsAlike (p : Place) (brackets : Nat) {δ : Type} (f : FieldReader δ) : Prop :=
  ∀ q, (f.key, some q) ∈ p.fields → ∀ d d', q.Alike brackets d d' → ∀ parts,
    found (f.read parts) d = found (f.read parts) d'

/-- The fields that are read where a record stands. -/
structure Fits (p : Place) (brackets : Nat) {δ : Type} (fields : List (FieldReader δ)) : Prop where
  /-- They have the keys of the record. -/
  keys : fields.map (·.key) = p.fields.map Prod.fst
  /-- Each of them is read once at most. -/
  once : ∀ f ∈ fields, Apart f f
  /-- They may be read in any order. -/
  apart : fields.Pairwise Apart
  /-- They make the same of values in which the same is found. -/
  alike : ∀ f ∈ fields, KeepsAlike p brackets f

section Fields

variable {δ α : Type} {key : String} {get : δ → Option α} {set : δ → α → δ} {read : Step α}
  {p q : Place} {brackets : Nat}

theorem keepsAlike_of_not_mem (h : ∀ q, (key, some q) ∉ p.fields) :
    KeepsAlike p brackets (field key get set read) :=
  fun q hq => absurd hq (h q)

theorem keepsAlike_of_alike (hq : ∀ q', (key, some q') ∈ p.fields → q' = q)
    (h : ∀ d d', q.Alike brackets d d' → found read d = found read d') :
    KeepsAlike p brackets (field key get set read) := by
  intro q' hq' d d' halike parts
  rw [hq q' hq'] at halike
  rw [found_field, found_field, h d d' halike]

end Fields

theorem fits_methodFields (brackets : Nat) : Fits .method brackets (methodFields brackets) where
  keys := rfl
  once := by
    simp only [methodFields, List.forall_mem_cons]
    exact ⟨apart_self fun _ _ => rfl, apart_self fun _ _ => rfl, apart_self fun _ _ => rfl,
      apart_self fun _ _ => rfl, apart_self fun _ _ => rfl, apart_self fun _ _ => rfl, by simp⟩
  apart := by
    simp only [methodFields, List.pairwise_cons, List.forall_mem_cons]
    and_intros
    all_goals first
      | exact apart_field (fun _ _ => rfl) (fun _ _ => rfl) fun _ _ _ => rfl
      | simp
  alike := by
    simp only [methodFields, List.forall_mem_cons]
    refine ⟨keepsAlike_of_alike (q := .token) (by simp [Place.fields]) fun _ _ h => h,
      keepsAlike_of_not_mem (by simp [Place.fields]),
      keepsAlike_of_alike (q := .flags) (by simp [Place.fields]) fun _ _ h => h,
      keepsAlike_of_not_mem (by simp [Place.fields]),
      keepsAlike_of_not_mem (by simp [Place.fields]),
      keepsAlike_of_not_mem (by simp [Place.fields]), by simp⟩

theorem fits_typeFields (brackets : Nat) :
    Fits .type brackets (typeFields brackets (readTypes brackets)) where
  keys := rfl
  once := by
    simp only [typeFields, List.forall_mem_cons]
    exact ⟨apart_self fun _ _ => rfl, apart_self fun _ _ => rfl, apart_self fun _ _ => rfl,
      apart_self fun _ _ => rfl, apart_self fun _ _ => rfl, by simp⟩
  apart := by
    simp only [typeFields, List.pairwise_cons, List.forall_mem_cons]
    and_intros
    all_goals first
      | exact apart_field (fun _ _ => rfl) (fun _ _ => rfl) fun _ _ _ => rfl
      | simp
  alike := by
    simp only [typeFields, List.forall_mem_cons]
    refine ⟨keepsAlike_of_alike (q := .token) (by simp [Place.fields]) fun _ _ h => h,
      keepsAlike_of_not_mem (by simp [Place.fields]),
      keepsAlike_of_not_mem (by simp [Place.fields]),
      keepsAlike_of_alike (q := .methods) (by simp [Place.fields]) fun _ _ h => h,
      keepsAlike_of_alike (q := .types) (by simp [Place.fields]) fun _ _ h => h, by simp⟩

theorem fits_fields (brackets : Nat) : Fits .module brackets (fields brackets) where
  keys := rfl
  once := by
    simp only [fields, List.forall_mem_cons]
    exact ⟨apart_self fun _ _ => rfl, apart_self fun _ _ => rfl, by simp⟩
  apart := by
    simp only [fields, List.pairwise_cons, List.forall_mem_cons]
    and_intros
    all_goals first
      | exact apart_field (fun _ _ => rfl) (fun _ _ => rfl) fun _ _ _ => rfl
      | simp
  alike := by
    simp only [fields, List.forall_mem_cons]
    exact ⟨keepsAlike_of_not_mem (by simp [Place.fields]),
      keepsAlike_of_alike (q := .types) (by simp [Place.fields]) fun _ _ h => h, by simp⟩

/-! ## Steps and what is found -/

instance {δ : Type} : Std.Symm (α := FieldReader δ) Apart := ⟨fun _ _ h => h.symm⟩

/-- Documents that give the same record are alike where a record stands. -/
theorem Place.alike_of_record {p : Place} (hp : p.fields ≠ []) {d d' : Document} (brackets : Nat)
    (h : ∀ (b : Nat) {δ α : Type} (schema : Schema δ α) (fields : List (FieldReader δ)),
      Fits p b fields → Document.record? schema fields d = Document.record? schema fields d') :
    p.Alike brackets d d' := by
  cases p with
  | module =>
      cases brackets with
      | zero => rw [Alike, read, inside, finds_readRecord_none.found_eq]
      | succ b =>
          rw [Alike, (finds_read b).found_eq]
          exact h b schema _ (fits_fields b)
  | type =>
      cases brackets with
      | zero => rw [Alike, readType, finds_readRecord_none.found_eq]
      | succ b =>
          rw [Alike, (finds_readType b).found_eq]
          exact h b typeSchema _ (fits_typeFields b)
  | method =>
      cases brackets with
      | zero => rw [Alike, readMethod, inside, finds_readRecord_none.found_eq]
      | succ b =>
          rw [Alike, (finds_readMethod b).found_eq]
          exact h b methodSchema _ (fits_methodFields b)
  | types => contradiction
  | methods => contradiction
  | token => contradiction
  | flags => contradiction

/-- Lists whose elements are alike but for one are alike if this one is. -/
theorem Place.alike_list {p q : Place} (hq : p.item? = some q) (ds ds' : List Document)
    {d d' : Document} (h : ∀ brackets, q.Alike brackets d d') (brackets : Nat) :
    p.Alike brackets (.list (ds ++ d :: ds')) (.list (ds ++ d' :: ds')) := by
  have hitems {α : Type} (find : Document → Option α) (hfind : find d = find d') :
      Document.items? find (.list (ds ++ d :: ds')) =
        Document.items? find (.list (ds ++ d' :: ds')) := by
    simp only [Document.items?, List.mapM_append, List.mapM_cons, hfind]
  cases p with
  | types =>
      cases hq
      cases brackets with
      | zero => rw [Alike, readTypes, finds_readList_none.found_eq]
      | succ b =>
          rw [Alike, (finds_readTypes b).found_eq]
          exact hitems _ (h b)
  | methods =>
      cases hq
      cases brackets with
      | zero => rw [Alike, inside, finds_readList_none.found_eq]
      | succ b =>
          rw [Alike, inside, (finds_readList (steady_readMethod b)).found_eq]
          exact hitems _ (h b)
  | module => contradiction
  | type => contradiction
  | method => contradiction
  | token => contradiction
  | flags => contradiction

theorem found_numeral (brackets : Nat) (t : Token) :
    found (readToken brackets) (.number (.natural t.value.toNat)) = some t := by
  rw [(finds_readToken brackets).found_eq, token?, Numeral.word?_eq_some_iff.mpr rfl]
  rfl

theorem found_text (brackets : Nat) {s : String} {t : Token} (h : Token.parse? s = some t) :
    found (readToken brackets) (.text (some s)) = some t := by
  rw [(finds_readToken brackets).found_eq]
  exact h

theorem found_flags (w : UInt32) :
    found readModifiers (.number (.natural w.toNat)) = some (.ofFlags w) := by
  have hword : (Document.number (.natural w.toNat)).word? = some w :=
    Numeral.word?_eq_some_iff.mpr rfl
  simp only [finds_readModifiers.found_eq, hword, Option.map_some]

/-- One step changes nothing that is found. -/
theorem Respelled.alike {p : Place} {d d' : Document} (h : Respelled p d d') (brackets : Nat) :
    p.Alike brackets d d' := by
  induction h generalizing brackets with
  | reorder hp hperm =>
      refine Place.alike_of_record hp brackets fun b _ _ schema fields hfits => ?_
      exact record?_eq_of_perm (List.Pairwise.forall_of_forall hfits.once hfits.apart) hperm
  | @add p key hp hkey es es' d =>
      refine Place.alike_of_record hp brackets fun b _ _ schema fields hfits => ?_
      refine (record?_insert (fun f hf heq => hkey ?_) es es' d).symm
      rw [← hfits.keys, ← heq]
      exact List.mem_map_of_mem hf
  | @value p q key hq es es' d d' _ ih =>
      have hp : p.fields ≠ [] := List.ne_nil_of_mem hq
      refine Place.alike_of_record hp brackets fun b _ _ schema fields hfits => ?_
      refine record?_replace (fun f hf heq parts => ?_) es es'
      exact hfits.alike f hf q (by rwa [heq]) d d' (ih b) parts
  | item hq ds ds' _ ih => exact Place.alike_list hq ds ds' ih brackets
  | toNumeral h =>
      rw [Place.Alike, found_text brackets h, found_numeral]
  | toText h =>
      rw [Place.Alike, found_text brackets h, found_numeral]
  | @flags w w' h =>
      have hmodifiers : Modifiers.ofFlags w = Modifiers.ofFlags w' := by
        simp only [Modifiers.ofFlags, h]
      rw [Place.Alike, found_flags, found_flags, hmodifiers]

theorem Place.Alike.trans {p : Place} {brackets : Nat} {d d' d'' : Document}
    (h : p.Alike brackets d d') (h' : p.Alike brackets d' d'') : p.Alike brackets d d'' := by
  cases p <;> exact Eq.trans h h'

/-- Nor do any number of steps. -/
theorem Place.alike_of_respelled {p : Place} {d d' : Document}
    (h : Relation.ReflTransGen (Respelled p) d d') (brackets : Nat) : p.Alike brackets d d' := by
  induction h with
  | refl => cases p <;> exact Eq.refl _
  | tail _ hstep ih => exact ih.trans (hstep.alike brackets)

theorem found_eq_of_respelled {d d' : Document}
    (h : Relation.ReflTransGen (Respelled .module) d d') (brackets : Nat) :
    found (read brackets) d = found (read brackets) d' :=
  Place.alike_of_respelled h brackets

end VmHandler.Dump

namespace VmHandler.Module

open VmHandler.Json

/-- A module is loaded from a text exactly if its dump is found in the document of the text. -/
theorem ofJson_eq_ok_iff {d : Document} {s : String} (hs : d.Written s) {m : Module} :
    ofJson s = .ok m ↔ found (Dump.read Dump.maxBrackets) d = some m.toDump := by
  have hsteady : Steady (Dump.read Dump.maxBrackets) := (Dump.finds_read 126).steady
  have hread := readWhole_of_written hsteady hs
  rw [ofJson, ofOctets_eq_ok_iff, Dump.ofOctets, ← toOption_eq_some_iff, hread]

/-- Texts of two dumps of which one is the other spelled in another way, in any number of steps at
any depth, load the same modules: if one of them is a module, the other one is the same module. -/
theorem loads_however_spelled {d d' : Document} {s s' : String} (hs : d.Written s)
    (hs' : d'.Written s') (h : Relation.ReflTransGen (Dump.Respelled .module) d d') (m : Module) :
    ofJson s = .ok m ↔ ofJson s' = .ok m := by
  rw [ofJson_eq_ok_iff hs, ofJson_eq_ok_iff hs', Dump.found_eq_of_respelled h]

/-- A forest of one type with one method. -/
def single : Forest :=
  [⟨⟨0x02000002⟩, "", "T", [{ token := ⟨0x06000001⟩, modifiers := .ofFlags 0x0010 }], []⟩]

/-- The entries of a dump of that forest, with the token of the type and the attributes of the method
left open and with further entries of the method. -/
def singleEntries (token : Document) (flags : UInt32) (more : List (Option String × Document)) :
    List (Option String × Document) :=
  [(some "name", .text (some "m")),
    (some "types", .list [.object
      [(some "token", token), (some "namespace", .text (some "")), (some "name", .text (some "T")),
        (some "methods", .list [.object
          ([(some "token", .text (some "0x06000001")), (some "name", .text (some "")),
            (some "flags", .number (.natural flags.toNat)),
            (some "return_type", .text (some "void")), (some "params", .list []),
            (some "locals", .list [])] ++ more)]),
        (some "nested_types", .list [])]])]

theorem respelled_single (more : Document) :
    Relation.ReflTransGen (Dump.Respelled .module)
      (.object (singleEntries (.text (some "0x02000002")) 0x0010 []))
      (.object (singleEntries (.number (.natural 33554434)) 0x0016
        [(some "extra", more)]).reverse) := by
  have htoken : Dump.Respelled .module
      (.object (singleEntries (.text (some "0x02000002")) 0x0010 []))
      (.object (singleEntries (.number (.natural 33554434)) 0x0010 [])) :=
    .value (q := .types) (by decide) [_] [] (.item (q := .type) rfl [] []
      (.value (q := .token) (by decide) [] _ (.toNumeral (t := ⟨0x02000002⟩) (by decide))))
  have hflags : Dump.Respelled .module
      (.object (singleEntries (.number (.natural 33554434)) 0x0010 []))
      (.object (singleEntries (.number (.natural 33554434)) 0x0016 [])) :=
    .value (q := .types) (by decide) [_] [] (.item (q := .type) rfl [] []
      (.value (q := .methods) (by decide) [_, _, _] [_] (.item (q := .method) rfl [] []
        (.value (q := .flags) (by decide) [_, _] [_, _, _] (.flags (by decide))))))
  have hextra : Dump.Respelled .module
      (.object (singleEntries (.number (.natural 33554434)) 0x0016 []))
      (.object (singleEntries (.number (.natural 33554434)) 0x0016 [(some "extra", more)])) :=
    .value (q := .types) (by decide) [_] [] (.item (q := .type) rfl [] []
      (.value (q := .methods) (by decide) [_, _, _] [_] (.item (q := .method) rfl [] []
        (.add (by decide) (by decide) _ [] more))))
  have horder := Dump.Respelled.reorder (p := .module) (by decide)
    (List.reverse_perm
      (singleEntries (.number (.natural 33554434)) 0x0016 [(some "extra", more)])).symm
  exact (((Relation.ReflTransGen.single htoken).tail hflags).tail hextra).tail horder

/-- A list whose values are neither a number that has a double nor a text that has characters. -/
def unreadable : Document := .list [.number ⟨false, 1, [], some ⟨false, none, 4, [0, 0]⟩⟩, .text none]

/-- What is written of a module is loaded as the module, and so is the same dump spelled in another
way, with a value for an unknown key that could not be read. -/
theorem single_loads_however_spelled :
    ∃ m, build "m" single = .ok m ∧ ofJson m.toJson = .ok m ∧
      ofJson ("\x7b\"types\":[\x7b\"token\":33554434,\"namespace\":\"\",\"name\":\"T\"," ++
        "\"methods\":[\x7b\"token\":\"0x06000001\",\"name\":\"\",\"flags\":22," ++
        "\"return_type\":\"void\",\"params\":[],\"locals\":[]," ++
        "\"extra\":[1e400,\"\\ud800\"]\x7d],\"nested_types\":[]\x7d],\"name\":\"m\"\x7d") = .ok m := by
  obtain ⟨m, hm, -⟩ := exists_build_of_tokens "m" single
    ⟨by decide, by decide⟩ ⟨by decide, by decide⟩
  obtain ⟨hname, hforest⟩ := build_eq_ok_iff.mp hm
  have hjson : m.toJson = (Dump.mk "m" single).toJson := by
    rw [toJson, toDump, hname, hforest]
  have hload : ofJson m.toJson = .ok m := by
    rw [ofJson_toJson, if_pos]
    rw [hjson, Dump.toJson, nesting_compact]
    decide
  have hplain : m.toJson = String.ofList
      (Document.object (singleEntries (.text (some "0x02000002")) 0x0010 [])).chars := by
    rw [hjson]
    exact congrArg String.ofList (by decide +kernel)
  have hother := Document.written_chars
    (.object (singleEntries (.number (.natural 33554434)) 0x0016 [(some "extra", unreadable)]).reverse)
  have hspelled := loads_however_spelled (hplain ▸ Document.written_chars _) hother
    (respelled_single unreadable) m
  exact ⟨m, hm, hload, (congrArg ofJson (by decide +kernel)).trans (hspelled.mp hload)⟩

end VmHandler.Module
