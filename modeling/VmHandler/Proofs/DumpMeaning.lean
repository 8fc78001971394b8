import VmHandler.Proofs.Records
import VmHandler.Proofs.RoundTrip

/-!
# What dumps hold

What is found in the documents of tokens, element classes, methods, types and dumps. A token is
found in a text that stands for it and in the numeral of its word; every other document is refused.
-/

set_option autoImplicit false

namespace VmHandler.Dump

open VmHandler.Json

/-! ## Tokens -/

/-- The token that a document is. -/
def token? : Document → Option Token
  | .number n => n.word?.map Token.mk
  | .text content => content.bind Token.parse?
  | _ => none

theorem readAny_of_beginsNumber {b : UInt8} (h : beginsNumber b = true) (bs : Octets) :
    readAny (b :: bs) = (readNumber (b :: bs)).map fun p => (p.1.found, p.2) := by
  obtain ⟨hn, ht, hf, hquote, -, -⟩ := ne_of_beginsNumber h
  rw [readAny, if_neg hn, if_neg ht, if_neg hf, if_neg hquote, if_pos h]
  cases readNumber (b :: bs) <;> rfl

theorem readAny_quote (bs : Octets) :
    readAny (octet '"' :: bs) = (readQuoted bs).map fun p => (.text p.1, p.2) := by
  rw [readAny, if_neg (by decide), if_neg (by decide), if_neg (by decide), if_pos rfl]
  cases readQuoted bs <;> rfl

/-- No number but an integer without a sign is a token. -/
theorem tokenOf_found_of_isOther {x : Number} (h : x.IsOther) :
    ∃ f, tokenOf x.found = .error f := by
  cases x with
  | natural n => exact h.elim
  | negative n =>
      cases n with
      | zero => exact absurd rfl h
      | succ n => exact ⟨_, rfl⟩
  | real x => exact ⟨_, rfl⟩

theorem tokenOf_natural (n : Nat) :
    (tokenOf (Number.natural n).found).toOption = (Numeral.natural n).word?.map Token.mk := by
  simp only [Number.found, tokenOf, Token.ofNat?, Numeral.natural, Numeral.word?]
  by_cases hn : n < UInt32.size
  · simp only [if_pos hn]
    rfl
  · simp only [if_neg hn]
    rfl

theorem finds_readToken (brackets : Nat) : Finds (readToken brackets) token? := by
  intro d rest bs h hrest
  rw [readToken]
  generalize skipBlanks bs = text at h
  cases h with
  | number n =>
      have hcases := readNumber_cases n hrest
      obtain ⟨b, bs, hn, hbegins⟩ := n.exists_utf8_eq_cons rest
      obtain ⟨-, -, -, -, hlist, hobject⟩ := ne_of_beginsNumber hbegins
      rw [hn] at hcases ⊢
      simp only [decide_eq_false hlist, decide_eq_false hobject, Bool.or_self, Bool.false_and,
        Bool.false_eq_true, if_false, readAny_of_beginsNumber hbegins, token?]
      rcases hcases with ⟨k, rfl, hread⟩ | ⟨hword, ⟨f, hread⟩ | ⟨x, rest', hread, hother⟩⟩
      · have htoken := tokenOf_natural k
        simp only [hread, Except.map]
        cases hof : tokenOf (Number.natural k).found <;> simp_all [Except.toOption]
      · rw [hread, hword]
        rfl
      · obtain ⟨f, hf⟩ := tokenOf_found_of_isOther hother
        simp only [hread, Except.map, hf, hword]
        rfl
  | text pieces =>
      have hfits : ((octet '"' = octet '[' || octet '"' = octet '\x7b') && brackets = 0) = false :=
        rfl
      simp only [hfits, Bool.false_eq_true, if_false, readAny_quote, token?]
      rcases readQuoted_cases pieces rest with ⟨hcontent, f, hread⟩ | ⟨s, hcontent, hread⟩
      · simp only [hread, hcontent, Except.map]
        rfl
      · simp only [hread, hcontent, Except.map, Option.bind_some, tokenOf]
        cases Token.parse? s <;> rfl
  | null => rfl
  | isTrue => rfl
  | isFalse => rfl
  | list => cases brackets <;> rfl
  | object => cases brackets <;> rfl

/-! ## Element classes -/

/-- The element class that the only key of an object names. -/
def onlyClass? : List (Option String × Document) → Option ElementClass
  | [(key, .null)] => key.bind ElementClass.ofName?
  | _ => none

/-- The element class that a document is: a name or, where a bracket may be opened, an object with a
name for its only key. -/
def class? (brackets : Nat) : Document → Option ElementClass
  | .text content => content.bind ElementClass.ofName?
  | .object es => if brackets = 0 then none else onlyClass? es
  | _ => none

theorem onlyClass?_eq_none {key : Option String} {d : Document}
    {es : List (Option String × Document)}
    (h : key.bind ElementClass.ofName? = none ∨ d ≠ .null ∨ es ≠ []) :
    onlyClass? ((key, d) :: es) = none := by
  unfold onlyClass?
  split
  · rename_i heq
    cases heq
    simpa using h
  · rfl

theorem readClassName_pieces (pieces : List Piece) (rest : Octets) :
    (readClassName (utf8 (pieces.flatMap Piece.chars) ++ octet '"' :: rest)).toOption =
      (((characters? pieces).map String.ofList).bind ElementClass.ofName?).map
        fun c => (c, rest) := by
  rw [readClassName]
  rcases readQuoted_cases pieces rest with ⟨hcontent, f, hread⟩ | ⟨s, hcontent, hread⟩
  · simp only [hread, hcontent]
    rfl
  · simp only [hread, hcontent, Option.bind_some, classOf]
    cases ElementClass.ofName? s <;> rfl

theorem readNull_of_begun {d : Document} {rest bs : Octets} (h : Begun rest d (skipBlanks bs)) :
    (d = .null ∧ readNull bs = .ok ((), rest)) ∨ (d ≠ .null ∧ ∃ f, readNull bs = .error f) := by
  rw [readNull]
  generalize skipBlanks bs = text at h
  cases h with
  | null => exact .inl ⟨rfl, rfl⟩
  | number n =>
      obtain ⟨b, bs, hn, hbegins⟩ := n.exists_utf8_eq_cons rest
      rw [hn]
      simp only [if_neg (ne_of_beginsNumber hbegins).1]
      exact .inr ⟨nofun, _, rfl⟩
  | text => exact .inr ⟨nofun, _, rfl⟩
  | isTrue => exact .inr ⟨nofun, _, rfl⟩
  | isFalse => exact .inr ⟨nofun, _, rfl⟩
  | list => exact .inr ⟨nofun, _, rfl⟩
  | object => exact .inr ⟨nofun, _, rfl⟩

theorem readClassEntry_of_laid {es : List (Option String × Document)} {cs : List Char}
    {rest : Octets} (hes : Laid (entryLexemes true es ++ [.word ['\x7d']]) cs) :
    (readClassEntry (utf8 cs ++ rest)).toOption =
      (onlyClass? es).map fun c => (c, rest) := by
  have hbegun := hes.entriesBegun rest
  rw [readClassEntry]
  generalize skipBlanks (utf8 cs ++ rest) = text at hbegun
  cases hbegun with
  | nil => rfl
  | @first _ d es entry cs' he hmore =>
      cases he with
      | @mk pieces _ colon value hcolon hd =>
          have hname := readClassName_pieces pieces colon
          have hafter : afterColon colon = .ok value := by
            rw [afterColon, hcolon]
            rfl
          simp only [if_true]
          rcases read_cases hname with ⟨hnone, f, hclass⟩ | ⟨c, hc, hclass⟩
          · rw [hclass, onlyClass?_eq_none (.inl hnone)]
            rfl
          · simp only [hclass, hafter]
            rcases readNull_of_begun hd with ⟨rfl, hnull⟩ | ⟨hne, f, hnull⟩
            · simp only [hnull]
              have hmore := hmore.entriesBegun rest
              generalize skipBlanks (utf8 cs' ++ rest) = text at hmore
              cases hmore with
              | nil =>
                  rw [onlyClass?, hc]
                  rfl
              | later =>
                  rw [onlyClass?_eq_none (.inr (.inr (List.cons_ne_nil _ _)))]
                  rfl
            · simp only [hnull]
              rw [onlyClass?_eq_none (.inr (.inl hne))]
              rfl

theorem finds_readClass (brackets : Nat) : Finds (readClass brackets) (class? brackets) := by
  intro d rest bs h hrest
  rw [readClass]
  generalize skipBlanks bs = text at h
  cases h with
  | text pieces => exact readClassName_pieces pieces rest
  | object hes =>
      cases brackets with
      | zero => rfl
      | succ brackets => exact readClassEntry_of_laid hes
  | number n =>
      obtain ⟨b, bs, hn, hbegins⟩ := n.exists_utf8_eq_cons rest
      obtain ⟨-, -, -, hquote, -, hobject⟩ := ne_of_beginsNumber hbegins
      rw [hn]
      simp only [if_neg hquote, if_neg hobject]
      rfl
  | null => rfl
  | isTrue => rfl
  | isFalse => rfl
  | list => rfl

/-! ## Fields -/

theorem finds_field {δ α : Type} {key : String} {get : δ → Option α} {set : δ → α → δ}
    {read : Step α} {find : Document → Option α} (h : Finds read find) (parts : δ) :
    Finds ((field key get set read).read parts) fun d => (find d).map (set parts) := by
  intro d rest bs hd hrest
  simp only [field]
  rcases h.cases hd hrest with ⟨hfind, f, hread⟩ | ⟨x, hfind, hread⟩
  · simp only [hread, hfind]
    rfl
  · simp only [hread, hfind]
    rfl

theorem finds_readModifiers :
    Finds readModifiers fun d => d.word?.map Modifiers.ofFlags := by
  intro d rest bs hd hrest
  rw [readModifiers]
  rcases finds_readWord.cases hd hrest with ⟨hfind, f, hread⟩ | ⟨x, hfind, hread⟩
  · simp only [hread, hfind]
    rfl
  · simp only [hread, hfind]
    rfl

theorem steady_readList_inside {α : Type} {item : Nat → Step α} (h : ∀ brackets, Steady (item brackets))
    (brackets : Nat) : Steady (readList (inside item brackets)) := by
  cases brackets with
  | zero => exact finds_readList_none.steady
  | succ brackets => exact (finds_readList (h brackets)).steady

/-! ## Methods, types and dumps -/

theorem steady_methodFields (brackets : Nat) :
    ∀ f ∈ methodFields brackets, ∀ parts, Steady (f.read parts) := by
  simp only [methodFields, List.forall_mem_cons]
  have hclasses := steady_readList_inside (fun b => (finds_readClass b).steady) brackets
  have htexts := steady_readList_inside (fun _ => finds_readText.steady) brackets
  exact ⟨fun p => (finds_field (finds_readToken brackets) p).steady,
    fun p => (finds_field finds_readText p).steady,
    fun p => (finds_field finds_readModifiers p).steady,
    fun p => (finds_field (finds_readClass brackets) p).steady,
    fun p => (finds_field hclasses p).steady, fun p => (finds_field htexts p).steady, by simp⟩

theorem finds_readMethod (brackets : Nat) :
    Finds (readMethod (brackets + 1)) (Document.record? methodSchema (methodFields brackets)) :=
  finds_readRecord (steady_methodFields brackets)

theorem steady_readMethod (brackets : Nat) : Steady (readMethod brackets) := by
  cases brackets with
  | zero => exact finds_readRecord_none.steady
  | succ brackets => exact (finds_readMethod brackets).steady

theorem steady_typeFields (brackets : Nat) {readNested : Step Forest} (h : Steady readNested) :
    ∀ f ∈ typeFields brackets readNested, ∀ parts, Steady (f.read parts) := by
  simp only [typeFields, List.forall_mem_cons]
  have hmethods := steady_readList_inside steady_readMethod brackets
  exact ⟨fun p => (finds_field (finds_readToken brackets) p).steady,
    fun p => (finds_field finds_readText p).steady, fun p => (finds_field finds_readText p).steady,
    fun p => (finds_field hmethods p).steady, fun p => (finds_field h p).steady, by simp⟩

/-- Both readers at once, as each of them hands its brackets less one to the other. -/
theorem steady_readType_and_readTypes (brackets : Nat) :
    Steady (readType brackets) ∧ Steady (readTypes brackets) := by
  induction brackets with
  | zero =>
      rw [readType, readTypes]
      exact ⟨finds_readRecord_none.steady, finds_readList_none.steady⟩
  | succ brackets ih =>
      obtain ⟨htype, htypes⟩ := ih
      rw [readType, readTypes]
      exact ⟨(finds_readRecord (steady_typeFields brackets htypes)).steady,
        (finds_readList htype).steady⟩

theorem finds_readType (brackets : Nat) :
    Finds (readType (brackets + 1))
      (Document.record? typeSchema (typeFields brackets (readTypes brackets))) := by
  rw [readType]
  exact finds_readRecord (steady_typeFields brackets (steady_readType_and_readTypes brackets).2)

theorem finds_readTypes (brackets : Nat) :
    Finds (readTypes (brackets + 1)) (Document.items? (found (readType brackets))) := by
  rw [readTypes]
  exact finds_readList (steady_readType_and_readTypes brackets).1

theorem steady_fields (brackets : Nat) :
    ∀ f ∈ fields brackets, ∀ parts, Steady (f.read parts) := by
  simp only [fields, List.forall_mem_cons]
  have htypes := (steady_readType_and_readTypes brackets).2
  exact ⟨fun p => (finds_field finds_readText p).steady, fun p => (finds_field htypes p).steady,
    by simp⟩

theorem finds_read (brackets : Nat) :
    Finds (read (brackets + 1)) (Document.record? schema (fields brackets)) :=
  finds_readRecord (steady_fields brackets)

end VmHandler.Dump

namespace VmHandler.Json

/-! ## Whole texts -/

/-- A whole text is read as what is found in its document. -/
theorem readWhole_of_written {α : Type} {read : Step α} {find : Document → Option α}
    (h : Finds read find) {d : Document} {s : String} (hs : d.Written s) :
    (readWhole read (octets s)).toOption = find d := by
  obtain ⟨trail, hbegun, htrail⟩ := hs.exists_begun
  have hblank : skipBlanks (utf8 trail) = [] := by
    have := skipBlanks_append_of_allBlank htrail []
    rwa [List.append_nil] at this
  rw [readWhole]
  rcases h.cases hbegun (startsWith_of_allBlank htrail) with ⟨hfind, f, hread⟩ | ⟨x, hfind, hread⟩
  · simp only [hread, hfind]
    rfl
  · simp only [hread, hfind, hblank]
    rfl

end VmHandler.Json
