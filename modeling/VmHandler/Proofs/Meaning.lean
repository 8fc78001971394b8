import VmHandler.Json.Sequence
import VmHandler.Proofs.Skipping

/-!
# What readers find in documents

What a reader makes of a text depends on the document that the text holds, not on how it is written
or on what follows it. So a reader is described by a function on documents: of the entries of an
object one after the other for a record, of the elements for a list. Faults are not told apart, as
which one comes first depends on the text.
-/

set_option autoImplicit false

namespace VmHandler.Json

/-! ## Findings -/

theorem toOption_eq_some_iff {ε α : Type} {r : Except ε α} {x : α} :
    r.toOption = some x ↔ r = .ok x := by
  cases r <;> simp [Except.toOption]

theorem toOption_eq_none_iff {ε α : Type} {r : Except ε α} :
    r.toOption = none ↔ ∃ f, r = .error f := by
  cases r <;> simp [Except.toOption]

/-- Either nothing is found in a text and reading ends in a fault, or what is found is returned with
what follows the text. -/
theorem read_cases {α : Type} {r : Except Fault (α × Octets)} {x? : Option α} {rest : Octets}
    (h : r.toOption = x?.map fun x => (x, rest)) :
    (x? = none ∧ ∃ f, r = .error f) ∨ ∃ x, x? = some x ∧ r = .ok (x, rest) := by
  cases x? with
  | none => exact .inl ⟨rfl, toOption_eq_none_iff.mp h⟩
  | some x => exact .inr ⟨x, rfl, toOption_eq_some_iff.mp h⟩

section Findings

variable {α : Type} {read : Step α} {find : Document → Option α}

/-- Where a text of a document begins, the reader returns what is found in the document and what
follows the text, or a fault if nothing is found. What follows must not make a number go on. -/
def Finds (read : Step α) (find : Document → Option α) : Prop :=
  ∀ d rest bs, Begun rest d (skipBlanks bs) → startsWith continuesNumber rest = false →
    (read bs).toOption = (find d).map fun x => (x, rest)

/-- What a reader finds in a document. -/
def found (read : Step α) (d : Document) : Option α :=
  (read (utf8 d.chars)).toOption.map Prod.fst

theorem Finds.found_eq (h : Finds read find) : found read = find := by
  funext d
  have hbegun : Begun [] d (skipBlanks (utf8 d.chars)) := by
    have := (laid_flatMap_chars d.lexemes).begun []
    rwa [List.append_nil] at this
  rw [found, h d [] _ hbegun rfl, Option.map_map]
  exact Option.map_id'

/-- A reader that makes the same of all texts of a document. -/
def Steady (read : Step α) : Prop := Finds read (found read)

theorem Finds.steady (h : Finds read find) : Steady read := by
  rw [Steady, h.found_eq]
  exact h

/-- A reader either finds something or ends in a fault. -/
theorem Finds.cases (h : Finds read find) {d : Document} {rest bs : Octets}
    (hd : Begun rest d (skipBlanks bs)) (hrest : startsWith continuesNumber rest = false) :
    (find d = none ∧ ∃ f, read bs = .error f) ∨ ∃ x, find d = some x ∧ read bs = .ok (x, rest) :=
  read_cases (h d rest bs hd hrest)

theorem readQuoted_cases (pieces : List Piece) (rest : Octets) :
    ((characters? pieces).map String.ofList = none ∧
      ∃ f, readQuoted (utf8 (pieces.flatMap Piece.chars) ++ octet '"' :: rest) = .error f) ∨
    ∃ s, (characters? pieces).map String.ofList = some s ∧
      readQuoted (utf8 (pieces.flatMap Piece.chars) ++ octet '"' :: rest) = .ok (s, rest) :=
  read_cases (readQuoted_pieces pieces rest)

end Findings

/-! ## Scalars -/

/-- The text that a document is. -/
def Document.text? : Document → Option String
  | .text content => content
  | _ => none

/-- The word that a numeral without sign, fraction and exponent stands for. -/
def Numeral.word? : Numeral → Option UInt32
  | ⟨false, n, [], none⟩ => if n < UInt32.size then some (UInt32.ofNat n) else none
  | _ => none

theorem Numeral.word?_eq_some_iff {n : Numeral} {w : UInt32} :
    n.word? = some w ↔ n = .natural w.toNat := by
  constructor
  · intro h
    unfold word? at h
    split at h
    · split at h
      · rename_i k hk
        rw [← Option.some.inj h, UInt32.toNat_ofNat_of_lt' hk]
        rfl
      · contradiction
    · contradiction
  · rintro rfl
    have hw : w.toNat < UInt32.size := w.toNat_lt
    simp only [natural, word?, if_pos hw, UInt32.ofNat_toNat]

/-- The word that a document is. -/
def Document.word? : Document → Option UInt32
  | .number n => n.word?
  | _ => none

theorem Numeral.exists_utf8_eq_cons (n : Numeral) (rest : Octets) :
    ∃ b bs, utf8 n.chars ++ rest = b :: bs ∧ beginsNumber b = true := by
  obtain ⟨c, cs, hchars, hascii, hbegins⟩ := n.exists_chars_eq_cons
  exact ⟨octet c, utf8 cs ++ rest, by rw [hchars, utf8_cons_of_lt hascii, List.cons_append], hbegins⟩

/-- What a number begins with, nothing else begins with. -/
theorem ne_of_beginsNumber {b : UInt8} (h : beginsNumber b = true) :
    b ≠ octet 'n' ∧ b ≠ octet 't' ∧ b ≠ octet 'f' ∧ b ≠ octet '"' ∧ b ≠ octet '[' ∧
      b ≠ octet '\x7b' := by
  refine ⟨?_, ?_, ?_, ?_, ?_, ?_⟩ <;> rintro rfl <;> contradiction

/-- A numeral is read as what it stands for, as something that is no word, or not at all. -/
theorem readNumber_cases (n : Numeral) {rest : Octets}
    (hrest : startsWith continuesNumber rest = false) :
    (∃ k, n = .natural k ∧ readNumber (utf8 n.chars ++ rest) = .ok (.natural k, rest)) ∨
    (n.word? = none ∧
      ((∃ f, readNumber (utf8 n.chars ++ rest) = .error f) ∨
        ∃ x rest', readNumber (utf8 n.chars ++ rest) = .ok (x, rest') ∧ x.IsOther)) := by
  by_cases hn : ∃ k < UInt64.size, n = .natural k
  · obtain ⟨k, hk, rfl⟩ := hn
    exact .inl ⟨k, rfl, readNumber_natural hk hrest⟩
  · have hother (k : Nat) (hk : k < UInt64.size) : n ≠ .natural k := fun heq => hn ⟨k, hk, heq⟩
    refine .inr ⟨?_, ?_⟩
    · unfold Numeral.word?
      split
      · rename_i k
        refine if_neg fun hk => hother k (Nat.lt_trans hk (by decide)) rfl
      · rfl
    · cases hread : readNumber (utf8 n.chars ++ rest) with
      | error f => exact .inl ⟨f, rfl⟩
      | ok p => exact .inr ⟨p.1, p.2, rfl, isOther_of_readNumber hother hrest hread⟩

theorem finds_readText : Finds readText Document.text? := by
  intro d rest bs h hrest
  rw [readText]
  generalize skipBlanks bs = text at h
  cases h with
  | text pieces => exact readQuoted_pieces pieces rest
  | number n =>
      obtain ⟨b, bs, hn, hbegins⟩ := n.exists_utf8_eq_cons rest
      obtain ⟨-, -, -, hquote, -, -⟩ := ne_of_beginsNumber hbegins
      rw [hn]
      simp only [if_neg hquote]
      rfl
  | null => rfl
  | isTrue => rfl
  | isFalse => rfl
  | list => rfl
  | object => rfl

theorem finds_readWord : Finds readWord Document.word? := by
  intro d rest bs h hrest
  rw [readWord]
  generalize skipBlanks bs = text at h
  cases h with
  | number n =>
      have hcases := readNumber_cases n hrest
      obtain ⟨b, bs, hn, hbegins⟩ := n.exists_utf8_eq_cons rest
      rw [hn] at hcases ⊢
      simp only [hbegins, if_true, Document.word?]
      rcases hcases with ⟨k, rfl, hread⟩ | ⟨hword, ⟨f, hread⟩ | ⟨x, rest', hread, hother⟩⟩
      · rw [hread]
        by_cases hk : k < UInt32.size
        · simp [Numeral.natural, Numeral.word?, hk, Except.toOption]
        · simp [Numeral.natural, Numeral.word?, hk, Except.toOption]
      · rw [hread, hword]
        rfl
      · rw [hread, hword]
        cases x with
        | natural k => exact hother.elim
        | negative k => rfl
        | real x => rfl
  | text => rfl
  | null => rfl
  | isTrue => rfl
  | isFalse => rfl
  | list => rfl
  | object => rfl

/-! ## Lists -/

theorem length_skipBlanks_le (bs : Octets) : (skipBlanks bs).length ≤ bs.length :=
  (List.dropWhile_sublist isBlank).length_le

/-- A text of a document has octets. -/
theorem Begun.length_lt {rest : Octets} {d : Document} {bs : Octets} (h : Begun rest d bs) :
    rest.length < bs.length := by
  cases h with
  | number n =>
      obtain ⟨c, cs, hchars, hascii, -⟩ := n.exists_chars_eq_cons
      rw [hchars, utf8_cons_of_lt hascii, List.cons_append, List.length_cons, List.length_append]
      omega
  | null => simp only [List.length_cons]; omega
  | isTrue => simp only [List.length_cons]; omega
  | isFalse => simp only [List.length_cons]; omega
  | text => simp only [List.length_cons, List.length_append]; omega
  | list => simp only [List.length_cons, List.length_append]; omega
  | object => simp only [List.length_cons, List.length_append]; omega

/-- Behind the last element the closing bracket is found. -/
theorem nextElement_nil {isFirst : Bool} {rest bs : Octets}
    (h : ItemsBegun rest isFirst [] (skipBlanks bs)) :
    nextElement isFirst bs = .ok (.closed rest) := by
  rw [nextElement]
  generalize skipBlanks bs = text at h
  cases h
  rfl

/-- Behind a comma, or first of all, an element is found. -/
theorem nextElement_cons {isFirst : Bool} {d : Document} {ds : List Document} {rest bs : Octets}
    (h : ItemsBegun rest isFirst (d :: ds) (skipBlanks bs)) :
    ∃ item cs, nextElement isFirst bs = .ok (.entry item) ∧
      Begun (utf8 cs ++ rest) d (skipBlanks item) ∧
      Laid (itemLexemes false ds ++ [.word [']']]) cs ∧ (utf8 cs ++ rest).length < bs.length := by
  have hlength := length_skipBlanks_le bs
  rw [nextElement]
  generalize skipBlanks bs = text at h hlength
  cases h with
  | @first _ _ item cs hd hds =>
      have hlt := hd.length_lt
      have hskip := hd.skipBlanks_eq
      obtain ⟨b, item, rfl, hblank, hclosing⟩ := hd.exists_eq_cons
      refine ⟨b :: item, cs, ?_, by rwa [hskip], hds, by omega⟩
      simp only [if_neg hclosing, if_true]
  | @later _ _ later cs hd hds =>
      have hlt := hd.length_lt
      have hskip := hd.skipBlanks_eq
      have hlater := length_skipBlanks_le later
      obtain ⟨b, item, hitem, hblank, hclosing⟩ := hd.exists_eq_cons
      rw [List.length_cons] at hlength
      refine ⟨b :: item, cs, ?_, by rwa [← hitem, hskip], hds, by omega⟩
      simp only [hitem, if_neg hclosing]
      rfl

section Lists

variable {α : Type} {item : Step α} {find : Document → Option α}

/-- The elements that are found in a list. -/
def Document.items? (find : Document → Option α) : Document → Option (List α)
  | .list ds => ds.mapM find
  | _ => none

theorem readElements_of_laid (h : Finds item find) (ds : List Document) {isFirst : Bool}
    {cs : List Char} {bound rest : Octets} {done : List α}
    (hds : Laid (itemLexemes isFirst ds ++ [.word [']']]) cs)
    (hbound : (utf8 cs ++ rest).length < bound.length) :
    (readElements item bound isFirst done (utf8 cs ++ rest)).toOption =
      (ds.mapM find).map fun xs => (done.reverse ++ xs, rest) := by
  induction ds generalizing isFirst cs bound done with
  | nil =>
      cases bound with
      | nil => contradiction
      | cons b bound =>
          rw [readElements, nextElement_nil (hds.itemsBegun rest)]
          simp [Except.toOption]
  | cons d ds ih =>
      cases bound with
      | nil => contradiction
      | cons b bound =>
          obtain ⟨text, cs', hnext, hd, hds, hlt⟩ := nextElement_cons (hds.itemsBegun rest)
          rw [List.length_cons] at hbound
          rw [readElements, hnext, List.mapM_cons]
          rcases h.cases hd (startsWith_items hds rest) with ⟨hfind, f, hread⟩ | ⟨x, hfind, hread⟩
          · simp [hfind, hread, Except.toOption]
          · have hmore : (readElements item bound false (x :: done) (utf8 cs' ++ rest)).toOption = _ :=
              ih hds (by omega)
            simp only [hfind, hread, hmore]
            cases ds.mapM find <;> simp

theorem finds_readList (h : Finds item find) :
    Finds (readList (some item)) (Document.items? find) := by
  intro d rest bs hd hrest
  rw [readList]
  generalize skipBlanks bs = text at hd
  cases hd with
  | list hds =>
      exact readElements_of_laid h _ hds (by simp)
  | number n =>
      obtain ⟨b, bs, hn, hbegins⟩ := n.exists_utf8_eq_cons rest
      obtain ⟨-, -, -, -, hlist, -⟩ := ne_of_beginsNumber hbegins
      rw [hn]
      simp only [if_neg hlist]
      rfl
  | text => rfl
  | null => rfl
  | isTrue => rfl
  | isFalse => rfl
  | object => rfl

theorem finds_readList_none : Finds (readList (α := α) none) fun _ => none := by
  intro d rest bs _ _
  rw [readList]
  cases skipBlanks bs with
  | nil => rfl
  | cons b bs =>
      dsimp only
      split <;> rfl

end Lists

end VmHandler.Json
