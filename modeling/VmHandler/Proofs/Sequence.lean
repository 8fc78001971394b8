import Mathlib.Data.List.Forall2
import VmHandler.Dump.Reader
import VmHandler.Proofs.Nesting
import VmHandler.Proofs.Scalar

/-!
# Reading back lists and records

A reader that may open some more brackets reads a written value exactly if the value is not deeper
than that, and otherwise finds too many of them. If this holds of the elements of a list it holds of
the list, and if it holds of the values of the fields of a record it holds of the record, however
often lists and records stand inside each other.
-/

set_option autoImplicit false

namespace VmHandler.Dump

open VmHandler.Json

/-- Where `v` is written, the reader reads `x` if it may open as many brackets as `v` is deep, and
refuses one of them otherwise. What follows must not make a number go on. -/
def Reads {α : Type} (read : Nat → Step α) (v : Value) (x : α) : Prop :=
  ∀ brackets rest, startsWith continuesNumber rest = false →
    read brackets (utf8 v.compactChars ++ rest) =
      if v.depth ≤ brackets then .ok (x, rest) else .error .tooDeep

/-! ## What a written value begins with -/

theorem exists_utf8_compactChars_eq_cons (v : Value) :
    ∃ b bs, utf8 v.compactChars = b :: bs ∧ isBlank b = false ∧ b ≠ octet ']' := by
  have hascii (c : Char) (cs : List Char) (h : c.toNat < 0x80) (hblank : isBlank (octet c) = false)
      (hne : octet c ≠ octet ']') (hv : v.compactChars = c :: cs) :
      ∃ b bs, utf8 v.compactChars = b :: bs ∧ isBlank b = false ∧ b ≠ octet ']' :=
    ⟨octet c, utf8 cs, by rw [hv, utf8_cons_of_lt h], hblank, hne⟩
  cases v with
  | null => exact hascii 'n' _ (by decide) (by decide) (by decide) rfl
  | natural n =>
      obtain ⟨d, ds, hd, hdigits, _⟩ := toDigits_eq_cons n
      have hne : ∀ d < 10, octet d.digitChar ≠ octet ']' := by decide
      exact hascii _ ds (toNat_digitChar_lt d hd) (isBlank_digitChar d hd) (hne d hd)
        (by rw [Value.compactChars, hdigits])
  | text s => exact hascii '"' _ (by decide) (by decide) (by decide) rfl
  | list vs =>
      exact hascii '[' (compactItems vs ++ [']']) (by decide) (by decide) (by decide)
        (by rw [Value.compactChars, List.cons_append])
  | object es =>
      exact hascii '\x7b' (compactEntries es ++ ['\x7d']) (by decide) (by decide) (by decide)
        (by rw [Value.compactChars, List.cons_append])

/-! ## Separators -/

section Separators

variable {γ : Type} {written : γ → List Char}

/-- What stands before an element or an entry. -/
def separator (isFirst : Bool) : List Char := if isFirst then [] else [',']

/-- Elements or entries, each behind its separator. -/
def separated (written : γ → List Char) : Bool → List γ → List Char
  | _, [] => []
  | isFirst, x :: xs => separator isFirst ++ (written x ++ separated written false xs)

/-- Behind an element or an entry a comma or the closing bracket follows. -/
theorem startsWith_separated {closing : UInt8} (h : continuesNumber closing = false) (xs : List γ)
    (rest : Octets) :
    startsWith continuesNumber (utf8 (separated written false xs) ++ closing :: rest) = false := by
  cases xs with
  | nil => exact h
  | cons x xs =>
      rw [separated, utf8_append]
      rfl

theorem length_le_length_separated (xs : List γ) :
    xs.length ≤ (utf8 (separated written false xs)).length := by
  induction xs with
  | nil => exact Nat.le_refl 0
  | cons x xs ih =>
      have hcomma : (utf8 (separator false)).length = 1 := rfl
      rw [separated, utf8_append, utf8_append, List.length_append, List.length_append,
        List.length_cons]
      omega

/-- Between brackets there are more octets than elements or entries, so there are rounds enough. -/
theorem length_lt_length_enclosed (opening closing : UInt8) (isFirst : Bool) (xs : List γ)
    (rest : Octets) :
    xs.length < (opening :: (utf8 (separated written isFirst xs) ++ closing :: rest)).length := by
  cases xs with
  | nil => exact Nat.zero_lt_succ _
  | cons x xs =>
      have hlater : xs.length ≤ (utf8 (separated written false xs)).length :=
        length_le_length_separated xs
      simp only [separated, utf8_append, List.length_cons, List.length_append]
      omega

end Separators

/-! ## Lists -/

section Lists

variable {α : Type} {item : Nat → Step α} {vs : List Value} {xs : List α}

theorem compactItems_eq_separated (vs : List Value) :
    compactItems vs = separated Value.compactChars true vs := by
  have hcons (v : Value) (vs : List Value) :
      compactItems (v :: vs) = v.compactChars ++ separated Value.compactChars false vs := by
    induction vs generalizing v with
    | nil => rw [compactItems, separated, List.append_nil]
    | cons w vs ih => rw [compactItems, ih, separated]; rfl
  cases vs with
  | nil => rw [compactItems, separated]
  | cons v vs => rw [hcons, separated]; rfl

theorem nextElement_closing (isFirst : Bool) (rest : Octets) :
    nextElement isFirst (octet ']' :: rest) = .ok (.closed rest) := by
  rw [nextElement, skipBlanks_cons (by decide)]
  exact if_pos rfl

theorem nextElement_written (isFirst : Bool) (v : Value) (rest : Octets) :
    nextElement isFirst (utf8 (separator isFirst) ++ (utf8 v.compactChars ++ rest)) =
      .ok (.entry (utf8 v.compactChars ++ rest)) := by
  obtain ⟨b, bs, hv, hblank, hne⟩ := exists_utf8_compactChars_eq_cons v
  rw [hv, List.cons_append, nextElement]
  cases isFirst with
  | true =>
      have hskip : skipBlanks (utf8 (separator true) ++ b :: (bs ++ rest)) = b :: (bs ++ rest) :=
        skipBlanks_cons hblank _
      rw [hskip]
      exact (if_neg hne).trans (if_pos rfl)
  | false =>
      have hskip : skipBlanks (utf8 (separator false) ++ b :: (bs ++ rest)) =
          octet ',' :: b :: (bs ++ rest) := skipBlanks_cons (by decide) _
      rw [hskip]
      simp only [skipBlanks_cons hblank, if_neg hne]
      rfl

/-- The elements of a list are read up to its end. -/
theorem readElements_separated (h : List.Forall₂ (Reads item) vs xs) (brackets : Nat)
    (isFirst : Bool) {bound rest : Octets} {done : List α} (hbound : vs.length < bound.length) :
    readElements (item brackets) bound isFirst done
        (utf8 (separated Value.compactChars isFirst vs) ++ octet ']' :: rest) =
      if depthOfItems vs ≤ brackets then .ok (done.reverse ++ xs, rest) else .error .tooDeep := by
  -- One round for each element and one for the closing bracket; the first element that is too deep
  -- ends them all.
  induction h generalizing bound done isFirst with
  | nil =>
      cases bound with
      | nil => contradiction
      | cons b bound =>
          rw [separated, utf8_nil, List.nil_append, readElements, nextElement_closing,
            List.append_nil]
          rfl
  | @cons v x vs xs hv hvs ih =>
      cases bound with
      | nil => contradiction
      | cons b bound =>
          have hclosing : continuesNumber (octet ']') = false := by decide
          rw [separated, utf8_append, utf8_append, List.append_assoc, List.append_assoc,
            readElements, nextElement_written]
          simp only [hv brackets _ (startsWith_separated hclosing vs rest), depthOfItems,
            Nat.max_le]
          by_cases hdepth : v.depth ≤ brackets
          · simp only [hdepth, if_true, true_and, ih false (Nat.lt_of_succ_lt_succ hbound),
              List.reverse_cons, List.append_assoc, List.singleton_append]
          · simp only [hdepth, if_false, false_and]

/-- A list is read back if its elements are. -/
theorem reads_list (h : List.Forall₂ (Reads item) vs xs) :
    Reads (fun brackets => readList (inside item brackets)) (.list vs) xs := by
  intro brackets rest _
  show readList (inside item brackets) _ = _
  rw [Value.compactChars, utf8_enclosed (by decide) (by decide), compactItems_eq_separated, readList,
    skipBlanks_cons (by decide), Value.depth]
  simp only [if_true]
  cases brackets with
  -- A list is deeper than nothing, and its bracket is refused before anything inside is read.
  | zero => rfl
  | succ brackets =>
      simp only [inside, Nat.add_le_add_iff_right,
        readElements_separated h brackets true (length_lt_length_enclosed _ _ true vs rest)]
      rfl

end Lists

/-! ## Records -/

section Records

variable {δ α : Type} {fields : Nat → List (FieldReader δ)}

theorem nextKey_closing (isFirst : Bool) (rest : Octets) :
    nextKey isFirst (octet '\x7d' :: rest) = .ok (.closed rest) := by
  rw [nextKey, skipBlanks_cons (by decide)]
  exact if_pos rfl

theorem nextKey_written (isFirst : Bool) (rest : Octets) :
    nextKey isFirst (utf8 (separator isFirst) ++ octet '"' :: rest) = .ok (.entry rest) := by
  have hquote : skipBlanks (octet '"' :: rest) = octet '"' :: rest :=
    skipBlanks_cons (by decide) rest
  rw [nextKey]
  cases isFirst with
  | true =>
      have hskip : skipBlanks (utf8 (separator true) ++ octet '"' :: rest) = octet '"' :: rest :=
        hquote
      rw [hskip]
      rfl
  | false =>
      have hskip : skipBlanks (utf8 (separator false) ++ octet '"' :: rest) =
          octet ',' :: octet '"' :: rest := skipBlanks_cons (by decide) _
      rw [hskip]
      simp only [hquote]
      rfl

theorem afterColon_colon (rest : Octets) : afterColon (octet ':' :: rest) = .ok rest := by
  rw [afterColon, skipBlanks_cons (by decide)]
  rfl

/-- Where an entry is written, its value is read into the parts of a record. -/
def ReadsEntry (fields : Nat → List (FieldReader δ)) (parts : δ) (e : String × Value)
    (parts' : δ) : Prop :=
  ∀ brackets rest, startsWith continuesNumber rest = false →
    readEntry (fields brackets) e.1 parts (octet ':' :: (utf8 e.2.compactChars ++ rest)) =
      if e.2.depth ≤ brackets then .ok (parts', rest) else .error .tooDeep

/-- Where entries are written, their values are read into the parts of a record, one by one. -/
inductive ReadsEntries (fields : Nat → List (FieldReader δ)) :
    δ → List (String × Value) → δ → Prop where
  /-- no entry leaves the parts as they are -/
  | nil (parts : δ) : ReadsEntries fields parts [] parts
  /-- each entry goes on with the parts after the one before -/
  | cons {parts parts' parts'' : δ} {e : String × Value} {es : List (String × Value)}
      (head : ReadsEntry fields parts e parts') (tail : ReadsEntries fields parts' es parts'') :
      ReadsEntries fields parts (e :: es) parts''

/-- A field that has not been read is read from its entry if its value is. -/
theorem readsEntry_field {key : String} {get : δ → Option α} {set : δ → α → δ}
    {read : Nat → Step α} {parts : δ} {v : Value} {x : α}
    (hfield : ∀ brackets,
      (fields brackets).find? (·.key = key) = some (field key get set (read brackets)))
    (habsent : (get parts).isSome = false) (hread : Reads read v x) :
    ReadsEntry fields parts (key, v) (set parts x) := by
  intro brackets rest hrest
  rw [readEntry, hfield]
  simp only [field, habsent, Bool.false_eq_true, if_false, afterColon_colon,
    hread brackets rest hrest]
  by_cases hdepth : v.depth ≤ brackets
  · simp only [hdepth, if_true]
  · simp only [hdepth, if_false]

/-- An entry in one line. -/
def compactEntry (e : String × Value) : List Char := writtenText e.1 ++ ':' :: e.2.compactChars

theorem compactEntries_eq_separated (es : List (String × Value)) :
    compactEntries es = separated compactEntry true es := by
  have hcons (e : String × Value) (es : List (String × Value)) :
      compactEntries (e :: es) = compactEntry e ++ separated compactEntry false es := by
    induction es generalizing e with
    | nil => rw [compactEntries, separated, List.append_nil, compactEntry]
    | cons e' es ih => rw [compactEntries, ih, separated]; rfl
  cases es with
  | nil => rw [compactEntries, separated]
  | cons e es => rw [hcons, separated]; rfl

/-- The octets of an entry: a key between quotes, a colon and the value. -/
theorem utf8_compactEntry (e : String × Value) (rest : Octets) :
    utf8 (compactEntry e) ++ rest = octet '"' :: (utf8 (e.1.toList.flatMap writtenChar) ++
      octet '"' :: octet ':' :: (utf8 e.2.compactChars ++ rest)) := by
  rw [compactEntry, utf8_append, utf8_cons_of_lt (by decide), List.append_assoc, List.cons_append,
    utf8_writtenText]

/-- The entries of an object are read up to its end. -/
theorem readEntries_separated {parts parts' : δ} {es : List (String × Value)}
    (h : ReadsEntries fields parts es parts') (brackets : Nat) (isFirst : Bool)
    {bound rest : Octets} (hbound : es.length < bound.length) :
    readEntries (fields brackets) bound isFirst parts
        (utf8 (separated compactEntry isFirst es) ++ octet '\x7d' :: rest) =
      if depthOfEntries es ≤ brackets then .ok (parts', rest) else .error .tooDeep := by
  induction h generalizing bound isFirst with
  | nil parts =>
      cases bound with
      | nil => contradiction
      | cons b bound =>
          rw [separated, utf8_nil, List.nil_append, readEntries, nextKey_closing]
          rfl
  | @cons parts parts' parts'' e es head tail ih =>
      cases bound with
      | nil => contradiction
      | cons b bound =>
          have hclosing : continuesNumber (octet '\x7d') = false := by decide
          rw [separated, utf8_append, utf8_append, List.append_assoc, List.append_assoc,
            utf8_compactEntry, readEntries, nextKey_written]
          simp only [readQuoted_written, head brackets _ (startsWith_separated hclosing es rest),
            depthOfEntries, Nat.max_le]
          by_cases hdepth : e.2.depth ≤ brackets
          · simp only [hdepth, if_true, true_and, ih false (Nat.lt_of_succ_lt_succ hbound)]
          · simp only [hdepth, if_false, false_and]

/-- A record is read back if its entries are. -/
theorem reads_record {schema : Schema δ α} {parts : δ} {es : List (String × Value)} {x : α}
    (h : ReadsEntries fields schema.blank es parts) (hfinish : schema.finish parts = .ok x) :
    Reads (fun brackets => readRecord schema (inside fields brackets)) (.object es) x := by
  intro brackets rest _
  show readRecord schema (inside fields brackets) _ = _
  rw [Value.compactChars, utf8_enclosed (by decide) (by decide), compactEntries_eq_separated,
    readRecord, skipBlanks_cons (by decide), Value.depth]
  simp only [if_true]
  cases brackets with
  | zero => rfl
  | succ brackets =>
      simp only [inside, Nat.add_le_add_iff_right,
        readEntries_separated h brackets true (length_lt_length_enclosed _ _ true es rest)]
      by_cases hdepth : depthOfEntries es ≤ brackets
      · simp only [hdepth, if_true, hfinish]
      · simp only [hdepth, if_false]

end Records

end VmHandler.Dump
