import VmHandler.Proofs.Document
import VmHandler.Proofs.Reading

/-!
# Reading the numbers of documents

A number without sign, fraction and exponent that fits into a word is read as what it is. Every
other number that is read at all is a double or an integer below zero, so it is never taken for a
word: not minus zero, not an integer with a fraction of zeros, and not one that is too large.
-/

set_option autoImplicit false

namespace VmHandler.Json

/-! ## Doubles -/

/-- Whether a number is a double. -/
def Number.IsReal (n : Number) : Prop := ∃ x, n = .real x

theorem isReal_of_scaled {positive : Bool} {word : Nat} {exponent : Int} {n : Number}
    (h : scaled positive word exponent = .ok n) : n.IsReal := by
  unfold scaled at h
  dsimp only at h
  split at h
  · exact ⟨_, (Except.ok.inj h).symm⟩
  · split at h
    · split at h
      · exact ⟨_, (Except.ok.inj h).symm⟩
      · contradiction
    · split at h
      · contradiction
      · exact ⟨_, (Except.ok.inj h).symm⟩

theorem ensures_readExponent (positive : Bool) (word : Nat) (scale : Int) :
    Ensures (readExponent positive word scale) Number.IsReal := by
  intro bs n rest h
  unfold readExponent at h
  -- Which sign the exponent has and which digits follow it does not matter.
  split at h
  split at h
  · split at h
    · dsimp only at h
      split at h
      · contradiction
      · rename_i hscaled
        rw [← (Prod.mk.inj (Except.ok.inj h)).1]
        exact isReal_of_scaled hscaled
    · split at h
      · contradiction
      · exact ⟨_, (Prod.mk.inj (Except.ok.inj h)).1.symm⟩
  · contradiction

theorem ensures_afterFraction (positive : Bool) (word : Nat) (scale : Int) :
    Ensures (afterFraction positive word scale) Number.IsReal := by
  intro bs n rest h
  unfold afterFraction at h
  split at h
  · exact ensures_readExponent positive word scale _ n rest h
  · split at h
    · contradiction
    · rename_i hscaled
      rw [← (Prod.mk.inj (Except.ok.inj h)).1]
      exact isReal_of_scaled hscaled

theorem ensures_readFraction (positive : Bool) (word : Nat) (scale : Int) :
    Ensures (readFraction positive word scale) Number.IsReal := by
  intro bs n rest h
  unfold readFraction at h
  dsimp only at h
  split at h
  · exact ensures_afterFraction _ _ _ _ n rest h
  · split at h
    · contradiction
    · exact ensures_afterFraction _ _ _ _ n rest h

/-- Digits that do not fit into a word make a double of an integer. -/
theorem ensures_afterInteger (positive : Bool) (word : Nat) {dropped : Nat} (h : dropped ≠ 0) :
    Ensures (afterInteger positive word dropped) Number.IsReal := by
  intro bs n rest hread
  unfold afterInteger at hread
  simp only [if_neg h] at hread
  split at hread
  · exact ensures_afterFraction _ _ _ _ n rest hread
  · split at hread
    · exact ensures_readFraction _ _ _ _ n rest hread
    · split at hread
      · exact ensures_readExponent _ _ _ _ n rest hread
      · exact ensures_afterFraction _ _ _ _ n rest hread

/-! ## Numbers that are no words -/

/-- Whether a number is a double or below zero. -/
def Number.IsOther : Number → Prop
  | .natural _ => False
  | .negative n => n ≠ 0
  | .real _ => True

theorem Number.IsReal.isOther {n : Number} (h : n.IsReal) : n.IsOther := by
  obtain ⟨x, rfl⟩ := h
  trivial

theorem isOther_integer_false (word : Nat) : (integer false word).IsOther := by
  unfold integer
  rw [if_neg Bool.false_ne_true]
  split
  · trivial
  · rename_i h
    exact fun hzero => h (Or.inl hzero)

theorem ensures_afterInteger_false (word dropped : Nat) :
    Ensures (afterInteger false word dropped) Number.IsOther := by
  by_cases hdropped : dropped = 0
  · intro bs n rest h
    unfold afterInteger at h
    simp only [if_pos hdropped] at h
    split at h
    · rw [← (Prod.mk.inj (Except.ok.inj h)).1]
      exact isOther_integer_false word
    · split at h
      · exact (ensures_readFraction _ _ _ _ n rest h).isOther
      · split at h
        · exact (ensures_readExponent _ _ _ _ n rest h).isOther
        · rw [← (Prod.mk.inj (Except.ok.inj h)).1]
          exact isOther_integer_false word
  · intro bs n rest h
    exact (ensures_afterInteger false word hdropped bs n rest h).isOther

/-- Behind a minus sign no word is read, whatever follows. -/
theorem ensures_readMagnitude_false : Ensures (readMagnitude false) Number.IsOther := by
  intro bs n rest h
  unfold readMagnitude at h
  split at h
  · contradiction
  · split at h
    · split at h
      · contradiction
      · exact ensures_afterInteger_false 0 0 _ n rest h
    · split at h
      · exact ensures_afterInteger_false _ _ _ n rest h
      · contradiction

/-! ## Digits -/

theorem octet_of_isDigit {c : Char} (h : c.isDigit = true) :
    c.toNat < 0x80 ∧ isDigit (octet c) = true ∧ digit (octet c) = c.toNat - '0'.toNat := by
  have hrange : 48 ≤ c.toNat ∧ c.toNat ≤ 57 := by
    simp only [Char.isDigit, Bool.and_eq_true, decide_eq_true_eq] at h
    exact ⟨UInt32.le_iff_toNat_le.mp h.1, UInt32.le_iff_toNat_le.mp h.2⟩
  have hcode : (octet c).toNat = c.toNat := by
    rw [UInt8.toNat_ofNat', Nat.mod_eq_of_lt (by omega)]
  refine ⟨by omega, ?_, ?_⟩
  · simp only [isDigit, Bool.and_eq_true, decide_eq_true_eq, UInt8.le_iff_toNat_le, hcode]
    exact hrange
  · rw [digit, hcode]
    rfl

theorem le_countDigits (count : Nat) (bs : Octets) : count ≤ (countDigits count bs).1 := by
  induction bs generalizing count with
  | nil => exact Nat.le_refl count
  | cons b bs ih =>
      rw [countDigits]
      split
      · exact Nat.le_trans (Nat.le_succ count) (ih (count + 1))
      · exact Nat.le_refl count

theorem countDigits_ne_zero {bs : Octets} (h : startsWith isDigit bs = true) :
    (countDigits 0 bs).1 ≠ 0 := by
  cases bs with
  | nil => contradiction
  | cons b bs =>
      have hb : isDigit b = true := h
      rw [countDigits, if_pos hb]
      exact Nat.ne_of_gt (le_countDigits 1 bs)

theorem countDigits_eq_self {bs : Octets} (h : startsWith isDigit bs = false) :
    countDigits 0 bs = (0, bs) := by
  cases bs with
  | nil => rfl
  | cons b bs =>
      have hb : isDigit b = false := h
      rw [countDigits, hb]
      rfl

/-- Digits are gathered to the number they stand for as long as it fits into a word; otherwise some
of them are left. -/
theorem gather_digits {cs : List Char} (hcs : ∀ c ∈ cs, c.isDigit = true) {word : Nat}
    (hword : word < UInt64.size) (count : Nat) {rest : Octets}
    (hrest : startsWith isDigit rest = false) :
    (∃ count', gather word count (utf8 cs ++ rest) = (Nat.ofDigitChars 10 cs word, count', rest) ∧
        Nat.ofDigitChars 10 cs word < UInt64.size) ∨
      startsWith isDigit (gather word count (utf8 cs ++ rest)).2.2 = true := by
  induction cs generalizing word count with
  | nil =>
      left
      refine ⟨count, ?_, hword⟩
      cases rest with
      | nil => rfl
      | cons b bs =>
          simp only [startsWith] at hrest
          simp [gather, hrest, Nat.ofDigitChars]
  | cons c cs ih =>
      obtain ⟨hc, hcs⟩ := List.forall_mem_cons.mp hcs
      obtain ⟨hascii, hdigit, hvalue⟩ := octet_of_isDigit hc
      rw [utf8_cons_of_lt hascii, List.cons_append, gather, hdigit, hvalue, Nat.ofDigitChars_cons,
        Nat.mul_comm word 10, Bool.true_and]
      by_cases hfits : 10 * word + (c.toNat - '0'.toNat) < UInt64.size
      · rw [if_pos (decide_eq_true hfits)]
        exact ih hcs hfits (count + 1)
      · right
        rw [if_neg (by simpa using hfits)]
        exact hdigit

/-- An integer either fits into a word or leaves digits for the power of ten. -/
theorem readMagnitude_toDigits (n : Nat) {tail : Octets} (htail : startsWith isDigit tail = false) :
    (n < UInt64.size ∧
      readMagnitude true (utf8 (Nat.toDigits 10 n) ++ tail) = afterInteger true n 0 tail) ∨
    ∃ word dropped rest, dropped ≠ 0 ∧
      readMagnitude true (utf8 (Nat.toDigits 10 n) ++ tail) =
        afterInteger true word dropped rest := by
  have hdigits : ∀ c ∈ Nat.toDigits 10 n, c.isDigit = true := fun c hc =>
    Nat.isDigit_of_mem_toDigits (by decide) (by decide) hc
  have hstart : 0 < UInt64.size := by decide
  have hgather := gather_digits hdigits hstart 0 htail
  rw [Nat.ofDigitChars_toDigits (by decide) (by decide)] at hgather
  obtain ⟨d, ds, hd, hcons, hzero⟩ := toDigits_eq_cons n
  by_cases hn : n = 0
  · left
    subst hn
    refine ⟨hstart, ?_⟩
    rw [Nat.toDigits_zero, utf8_cons_of_lt (by decide), utf8_nil, List.cons_append,
      List.nil_append, readMagnitude, if_pos rfl, htail]
    rfl
  · have hfirst : octet d.digitChar ≠ octet '0' :=
      fun heq => hn (hzero (digitChar_eq_zero_iff d hd heq))
    rw [hcons, utf8_cons_of_lt (toNat_digitChar_lt d hd), List.cons_append] at hgather ⊢
    rw [readMagnitude, if_neg hfirst, if_pos (isDigit_digitChar d hd)]
    rcases hgather with ⟨count, hgather, hfits⟩ | hleft
    · left
      refine ⟨hfits, ?_⟩
      simp only [hgather, countDigits_eq_self htail]
    · right
      exact ⟨_, _, _, countDigits_ne_zero hleft, rfl⟩

/-! ## Numbers of documents -/

/-- A fraction or an exponent makes a double of an integer. -/
theorem isReal_of_afterInteger {fraction : List (Fin 10)} {exponent : Option Exponent}
    (hreal : fraction ≠ [] ∨ exponent ≠ none) {positive : Bool} {word dropped : Nat}
    {rest rest' : Octets} {x : Number}
    (h : afterInteger positive word dropped
      (utf8 (fractionChars fraction ++ (exponent.map Exponent.chars).getD []) ++ rest) =
        .ok (x, rest')) : x.IsReal := by
  cases fraction with
  | cons d ds =>
      rw [fractionChars, List.cons_append, utf8_cons_of_lt (by decide), List.cons_append,
        afterInteger, if_pos rfl] at h
      exact ensures_readFraction _ _ _ _ x rest' h
  | nil =>
      cases exponent with
      | none => simp at hreal
      | some e =>
          have hmark : (if e.isUpper then 'E' else 'e').toNat < 0x80 ∧
              octet (if e.isUpper then 'E' else 'e') ≠ octet '.' ∧
              isExponentMark (octet (if e.isUpper then 'E' else 'e')) = true := by
            cases e.isUpper <;> decide
          obtain ⟨hascii, hpoint, hmark⟩ := hmark
          rw [fractionChars, List.nil_append, Option.map_some, Option.getD_some, Exponent.chars,
            utf8_cons_of_lt hascii, List.cons_append, afterInteger, if_neg hpoint,
            if_pos hmark] at h
          exact ensures_readExponent _ _ _ _ x rest' h

theorem startsWith_isDigit_fraction (fraction : List (Fin 10)) (exponent : Option Exponent)
    {rest : Octets} (hrest : startsWith continuesNumber rest = false) :
    startsWith isDigit
      (utf8 (fractionChars fraction ++ (exponent.map Exponent.chars).getD []) ++ rest) = false := by
  cases fraction with
  | cons d ds => rfl
  | nil =>
      cases exponent with
      | none => exact startsWith_isDigit_eq_false hrest
      | some e =>
          obtain ⟨isUpper, sign, first, more⟩ := e
          cases isUpper <;> rfl

theorem readNumber_natural {n : Nat} (h : n < UInt64.size) {rest : Octets}
    (hrest : startsWith continuesNumber rest = false) :
    readNumber (utf8 (Numeral.natural n).chars ++ rest) = .ok (.natural n, rest) := by
  rw [Numeral.chars_natural, readNumber_written h hrest]

/-- No other number is read as an integer without a sign. -/
theorem isOther_of_readNumber {n : Numeral} (h : ∀ k < UInt64.size, n ≠ .natural k)
    {rest rest' : Octets} (hrest : startsWith continuesNumber rest = false) {x : Number}
    (hread : readNumber (utf8 n.chars ++ rest) = .ok (x, rest')) : x.IsOther := by
  obtain ⟨isNegative, whole, fraction, exponent⟩ := n
  cases isNegative with
  | true =>
      rw [Numeral.chars, if_pos rfl, List.singleton_append, utf8_cons_of_lt (by decide),
        List.cons_append, readNumber, if_pos rfl] at hread
      exact ensures_readMagnitude_false _ x rest' hread
  | false =>
      have htail := startsWith_isDigit_fraction fraction exponent hrest
      have hmagnitude : readNumber (utf8 (Numeral.chars ⟨false, whole, fraction, exponent⟩) ++ rest) =
          readMagnitude true (utf8 (Nat.toDigits 10 whole) ++
            (utf8 (fractionChars fraction ++ (exponent.map Exponent.chars).getD []) ++ rest)) := by
        obtain ⟨d, ds, hd, hcons, -⟩ := toDigits_eq_cons whole
        rw [Numeral.chars, if_neg Bool.false_ne_true, List.nil_append, utf8_append,
          List.append_assoc, hcons, utf8_cons_of_lt (toNat_digitChar_lt d hd), List.cons_append,
          readNumber, if_neg (digitChar_ne_minus d hd)]
      rw [hmagnitude] at hread
      rcases readMagnitude_toDigits whole htail with ⟨hfits, heq⟩ | ⟨word, dropped, more, hdropped, heq⟩
      · rw [heq] at hread
        by_cases hplain : fraction = [] ∧ exponent = none
        · obtain ⟨rfl, rfl⟩ := hplain
          exact absurd rfl (h whole hfits)
        · exact (isReal_of_afterInteger (Decidable.not_and_iff_not_or_not.mp hplain) hread).isOther
      · rw [heq] at hread
        exact (ensures_afterInteger true word hdropped _ x rest' hread).isOther

end VmHandler.Json
