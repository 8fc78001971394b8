import VmHandler.Json.Scalar
import VmHandler.Proofs.QuotedText

/-!
# Reading back texts and numbers

A written text is read back whatever follows it. A written number is read back where nothing follows
that would make it go on: no digit, no point and no exponent.
-/

set_option autoImplicit false

namespace VmHandler.Json

theorem skipBlanks_cons {b : UInt8} (h : isBlank b = false) (bs : Octets) :
    skipBlanks (b :: bs) = b :: bs := by
  rw [skipBlanks, List.dropWhile_cons, h]
  rfl

/-! ## Texts -/

theorem utf8_writtenText (s : String) (rest : Octets) :
    utf8 (writtenText s) ++ rest =
      octet '"' :: (utf8 (s.toList.flatMap writtenChar) ++ octet '"' :: rest) :=
  utf8_enclosed (by decide) (by decide) _ rest

theorem readText_written (s : String) (rest : Octets) :
    readText (utf8 (writtenText s) ++ rest) = .ok (s, rest) := by
  rw [utf8_writtenText, readText, skipBlanks_cons (by decide)]
  exact (if_pos rfl).trans (readQuoted_written s rest)

theorem readAny_writtenText (s : String) (rest : Octets) :
    readAny (utf8 (writtenText s) ++ rest) = .ok (.text s, rest) := by
  rw [utf8_writtenText, readAny, if_neg (by decide), if_neg (by decide), if_neg (by decide),
    if_pos rfl, readQuoted_written]

/-! ## Numbers -/

/-- Whether a number goes on with an octet. -/
def continuesNumber (b : UInt8) : Bool := isDigit b || b = octet '.' || isExponentMark b

theorem isDigit_digitChar : ∀ d < 10, isDigit (octet d.digitChar) = true := by
  decide

theorem digit_digitChar : ∀ d < 10, digit (octet d.digitChar) = d := by
  decide

theorem toNat_digitChar_lt : ∀ d < 10, d.digitChar.toNat < 0x80 := by
  decide

/-- The digits of a number that fits into a word are gathered to that number. -/
theorem gather_toDigits {n : Nat} (h : n < UInt64.size) (rest : Octets) :
    ∃ count, gather 0 0 (utf8 (Nat.toDigits 10 n) ++ rest) = gather n count rest := by
  induction n using Nat.strongRecOn generalizing rest with
  | ind n ih =>
      have hdigit : n % 10 < 10 := Nat.mod_lt n (by decide)
      have hlast (word count : Nat) (hword : word * 10 + n % 10 = n) :
          gather word count (octet (n % 10).digitChar :: rest) = gather n (count + 1) rest := by
        rw [gather, digit_digitChar _ hdigit, isDigit_digitChar _ hdigit, hword,
          decide_eq_true h]
        rfl
      by_cases hsmall : n < 10
      · have hmod : n % 10 = n := Nat.mod_eq_of_lt hsmall
        refine ⟨1, ?_⟩
        rw [Nat.toDigits_of_lt_base hsmall, utf8_cons_of_lt (toNat_digitChar_lt n hsmall), utf8_nil,
          List.cons_append, List.nil_append]
        rw [hmod] at hlast
        exact hlast 0 0 (Nat.zero_add n)
      · obtain ⟨count, hcount⟩ :=
          ih (n / 10) (by omega) (by omega) (octet (n % 10).digitChar :: rest)
        refine ⟨count + 1, ?_⟩
        rw [Nat.toDigits_of_base_le (by decide) (Nat.le_of_not_lt hsmall), utf8_append,
          utf8_cons_of_lt (toNat_digitChar_lt _ hdigit), utf8_nil, List.append_assoc,
          List.cons_append, List.nil_append, hcount]
        exact hlast (n / 10) count (Nat.div_add_mod' n 10)

/-- The digits of a number begin with a zero only if it is zero. -/
theorem toDigits_eq_cons (n : Nat) :
    ∃ d ds, d < 10 ∧ Nat.toDigits 10 n = d.digitChar :: ds ∧ (d = 0 → n = 0) := by
  induction n using Nat.strongRecOn with
  | ind n ih =>
      by_cases hsmall : n < 10
      · exact ⟨n, [], hsmall, Nat.toDigits_of_lt_base hsmall, id⟩
      · obtain ⟨d, ds, hd, hdigits, hzero⟩ := ih (n / 10) (by omega)
        refine ⟨d, ds ++ [(n % 10).digitChar], hd, ?_, fun h => ?_⟩
        · rw [Nat.toDigits_of_base_le (by decide) (Nat.le_of_not_lt hsmall), hdigits,
            List.cons_append]
        · have := hzero h
          omega

/-- Nothing is gathered where no number goes on. -/
theorem gather_of_startsWith_eq_false (word count : Nat) {rest : Octets}
    (h : startsWith continuesNumber rest = false) :
    gather word count rest = (word, count, rest) ∧ countDigits 0 rest = (0, rest) ∧
      afterInteger true word 0 rest = .ok (.natural word, rest) := by
  cases rest with
  | nil => exact ⟨rfl, rfl, rfl⟩
  | cons b bs =>
      simp only [startsWith, continuesNumber, Bool.or_eq_false_iff, decide_eq_false_iff_not] at h
      obtain ⟨⟨hdigit, hpoint⟩, hmark⟩ := h
      refine ⟨?_, ?_, ?_⟩
      · rw [gather, hdigit]
        rfl
      · rw [countDigits, hdigit]
        rfl
      · rw [afterInteger, if_neg hpoint, hmark]
        rfl

theorem startsWith_isDigit_eq_false {rest : Octets}
    (h : startsWith continuesNumber rest = false) : startsWith isDigit rest = false := by
  cases rest with
  | nil => rfl
  | cons b bs =>
      simp only [startsWith, continuesNumber, Bool.or_eq_false_iff] at h
      exact h.1.1

theorem readMagnitude_zero {rest : Octets} (h : startsWith continuesNumber rest = false) :
    readMagnitude true (octet '0' :: rest) = .ok (.natural 0, rest) := by
  obtain ⟨_, _, hinteger⟩ := gather_of_startsWith_eq_false 0 0 h
  rw [readMagnitude, if_pos rfl, startsWith_isDigit_eq_false h]
  exact hinteger

theorem beginsNumber_digitChar : ∀ d < 10, beginsNumber (octet d.digitChar) = true := by
  decide

theorem isBlank_digitChar : ∀ d < 10, isBlank (octet d.digitChar) = false := by
  decide

theorem digitChar_ne_minus : ∀ d < 10, octet d.digitChar ≠ octet '-' := by
  decide

theorem digitChar_eq_zero_iff : ∀ d < 10, octet d.digitChar = octet '0' → d = 0 := by
  decide

/-- A written number is read back. -/
theorem readNumber_written {n : Nat} (h : n < UInt64.size) {rest : Octets}
    (hrest : startsWith continuesNumber rest = false) :
    readNumber (utf8 (Nat.toDigits 10 n) ++ rest) = .ok (.natural n, rest) := by
  by_cases hn : n = 0
  · subst hn
    rw [Nat.toDigits_zero, utf8_cons_of_lt (by decide), utf8_nil, List.cons_append,
      List.nil_append, readNumber, if_neg (by decide)]
    exact readMagnitude_zero hrest
  · obtain ⟨d, ds, hd, hdigits, hzero⟩ := toDigits_eq_cons n
    obtain ⟨count, hgather⟩ := gather_toDigits h rest
    obtain ⟨hstop, hcount, hinteger⟩ := gather_of_startsWith_eq_false n count hrest
    have hfirst : octet d.digitChar ≠ octet '0' :=
      fun heq => hn (hzero (digitChar_eq_zero_iff d hd heq))
    rw [hstop, hdigits, utf8_cons_of_lt (toNat_digitChar_lt d hd), List.cons_append] at hgather
    rw [hdigits, utf8_cons_of_lt (toNat_digitChar_lt d hd), List.cons_append, readNumber,
      if_neg (digitChar_ne_minus d hd), readMagnitude, if_neg hfirst, isDigit_digitChar d hd,
      if_pos rfl]
    simp only [hgather, hcount, hinteger]

/-- A written number that fits into a word of thirty-two bits is read back as that word. -/
theorem readWord_written (w : UInt32) {rest : Octets}
    (hrest : startsWith continuesNumber rest = false) :
    readWord (utf8 (Nat.toDigits 10 w.toNat) ++ rest) = .ok (w, rest) := by
  have hlt : w.toNat < UInt32.size := w.toNat_lt
  have hnumber := readNumber_written (Nat.lt_trans hlt (by decide)) hrest
  obtain ⟨d, ds, hd, hdigits, _⟩ := toDigits_eq_cons w.toNat
  rw [hdigits, utf8_cons_of_lt (toNat_digitChar_lt d hd), List.cons_append] at hnumber ⊢
  rw [readWord, skipBlanks_cons (isBlank_digitChar d hd)]
  simp only [beginsNumber_digitChar d hd, if_pos, hnumber, hlt, UInt32.ofNat_toNat]

end VmHandler.Json
