import VmHandler.Json.Value
import VmHandler.Proofs.Encoding

/-!
# Reading back a quoted text

What is written inside quotes is read back, whatever characters the text has. One character is
written as an escape letter, as the four digits of its code or as itself; each of the three is read
by one round or by one round for each octet, and leaves the octets of the character.
-/

set_option autoImplicit false

namespace VmHandler.Json

/-! ## Rounds of the reader -/

section Rounds

variable {bound done rest : Octets} {x : UInt8}

/-- Whether an octet inside quotes stands for itself. -/
def isPlain (b : UInt8) : Bool := b ≠ octet '"' && b ≠ octet '\\' && !(b < 0x20)

theorem isPlain_iff {b : UInt8} :
    isPlain b = true ↔ b.toNat ≠ 34 ∧ b.toNat ≠ 92 ∧ 32 ≤ b.toNat := by
  simp only [isPlain, ne_eq, Bool.and_eq_true, decide_eq_true_eq, Bool.not_eq_true',
    decide_eq_false_iff_not, ← UInt8.toNat_inj, UInt8.lt_iff_toNat_lt, Nat.not_lt, and_assoc]
  rfl

theorem readTextFrom_cons_of_isPlain {b : UInt8} (h : isPlain b = true) :
    readTextFrom (x :: bound) done (b :: rest) = readTextFrom bound (b :: done) rest := by
  simp only [isPlain, ne_eq, Bool.and_eq_true, decide_eq_true_eq, Bool.not_eq_true',
    decide_eq_false_iff_not] at h
  obtain ⟨⟨hquote, hslash⟩, hcontrol⟩ := h
  rw [readTextFrom, if_neg hquote, if_neg hslash, if_neg hcontrol]

theorem readTextFrom_escape {bs : Octets} {cs : Octets} (h : readEscape bs = .ok (cs, rest)) :
    readTextFrom (x :: bound) done (octet '\\' :: bs) =
      readTextFrom bound (cs.reverse ++ done) rest := by
  rw [readTextFrom, if_neg (by decide), if_pos rfl, h]

/-- Octets that stand for themselves take one round each. -/
theorem readTextFrom_append_of_isPlain {bs : Octets} (h : ∀ b ∈ bs, isPlain b = true)
    (hbound : bs.length ≤ bound.length) :
    readTextFrom bound done (bs ++ rest) =
      readTextFrom (bound.drop bs.length) (bs.reverse ++ done) rest := by
  induction bs generalizing bound done with
  | nil => rfl
  | cons b bs ih =>
      obtain ⟨hb, hbs⟩ := List.forall_mem_cons.mp h
      cases bound with
      | nil => contradiction
      | cons x bound =>
          rw [List.cons_append, readTextFrom_cons_of_isPlain hb,
            ih hbs (Nat.le_of_succ_le_succ hbound), List.length_cons, List.drop_succ_cons,
            List.reverse_cons, List.append_assoc, List.singleton_append]

end Rounds

/-! ## Written characters -/

/-- The three ways in which a character is written inside quotes. -/
theorem writtenChar_cases (c : Char) :
    (∃ letter, writtenChar c = ['\\', letter] ∧ letter.toNat < 0x80 ∧ c.toNat < 0x80 ∧
      escaped? (octet letter) = some (octet c)) ∨
    (writtenChar c = '\\' :: 'u' :: Text.fixedHex 4 c.toNat ∧ c.toNat < 0x20) ∨
    (writtenChar c = [c] ∧ c ≠ '"' ∧ c ≠ '\\' ∧ 0x20 ≤ c.toNat) := by
  by_cases hletter : c ∈ ['"', '\\', '\x08', '\t', '\n', '\x0c', '\r']
  · left
    simp only [List.mem_cons, List.not_mem_nil, or_false] at hletter
    rcases hletter with rfl | rfl | rfl | rfl | rfl | rfl | rfl <;> exact ⟨_, rfl, by decide⟩
  · right
    simp only [List.mem_cons, List.not_mem_nil, or_false, not_or] at hletter
    obtain ⟨hquote, hslash, hbackspace, htab, hline, hfeed, hreturn⟩ := hletter
    simp only [writtenChar, if_neg hquote, if_neg hslash, if_neg hbackspace, if_neg htab,
      if_neg hline, if_neg hfeed, if_neg hreturn]
    by_cases hcontrol : c.toNat < 0x20
    · rw [if_pos hcontrol]
      exact Or.inl ⟨rfl, hcontrol⟩
    · rw [if_neg hcontrol]
      exact Or.inr ⟨rfl, hquote, hslash, Nat.le_of_not_lt hcontrol⟩

theorem hexDigit?_hexDigit : ∀ d < 16, hexDigit? (octet (Text.hexDigit d)) = some d := by
  decide

theorem toNat_hexDigit_lt : ∀ d < 16, (Text.hexDigit d).toNat < 0x80 := by
  decide

theorem utf8_fixedHex_four (n : Nat) :
    utf8 (Text.fixedHex 4 n) =
      [octet (Text.hexDigit (n / 16 / 16 / 16 % 16)), octet (Text.hexDigit (n / 16 / 16 % 16)),
        octet (Text.hexDigit (n / 16 % 16)), octet (Text.hexDigit (n % 16))] := by
  have hascii (m : Nat) : (Text.hexDigit (m % 16)).toNat < 0x80 :=
    toNat_hexDigit_lt _ (Nat.mod_lt m (by decide))
  simp only [Text.fixedHex, List.nil_append, List.cons_append]
  rw [utf8_cons_of_lt (hascii _), utf8_cons_of_lt (hascii _), utf8_cons_of_lt (hascii _),
    utf8_cons_of_lt (hascii _), utf8_nil]

theorem readHexFour_fixedHex {n : Nat} (h : n < 0x10000) (rest : Octets) :
    readHexFour (utf8 (Text.fixedHex 4 n) ++ rest) = .ok (n, rest) := by
  have hdigit (m : Nat) : hexDigit? (octet (Text.hexDigit (m % 16))) = some (m % 16) :=
    hexDigit?_hexDigit _ (Nat.mod_lt m (by decide))
  have hvalue : ((n / 16 / 16 / 16 % 16 * 16 + n / 16 / 16 % 16) * 16 + n / 16 % 16) * 16 + n % 16
      = n := by omega
  rw [utf8_fixedHex_four]
  simp only [List.cons_append, List.nil_append, readHexFour, hexFour?, hdigit, hvalue]

/-- A control is read back from the digits of its code. -/
theorem readEscape_fixedHex {c : Char} (h : c.toNat < 0x20) (rest : Octets) :
    readEscape (octet 'u' :: (utf8 (Text.fixedHex 4 c.toNat) ++ rest)) =
      .ok (String.utf8EncodeChar c, rest) := by
  have hlow : isLowHalf c.toNat = false := by
    simp only [isLowHalf, Bool.and_eq_false_iff, decide_eq_false_iff_not]
    omega
  have hhigh : isHighHalf c.toNat = false := by
    simp only [isHighHalf, Bool.and_eq_false_iff, decide_eq_false_iff_not]
    omega
  have hletter : escaped? (octet 'u') = none := by decide
  have hdigits := readHexFour_fixedHex (n := c.toNat) (by omega) rest
  simp only [readEscape, hletter, if_pos, readCodePoint, hdigits, hlow, hhigh, Bool.false_eq_true,
    if_false, Char.ofNat_toNat]

/-- The octets of a character that is written as itself stand for themselves. -/
theorem isPlain_of_mem_utf8EncodeChar {c : Char} (hquote : c ≠ '"') (hslash : c ≠ '\\')
    (hcontrol : 0x20 ≤ c.toNat) : ∀ b ∈ String.utf8EncodeChar c, isPlain b = true := by
  intro b hb
  rw [isPlain_iff]
  by_cases hascii : c.toNat < 0x80
  · rw [utf8EncodeChar_of_lt hascii, List.mem_singleton] at hb
    have hcode : b.toNat = c.toNat := by
      rw [hb, UInt8.toNat_ofNat', Nat.mod_eq_of_lt (by omega)]
    rw [hcode]
    exact ⟨fun h => hquote (Char.toNat_inj.mp h), fun h => hslash (Char.toNat_inj.mp h), hcontrol⟩
  · have hle := UInt8.le_iff_toNat_le.mp (le_of_mem_utf8EncodeChar (Nat.le_of_not_lt hascii) b hb)
    have hbound : (0x80 : UInt8).toNat = 0x80 := rfl
    omega

/-! ## Written texts -/

/-- A written character is read back, and the bound still suffices for what follows. -/
theorem readTextFrom_writtenChar (c : Char) {bound done rest : Octets}
    (hbound : (utf8 (writtenChar c) ++ rest).length ≤ bound.length) :
    ∃ bound' : Octets, rest.length ≤ bound'.length ∧
      readTextFrom bound done (utf8 (writtenChar c) ++ rest) =
        readTextFrom bound' ((String.utf8EncodeChar c).reverse ++ done) rest := by
  rcases writtenChar_cases c with ⟨letter, hwritten, hletter, hascii, hescaped⟩ | ⟨hwritten, hcontrol⟩ |
    ⟨hwritten, hquote, hslash, hcontrol⟩
  · rw [hwritten, utf8_cons_of_lt (by decide), utf8_cons_of_lt hletter, utf8_nil] at hbound ⊢
    have hread : readEscape (octet letter :: rest) = .ok ([octet c], rest) := by
      rw [readEscape, hescaped]
    cases bound with
    | nil => contradiction
    | cons x bound =>
        refine ⟨bound, ?_, ?_⟩
        · simp only [List.cons_append, List.nil_append, List.length_cons] at hbound
          omega
        · rw [List.cons_append, List.cons_append, List.nil_append, readTextFrom_escape hread,
            utf8EncodeChar_of_lt hascii]
  · rw [hwritten, utf8_cons_of_lt (by decide), utf8_cons_of_lt (by decide)] at hbound ⊢
    cases bound with
    | nil => contradiction
    | cons x bound =>
        refine ⟨bound, ?_, ?_⟩
        · simp only [List.cons_append, List.length_cons, List.length_append] at hbound
          omega
        · rw [List.cons_append, List.cons_append,
            readTextFrom_escape (readEscape_fixedHex hcontrol rest)]
  · rw [hwritten, utf8_cons, utf8_nil, List.append_nil] at hbound ⊢
    rw [List.length_append] at hbound
    refine ⟨bound.drop (String.utf8EncodeChar c).length, ?_, ?_⟩
    · rw [List.length_drop]
      omega
    · exact readTextFrom_append_of_isPlain (isPlain_of_mem_utf8EncodeChar hquote hslash hcontrol)
        (by omega)

/-- What is written inside quotes is read up to the closing quote. -/
theorem readTextFrom_written (cs : List Char) {bound done rest : Octets}
    (hbound : (utf8 (cs.flatMap writtenChar) ++ octet '"' :: rest).length ≤ bound.length) :
    readTextFrom bound done (utf8 (cs.flatMap writtenChar) ++ octet '"' :: rest) =
      match decode? (done.reverse ++ utf8 cs) with
      | some s => .ok (s, rest)
      | none => .error .badUtf8 := by
  induction cs generalizing bound done with
  | nil =>
      cases bound with
      | nil => contradiction
      | cons x bound =>
          rw [List.flatMap_nil, utf8_nil, List.nil_append, List.append_nil, readTextFrom]
          cases decode? done.reverse <;> rfl
  | cons c cs ih =>
      rw [List.flatMap_cons, utf8_append, List.append_assoc] at hbound ⊢
      obtain ⟨bound', hbound', hread⟩ := readTextFrom_writtenChar c hbound
      rw [hread, ih hbound', List.reverse_append, List.reverse_reverse, List.append_assoc, utf8_cons]

/-- A quoted text is read back. -/
theorem readQuoted_written (s : String) (rest : Octets) :
    readQuoted (utf8 (s.toList.flatMap writtenChar) ++ octet '"' :: rest) = .ok (s, rest) := by
  rw [readQuoted, readTextFrom_written s.toList (Nat.le_refl _), List.reverse_nil, List.nil_append,
    decode?_utf8, String.ofList_toList]

end VmHandler.Json
