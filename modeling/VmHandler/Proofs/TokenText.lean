import Mathlib.Algebra.Group.Nat.Defs
import VmHandler.Token

/-!
# Reading back the text of a token

The hexadecimal digits of a number, written with a fixed width, stand for the number modulo the
power of sixteen with that width. A word has eight of them, so the text of a token stands for it.
-/

set_option autoImplicit false

namespace VmHandler.Text

/-! ## Digits -/

theorem digitValue?_hexDigit : ∀ d < 16, digitValue? 16 (hexDigit d) = some d := by
  decide

theorem isBlank_hexDigit : ∀ d < 16, isBlank (hexDigit d) = false := by
  decide

theorem exists_eq_hexDigit_of_mem_fixedHex {width n : Nat} {c : Char} (h : c ∈ fixedHex width n) :
    ∃ d < 16, c = hexDigit d := by
  induction width generalizing n with
  | zero => contradiction
  | succ width ih =>
      rw [fixedHex, List.mem_append, List.mem_singleton] at h
      rcases h with h | rfl
      · exact ih h
      · exact ⟨n % 16, Nat.mod_lt n (by decide), rfl⟩

theorem appendDigits?_append (base value : Nat) (cs ds : List Char) :
    appendDigits? base value (cs ++ ds) =
      (appendDigits? base value cs).bind fun value => appendDigits? base value ds := by
  induction cs generalizing value with
  | nil => rfl
  | cons c cs ih =>
      rw [List.cons_append, appendDigits?, appendDigits?]
      cases digitValue? base c with
      | none => rfl
      | some d => exact ih (value * base + d)

theorem appendDigits?_fixedHex (value width n : Nat) :
    appendDigits? 16 value (fixedHex width n) = some (value * 16 ^ width + n % 16 ^ width) := by
  induction width generalizing n with
  | zero => rw [fixedHex, appendDigits?, Nat.pow_zero, Nat.mod_one, Nat.mul_one, Nat.add_zero]
  | succ width ih =>
      have hlast : (value * 16 ^ width + n / 16 % 16 ^ width) * 16 + n % 16 =
          value * 16 ^ (width + 1) + n % 16 ^ (width + 1) := by
        rw [Nat.pow_succ, Nat.mul_comm (16 ^ width) 16, Nat.mod_mul, Nat.add_mul, Nat.mul_assoc,
          Nat.mul_comm (16 ^ width) 16]
        omega
      rw [fixedHex, appendDigits?_append, ih, Option.bind_some, appendDigits?,
        digitValue?_hexDigit _ (Nat.mod_lt n (by decide))]
      exact congrArg some hlast

/-! ## Blanks -/

theorem dropWhile_isBlank_eq_self {cs : List Char} (h : ∀ c ∈ cs, isBlank c = false) :
    cs.dropWhile isBlank = cs := by
  cases cs with
  | nil => rfl
  | cons c cs =>
      rw [List.dropWhile_cons, h c List.mem_cons_self]
      rfl

/-- A text without blanks is left as it is. -/
theorem strip_eq_self {cs : List Char} (h : ∀ c ∈ cs, isBlank c = false) : strip cs = cs := by
  have hreverse : ∀ c ∈ cs.reverse, isBlank c = false := fun c hc => h c (List.mem_reverse.mp hc)
  rw [strip, dropWhile_isBlank_eq_self h, dropTrailingBlanks, dropWhile_isBlank_eq_self hreverse,
    List.reverse_reverse]

end VmHandler.Text

namespace VmHandler.Token

open VmHandler.Text

theorem isBlank_of_mem_chars {t : Token} {c : Char} (h : c ∈ t.chars) : isBlank c = false := by
  rw [chars, List.mem_cons, List.mem_cons] at h
  rcases h with rfl | rfl | h
  · decide
  · decide
  · obtain ⟨d, hd, rfl⟩ := exists_eq_hexDigit_of_mem_fixedHex h
    exact isBlank_hexDigit d hd

theorem number?_chars (t : Token) : number? t.chars = some t.value.toNat := by
  have hlt : t.value.toNat < 16 ^ 8 := t.value.toNat_lt
  have hdigits : appendDigits? 16 0 (fixedHex 8 t.value.toNat) = some t.value.toNat := by
    rw [appendDigits?_fixedHex, Nat.zero_mul, Nat.zero_add, Nat.mod_eq_of_lt hlt]
  obtain ⟨d, ds, hd, hcons⟩ : ∃ d ds, d < 16 ∧ fixedHex 8 t.value.toNat = hexDigit d :: ds := by
    obtain ⟨c, cs, hcons⟩ := List.exists_cons_of_length_eq_add_one (length_fixedHex 8 t.value.toNat)
    have hmem : c ∈ fixedHex 8 t.value.toNat := hcons ▸ List.mem_cons_self
    obtain ⟨d, hd, rfl⟩ := exists_eq_hexDigit_of_mem_fixedHex hmem
    exact ⟨d, cs, hd, hcons⟩
  have hsign : ∀ d < 16, hexDigit d ≠ '+' := by decide
  rw [hcons] at hdigits
  rw [chars, hcons, number?, signed?]
  · rwa [natural?, List.isEmpty_cons]
  · intro cs heq
    exact hsign d hd (List.cons.inj heq).1

/-- The text of a token stands for it. -/
theorem parse?_text (t : Token) : parse? t.text = some t := by
  have hlt : t.value.toNat < UInt32.size := t.value.toNat_lt
  rw [parse?, text, String.toList_ofList, strip_eq_self fun c => isBlank_of_mem_chars,
    number?_chars]
  simp only [ofNat?, hlt, if_true, UInt32.ofNat_toNat]

theorem text_injective : Function.Injective text := by
  intro t u h
  have hparse : parse? t.text = parse? u.text := congrArg parse? h
  simpa [parse?_text] using hparse

end VmHandler.Token
