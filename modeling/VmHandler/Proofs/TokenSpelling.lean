import Mathlib.Data.List.Forall2
import Mathlib.Data.Nat.Digits.Defs
import Mathlib.Tactic.Ring
import VmHandler.Proofs.TokenText

/-!
# The texts of tokens

A text stands for a token exactly if it is a number between blanks: `0x` or `0X` and hexadecimal
digits, or decimal digits, with at most one plus sign in front of the digits and a value that fits
into a word. The grammar below says so without the functions that read it: a digit is the character
of its value in either case, and the value of digits is that of a numeral in their base.
-/

set_option autoImplicit false

namespace VmHandler.Text

/-! ## Blanks -/

/-- The code points with the property White_Space, one by one. -/
def whiteSpace : List Nat :=
  [0x0009, 0x000A, 0x000B, 0x000C, 0x000D, 0x0020, 0x0085, 0x00A0, 0x1680, 0x2000, 0x2001, 0x2002,
    0x2003, 0x2004, 0x2005, 0x2006, 0x2007, 0x2008, 0x2009, 0x200A, 0x2028, 0x2029, 0x202F, 0x205F,
    0x3000]

/-- Whether a text consists of white space alone. -/
def AllWhite (cs : List Char) : Prop := ∀ c ∈ cs, c.toNat ∈ whiteSpace

theorem isBlank_iff_mem_whiteSpace {c : Char} : isBlank c = true ↔ c.toNat ∈ whiteSpace := by
  simp only [isBlank, whiteSpace, Bool.or_eq_true, Bool.and_eq_true, decide_eq_true_eq,
    beq_iff_eq, List.mem_cons, List.not_mem_nil, or_false]
  omega

section Strip

variable {lead body trail : List Char}

theorem dropWhile_isBlank_append (hlead : AllWhite lead) :
    (lead ++ body).dropWhile isBlank = body.dropWhile isBlank :=
  List.dropWhile_append_of_pos fun c hc => isBlank_iff_mem_whiteSpace.mpr (hlead c hc)

/-- Blanks around a text that has none are removed, and nothing else is. -/
theorem strip_eq_of_append (hlead : AllWhite lead) (htrail : AllWhite trail)
    (hbody : ∀ c ∈ body, isBlank c = false) : strip (lead ++ body ++ trail) = body := by
  have hreverse : AllWhite trail.reverse := fun c hc => htrail c (List.mem_reverse.mp hc)
  have hbody' : ∀ c ∈ body.reverse, isBlank c = false := fun c hc =>
    hbody c (List.mem_reverse.mp hc)
  rw [strip, dropTrailingBlanks, List.append_assoc, dropWhile_isBlank_append hlead]
  cases body with
  | nil =>
      have hnone : trail.dropWhile isBlank = [] := by
        have hdrop : (trail ++ []).dropWhile isBlank = [] := dropWhile_isBlank_append htrail
        rwa [List.append_nil] at hdrop
      simp [hnone]
  | cons c cs =>
      have hfront : (c :: cs ++ trail).dropWhile isBlank = c :: cs ++ trail := by
        simp [hbody c List.mem_cons_self]
      rw [hfront, List.reverse_append, dropWhile_isBlank_append hreverse,
        dropWhile_isBlank_eq_self hbody', List.reverse_reverse]

/-- A text is what is left of it without the blanks around it. -/
theorem exists_eq_append_strip (cs : List Char) :
    ∃ lead trail, cs = lead ++ strip cs ++ trail ∧ AllWhite lead ∧ AllWhite trail := by
  have hwhite (ds : List Char) : AllWhite (ds.takeWhile isBlank) := fun c hc =>
    isBlank_iff_mem_whiteSpace.mp (List.all_eq_true.mp List.all_takeWhile c hc)
  have hback : strip cs ++ ((cs.dropWhile isBlank).reverse.takeWhile isBlank).reverse =
      cs.dropWhile isBlank := by
    rw [strip, dropTrailingBlanks, ← List.reverse_append, List.takeWhile_append_dropWhile,
      List.reverse_reverse]
  refine ⟨cs.takeWhile isBlank, ((cs.dropWhile isBlank).reverse.takeWhile isBlank).reverse, ?_,
    hwhite _, fun c hc => hwhite _ c (List.mem_reverse.mp hc)⟩
  rw [List.append_assoc, hback, List.takeWhile_append_dropWhile]

end Strip

/-! ## Digits -/

/-- A character is the digit of a value in a base, in lower or upper case. -/
def IsDigit (base : Nat) (c : Char) (d : Nat) : Prop :=
  d < base ∧ (c = d.digitChar ∨ c = d.digitChar.toUpper)

/-- Digits stand for a number in a base: one or more of them, the most significant one first. -/
def Denotes (base : Nat) (cs : List Char) (n : Nat) : Prop :=
  ∃ ds, ds ≠ [] ∧ List.Forall₂ (IsDigit base) cs ds ∧ n = Nat.ofDigits base ds.reverse

/-- A character in a run of digits is the digit of its place in the run. -/
theorem eq_digit_of_run (digit : Nat → Char) {start count value d : Nat} {c : Char}
    (hrun : ∀ k < count, Char.ofNat (start + k) = digit (value + k)) (hlow : start ≤ c.toNat)
    (hhigh : c.toNat < start + count) (hd : start + d = c.toNat + value) : c = digit d := by
  have hk := hrun (c.toNat - start) (by omega)
  have hplace : value + (c.toNat - start) = d := by omega
  rwa [Nat.add_sub_cancel' hlow, Char.ofNat_toNat, hplace] at hk

theorem hexValue?_eq_some_iff {c : Char} {d : Nat} : hexValue? c = some d ↔ IsDigit 16 c d := by
  constructor
  · intro h
    have hle {a b : Char} (hab : a ≤ b) : a.toNat ≤ b.toNat := UInt32.le_iff_toNat_le.mp hab
    -- The digits and the letters of either case are three runs of code points.
    have hdigits : ∀ k < 10, Char.ofNat (48 + k) = (0 + k).digitChar := by decide
    have hlower : ∀ k < 6, Char.ofNat (97 + k) = (10 + k).digitChar := by decide
    have hupper : ∀ k < 6, Char.ofNat (65 + k) = (10 + k).digitChar.toUpper := by decide
    simp only [hexValue?] at h
    split at h
    · rename_i hrange
      have hlow : 48 ≤ c.toNat := hle hrange.1
      have hhigh : c.toNat ≤ 57 := hle hrange.2
      have hd := Option.some.inj h
      exact ⟨by omega, .inl (eq_digit_of_run Nat.digitChar hdigits hlow (by omega) (by omega))⟩
    · split at h
      · rename_i hrange
        have hlow : 97 ≤ c.toNat := hle hrange.1
        have hhigh : c.toNat ≤ 102 := hle hrange.2
        have hd := Option.some.inj h
        exact ⟨by omega, .inl (eq_digit_of_run Nat.digitChar hlower hlow (by omega) (by omega))⟩
      · split at h
        · rename_i hrange
          have hlow : 65 ≤ c.toNat := hle hrange.1
          have hhigh : c.toNat ≤ 70 := hle hrange.2
          have hd := Option.some.inj h
          exact ⟨by omega, .inr (eq_digit_of_run (fun d => d.digitChar.toUpper) hupper
            hlow (by omega) (by omega))⟩
        · cases h
  · have hlower : ∀ d < 16, hexValue? d.digitChar = some d := by decide
    have hupper : ∀ d < 16, hexValue? d.digitChar.toUpper = some d := by decide
    rintro ⟨hd, rfl | rfl⟩
    · exact hlower d hd
    · exact hupper d hd

theorem digitValue?_eq_some_iff {base : Nat} (hbase : base ≤ 16) {c : Char} {d : Nat} :
    digitValue? base c = some d ↔ IsDigit base c d := by
  unfold digitValue?
  constructor
  · intro h
    split at h
    · rename_i v hv
      split at h
      · rename_i hlt
        cases h
        exact ⟨hlt, (hexValue?_eq_some_iff.mp hv).2⟩
      · contradiction
    · contradiction
  · rintro ⟨hlt, hchar⟩
    simp [hexValue?_eq_some_iff.mpr ⟨Nat.lt_of_lt_of_le hlt hbase, hchar⟩, hlt]

theorem appendDigits?_eq_some_iff {base : Nat} (hbase : base ≤ 16) {value n : Nat}
    {cs : List Char} :
    appendDigits? base value cs = some n ↔
      ∃ ds, List.Forall₂ (IsDigit base) cs ds ∧
        n = value * base ^ ds.length + Nat.ofDigits base ds.reverse := by
  induction cs generalizing value with
  | nil => simp [appendDigits?, eq_comm]
  | cons c cs ih =>
      have hvalue (d : Nat) (ds : List Nat) :
          (value * base + d) * base ^ ds.length + Nat.ofDigits base ds.reverse =
            value * base ^ (d :: ds).length + Nat.ofDigits base (d :: ds).reverse := by
        rw [List.reverse_cons, Nat.ofDigits_append, Nat.ofDigits_singleton, List.length_reverse,
          List.length_cons]
        ring
      rw [appendDigits?]
      constructor
      · intro h
        split at h
        · contradiction
        · rename_i d hd
          obtain ⟨ds, hds, rfl⟩ := ih.mp h
          exact ⟨d :: ds, .cons ((digitValue?_eq_some_iff hbase).mp hd) hds, hvalue d ds⟩
      · rintro ⟨_, hds, rfl⟩
        cases hds with
        | @cons _ d _ ds hd hds =>
            rw [(digitValue?_eq_some_iff hbase).mpr hd]
            exact ih.mpr ⟨ds, hds, (hvalue d ds).symm⟩

theorem natural?_eq_some_iff {base : Nat} (hbase : base ≤ 16) {cs : List Char} {n : Nat} :
    natural? base cs = some n ↔ Denotes base cs n := by
  unfold natural? Denotes
  cases cs with
  | nil => simp
  | cons c cs =>
      simp only [List.isEmpty_cons, Bool.false_eq_true, if_false, appendDigits?_eq_some_iff hbase,
        Nat.zero_mul, Nat.zero_add]
      constructor
      · rintro ⟨ds, hds, hn⟩
        have hne : ds ≠ [] := by
          rintro rfl
          cases hds
        exact ⟨ds, hne, hds, hn⟩
      · rintro ⟨ds, _, hds, hn⟩
        exact ⟨ds, hds, hn⟩

theorem Denotes.forall_mem {base : Nat} {cs : List Char} {n : Nat} (h : Denotes base cs n) :
    ∀ c ∈ cs, ∃ d, IsDigit base c d := by
  obtain ⟨ds, -, hds, -⟩ := h
  induction hds with
  | nil => simp
  | cons hd _ ih => exact List.forall_mem_cons.mpr ⟨⟨_, hd⟩, ih⟩

theorem IsDigit.isBlank_eq_false {base : Nat} (hbase : base ≤ 16) {c : Char} {d : Nat}
    (h : IsDigit base c d) : isBlank c = false := by
  have hlower : ∀ d < 16, isBlank d.digitChar = false := by decide
  have hupper : ∀ d < 16, isBlank d.digitChar.toUpper = false := by decide
  obtain ⟨hd, rfl | rfl⟩ := h
  · exact hlower d (Nat.lt_of_lt_of_le hd hbase)
  · exact hupper d (Nat.lt_of_lt_of_le hd hbase)

end VmHandler.Text

namespace VmHandler.Token

open VmHandler.Text

/-! ## Numbers -/

/-- The texts of numbers, without blanks around them. -/
inductive Spells : List Char → Nat → Prop where
  /-- the mark of a hexadecimal number, at most one plus sign, and hexadecimal digits -/
  | hexadecimal {mark : Char} {sign digits : List Char} {n : Nat} (hmark : mark = 'x' ∨ mark = 'X')
      (hsign : sign = [] ∨ sign = ['+']) (hdigits : Denotes 16 digits n) :
      Spells ('0' :: mark :: (sign ++ digits)) n
  /-- at most one plus sign and decimal digits -/
  | decimal {sign digits : List Char} {n : Nat} (hsign : sign = [] ∨ sign = ['+'])
      (hdigits : Denotes 10 digits n) : Spells (sign ++ digits) n

theorem signed?_eq_some_iff {base : Nat} (hbase : base ≤ 16) {cs : List Char} {n : Nat} :
    signed? base cs = some n ↔
      ∃ sign digits, cs = sign ++ digits ∧ (sign = [] ∨ sign = ['+']) ∧ Denotes base digits n := by
  have hplus {digits : List Char} : ¬Denotes base ('+' :: digits) n := by
    rintro ⟨_, _, hds, _⟩
    cases hds with
    | cons hd _ =>
        have := (digitValue?_eq_some_iff hbase).mpr hd
        simp [digitValue?, hexValue?] at this
  unfold signed?
  split
  · rename_i digits
    rw [natural?_eq_some_iff hbase]
    constructor
    · exact fun h => ⟨['+'], digits, rfl, Or.inr rfl, h⟩
    · rintro ⟨sign, digits', heq, rfl | rfl, h⟩
      · subst heq
        exact absurd h hplus
      · cases heq
        exact h
  · rename_i hne
    rw [natural?_eq_some_iff hbase]
    constructor
    · exact fun h => ⟨[], cs, rfl, Or.inl rfl, h⟩
    · rintro ⟨sign, digits, rfl, rfl | rfl, h⟩
      · exact h
      · exact absurd rfl (hne digits)

/-- Nothing that begins like a hexadecimal number is a decimal one. -/
theorem not_denotes_ten {mark : Char} (hmark : mark = 'x' ∨ mark = 'X') {cs : List Char} {n : Nat} :
    ¬Denotes 10 ('0' :: mark :: cs) n := by
  intro h
  obtain ⟨d, hd⟩ := h.forall_mem mark (by simp)
  have hvalue := (digitValue?_eq_some_iff (by decide)).mpr hd
  rcases hmark with rfl | rfl <;> simp [digitValue?, hexValue?] at hvalue

/-- Behind the mark of a hexadecimal number its sign and its digits follow. -/
theorem spells_hexadecimal_iff {mark : Char} (hmark : mark = 'x' ∨ mark = 'X') {cs : List Char}
    {n : Nat} : Spells ('0' :: mark :: cs) n ↔ signed? 16 cs = some n := by
  rw [signed?_eq_some_iff (by decide)]
  constructor
  · intro h
    generalize htext : '0' :: mark :: cs = text at h
    cases h with
    | hexadecimal _ hsign hdigits =>
        cases htext
        exact ⟨_, _, rfl, hsign, hdigits⟩
    | decimal hsign hdigits =>
        rcases hsign with rfl | rfl
        · cases htext
          exact absurd hdigits (not_denotes_ten hmark)
        · simp at htext
  · rintro ⟨sign, digits, rfl, hsign, hdigits⟩
    exact .hexadecimal hmark hsign hdigits

theorem number?_eq_some_iff {cs : List Char} {n : Nat} : number? cs = some n ↔ Spells cs n := by
  unfold number?
  split
  · exact (spells_hexadecimal_iff (Or.inl rfl)).symm
  · exact (spells_hexadecimal_iff (Or.inr rfl)).symm
  · rename_i hlower hupper
    rw [signed?_eq_some_iff (by decide)]
    constructor
    · rintro ⟨sign, digits, rfl, hsign, hdigits⟩
      exact .decimal hsign hdigits
    · intro h
      cases h with
      | @hexadecimal mark sign digits _ hmark =>
          rcases hmark with rfl | rfl
          · exact absurd rfl (hlower _)
          · exact absurd rfl (hupper _)
      | decimal hsign hdigits => exact ⟨_, _, rfl, hsign, hdigits⟩

theorem Spells.isBlank_eq_false {cs : List Char} {n : Nat} (h : Spells cs n) :
    ∀ c ∈ cs, isBlank c = false := by
  have hdigit {base : Nat} (hbase : base ≤ 16) {digits : List Char} (hd : Denotes base digits n) :
      ∀ c ∈ digits, isBlank c = false := fun c hc =>
    let ⟨_, hc⟩ := hd.forall_mem c hc
    hc.isBlank_eq_false hbase
  have hplus {sign : List Char} (hsign : sign = [] ∨ sign = ['+']) :
      ∀ c ∈ sign, isBlank c = false := by
    rcases hsign with rfl | rfl <;> simp [isBlank]
  cases h with
  | @hexadecimal mark _ _ _ hmark hsign hdigits =>
      have hmark : isBlank mark = false := by rcases hmark with rfl | rfl <;> decide
      simpa using ⟨rfl, hmark, fun c hc => hc.elim (hplus hsign c) (hdigit (by decide) hdigits c)⟩
  | decimal hsign hdigits =>
      exact fun c hc => (List.mem_append.mp hc).elim (hplus hsign c)
        (hdigit (by decide) hdigits c)

/-! ## Tokens -/

theorem ofNat?_eq_some_iff {n : Nat} {t : Token} :
    ofNat? n = some t ↔ n < 2 ^ 32 ∧ t.value.toNat = n := by
  unfold ofNat?
  constructor
  · intro h
    split at h
    · rename_i hlt
      rw [← Option.some.inj h]
      exact ⟨hlt, UInt32.toNat_ofNat_of_lt' hlt⟩
    · contradiction
  · rintro ⟨hlt, rfl⟩
    have hlt : t.value.toNat < UInt32.size := hlt
    rw [if_pos hlt, UInt32.ofNat_toNat]

/-- A number between blanks is read as the token of the number. -/
theorem parse?_of_spells {s : String} {lead body trail : List Char} {n : Nat}
    (htext : s.toList = lead ++ body ++ trail) (hlead : AllWhite lead) (htrail : AllWhite trail)
    (hbody : Spells body n) : parse? s = ofNat? n := by
  rw [parse?, htext, strip_eq_of_append hlead htrail hbody.isBlank_eq_false,
    number?_eq_some_iff.mpr hbody]

/-- A text stands for a token exactly if it is a number between blanks that is below `2 ^ 32`, and
then the number is the word of the token: hexadecimal behind `0x` or `0X`, else decimal, with at
most one plus sign directly in front of one or more digits, of which any number may be leading
zeros. It stands for no token exactly if it is no such number or only one that is too large. -/
theorem text_of_token_iff (s : String) :
    (∀ t, parse? s = some t ↔
      ∃ lead body trail n, s.toList = lead ++ body ++ trail ∧ AllWhite lead ∧ AllWhite trail ∧
        Spells body n ∧ n < 2 ^ 32 ∧ t.value.toNat = n) ∧
    (parse? s = none ↔
      ∀ lead body trail n, s.toList = lead ++ body ++ trail → AllWhite lead → AllWhite trail →
        Spells body n → 2 ^ 32 ≤ n) := by
  have hsome (t : Token) : parse? s = some t ↔
      ∃ lead body trail n, s.toList = lead ++ body ++ trail ∧ AllWhite lead ∧ AllWhite trail ∧
        Spells body n ∧ n < 2 ^ 32 ∧ t.value.toNat = n := by
    constructor
    · intro h
      obtain ⟨lead, trail, htext, hlead, htrail⟩ := exists_eq_append_strip s.toList
      rw [parse?] at h
      split at h
      · rename_i n hn
        exact ⟨lead, _, trail, n, htext, hlead, htrail, number?_eq_some_iff.mp hn,
          ofNat?_eq_some_iff.mp h⟩
      · contradiction
    · rintro ⟨lead, body, trail, n, htext, hlead, htrail, hbody, hn⟩
      rw [parse?_of_spells htext hlead htrail hbody]
      exact ofNat?_eq_some_iff.mpr hn
  refine ⟨hsome, ?_⟩
  constructor
  · intro h lead body trail n htext hlead htrail hbody
    by_contra hlt
    have hfits : ofNat? n = some ⟨UInt32.ofNat n⟩ := if_pos (Nat.lt_of_not_le hlt)
    rw [parse?_of_spells htext hlead htrail hbody, hfits] at h
    contradiction
  · intro h
    cases hparse : parse? s with
    | none => rfl
    | some t =>
        obtain ⟨lead, body, trail, n, htext, hlead, htrail, hbody, hn, _⟩ := (hsome t).mp hparse
        exact absurd hn (Nat.not_lt_of_le (h lead body trail n htext hlead htrail hbody))

end VmHandler.Token
