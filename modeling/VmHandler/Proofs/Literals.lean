import VmHandler.Proofs.Document
import VmHandler.Proofs.QuotedText

/-!
# Reading the quoted texts of documents

A quoted text is read as the characters that its pieces stand for, and refused exactly if half of a
character stands alone. The reader goes in rounds, one for each octet that stands for itself and one
for each escape, so every fact about a round is stated with whatever has been read before it.
-/

set_option autoImplicit false

namespace VmHandler.Json

/-! ## Pieces of a quoted text -/

theorem HexDigit.toNat_char_lt (h : HexDigit) : h.char.toNat < 0x80 := by
  have hall : ∀ v : Fin 16, ∀ u : Bool, (HexDigit.mk v u).char.toNat < 0x80 := by decide
  exact hall h.value h.isUpper

theorem HexDigit.hexDigit?_octet_char (h : HexDigit) :
    hexDigit? (octet h.char) = some h.value.val := by
  have hall : ∀ v : Fin 16, ∀ u : Bool,
      hexDigit? (octet (HexDigit.mk v u).char) = some v.val := by decide
  exact hall h.value h.isUpper

/-- The octets of the four digits of a code. -/
def Code.octets (c : Code) : Octets :=
  [octet c.first.char, octet c.second.char, octet c.third.char, octet c.fourth.char]

theorem utf8_code (c : Code) : utf8 (Piece.code c).chars = octet '\\' :: octet 'u' :: c.octets := by
  rw [Piece.chars, utf8_cons_of_lt (by decide), utf8_cons_of_lt (by decide),
    utf8_cons_of_lt c.first.toNat_char_lt, utf8_cons_of_lt c.second.toNat_char_lt,
    utf8_cons_of_lt c.third.toNat_char_lt, utf8_cons_of_lt c.fourth.toNat_char_lt, utf8_nil,
    Code.octets]

theorem letters_forall : ∀ e ∈ letters, e.1.toNat < 0x80 ∧ e.2.toNat < 0x80 ∧ e.1 ≠ 'u' ∧
    octet e.1 ≠ octet 'u' ∧ escaped? (octet e.1) = some (octet e.2) := by
  decide

theorem utf8_letter {e : Char × Char} (he : e ∈ letters) :
    utf8 (Piece.letter e he).chars = [octet '\\', octet e.1] := by
  obtain ⟨hascii, -⟩ := letters_forall e he
  rw [Piece.chars, utf8_cons_of_lt (by decide), utf8_cons_of_lt hascii, utf8_nil]

theorem readHexFour_octets (c : Code) (rest : Octets) :
    readHexFour (c.octets ++ rest) = .ok (c.number, rest) := by
  simp [Code.octets, readHexFour, hexFour?, HexDigit.hexDigit?_octet_char, Code.number]

/-- What a code is read as: a character, or together with what follows it. -/
theorem readCodePoint_octets (c : Code) (bs : Octets) :
    readCodePoint (c.octets ++ bs) =
      if isLowHalf c.number then .error .loneSurrogate
      else if isHighHalf c.number then readSecondHalf c.number bs
      else .ok (c.number, bs) := by
  simp only [readCodePoint, readHexFour_octets]

theorem readEscape_eq_ok {bs rest : Octets} {n : Nat} (h : readCodePoint bs = .ok (n, rest)) :
    readEscape (octet 'u' :: bs) = .ok (String.utf8EncodeChar (Char.ofNat n), rest) := by
  have hletter : escaped? (octet 'u') = none := by decide
  simp only [readEscape, hletter, if_true, h]

theorem readEscape_eq_error {bs : Octets} {f : Fault} (h : readCodePoint bs = .error f) :
    readEscape (octet 'u' :: bs) = .error f := by
  have hletter : escaped? (octet 'u') = none := by decide
  simp only [readEscape, hletter, if_true, h]

/-- Only the code of a second half may follow the code of a first one. -/
theorem readSecondHalf_eq_error {ps : List Piece} (high : Nat) (rest : Octets)
    (h : ∀ c ps', ps = .code c :: ps' → isLowHalf c.number = false) :
    ∃ f, readSecondHalf high (utf8 (ps.flatMap Piece.chars) ++ octet '"' :: rest) = .error f := by
  cases ps with
  | nil => exact ⟨.halfSurrogate, rfl⟩
  | cons p ps =>
      rw [List.flatMap_cons, utf8_append, List.append_assoc]
      cases p with
      | plain c hc =>
          obtain ⟨hcontrol, hquote, hslash⟩ := hc
          have hplain := isPlain_of_mem_utf8EncodeChar hquote hslash hcontrol
          rw [Piece.chars, utf8_cons, utf8_nil, List.append_nil]
          cases hoctets : String.utf8EncodeChar c with
          | nil => exact absurd hoctets (String.utf8EncodeChar_ne_nil)
          | cons b bs =>
              have hne : b ≠ octet '\\' := by
                have hb := hplain b (hoctets ▸ List.mem_cons_self)
                simp only [isPlain, Bool.and_eq_true, decide_eq_true_eq] at hb
                exact hb.1.2
              refine ⟨.halfSurrogate, ?_⟩
              simp only [List.cons_append, readSecondHalf, if_neg hne]
      | letter e he =>
          obtain ⟨-, -, -, hne, -⟩ := letters_forall e he
          refine ⟨.halfSurrogate, ?_⟩
          simp only [utf8_letter, List.cons_append, readSecondHalf, if_true, if_neg hne]
      | code c =>
          have hlow := h c ps rfl
          refine ⟨.loneSurrogate, ?_⟩
          rw [utf8_code]
          simp [readSecondHalf, readHexFour_octets, hlow]

theorem readSecondHalf_code {c : Code} (hlow : isLowHalf c.number = true) (high : Nat)
    (bs : Octets) :
    readSecondHalf high (utf8 (Piece.code c).chars ++ bs) =
      .ok ((high - 0xD800) * 0x400 + (c.number - 0xDC00) + 0x10000, bs) := by
  rw [utf8_code]
  simp [readSecondHalf, readHexFour_octets, hlow]

theorem readTextFrom_escape_error {x : UInt8} {bound done bs : Octets} {f : Fault}
    (h : readEscape bs = .error f) :
    readTextFrom (x :: bound) done (octet '\\' :: bs) = .error f := by
  rw [readTextFrom, if_neg (by decide), if_pos rfl, h]

/-! ## Quoted texts -/

/-- Pieces are read in rounds, so a character in front of them comes first in what they stand for. -/
theorem readTextFrom_cons {c : Char} {cs : List Char} {ps : List Piece}
    {bound bound' bs rest : Octets}
    (hround : readTextFrom bound (utf8 cs).reverse bs =
      readTextFrom bound' ((String.utf8EncodeChar c).reverse ++ (utf8 cs).reverse)
        (utf8 (ps.flatMap Piece.chars) ++ octet '"' :: rest))
    (hmore : (readTextFrom bound' (utf8 (cs ++ [c])).reverse
        (utf8 (ps.flatMap Piece.chars) ++ octet '"' :: rest)).toOption =
      (characters? ps).map fun ds => (String.ofList (cs ++ [c] ++ ds), rest)) :
    (readTextFrom bound (utf8 cs).reverse bs).toOption =
      ((characters? ps).map (c :: ·)).map fun ds => (String.ofList (cs ++ ds), rest) := by
  have hdone : (utf8 (cs ++ [c])).reverse =
      (String.utf8EncodeChar c).reverse ++ (utf8 cs).reverse := by
    rw [utf8_append, utf8_cons, utf8_nil, List.append_nil, List.reverse_append]
  rw [hround, ← hdone, hmore, Option.map_map]
  simp [Function.comp_def]

/-- One round reads an escape, and the bound still suffices for what follows. -/
theorem exists_readTextFrom_escape {bound bs cs rest : Octets} (h : readEscape bs = .ok (cs, rest))
    (hbound : bs.length < bound.length) (hless : rest.length ≤ bs.length) :
    ∃ bound' : Octets, rest.length ≤ bound'.length ∧ ∀ done,
      readTextFrom bound done (octet '\\' :: bs) = readTextFrom bound' (cs.reverse ++ done) rest := by
  cases bound with
  | nil => contradiction
  | cons x bound =>
      have hbound : bs.length ≤ bound.length := Nat.le_of_lt_succ hbound
      exact ⟨bound, Nat.le_trans hless hbound, fun done => readTextFrom_escape h⟩

theorem readTextFrom_eq_none {bound done bs : Octets} {f : Fault} (h : readEscape bs = .error f)
    (hbound : bs.length < bound.length) :
    (readTextFrom bound done (octet '\\' :: bs)).toOption = none := by
  cases bound with
  | nil => contradiction
  | cons x bound =>
      rw [readTextFrom_escape_error h]
      rfl

/-- A first half is refused unless the code of a second one follows. -/
theorem readTextFrom_highHalf_alone {c : Code} {ps : List Piece} {bound done rest : Octets}
    (hlow : ¬isLowHalf c.number = true) (hhigh : isHighHalf c.number = true)
    (halone : ∀ c' ps', ps = .code c' :: ps' → isLowHalf c'.number = false)
    (hbound : (utf8 ((Piece.code c :: ps).flatMap Piece.chars) ++ octet '"' :: rest).length ≤
      bound.length) :
    (readTextFrom bound done
      (utf8 ((Piece.code c :: ps).flatMap Piece.chars) ++ octet '"' :: rest)).toOption = none := by
  obtain ⟨f, hf⟩ := readSecondHalf_eq_error c.number rest halone
  rw [List.flatMap_cons, utf8_append, List.append_assoc, utf8_code, List.cons_append,
    List.cons_append] at hbound ⊢
  refine readTextFrom_eq_none (f := f) ?_ hbound
  rw [readEscape_eq_error]
  rw [readCodePoint_octets, if_neg hlow, if_pos hhigh, hf]

/-- Pieces are read up to the closing quote, behind the characters `cs` read before. -/
theorem readTextFrom_pieces (ps : List Piece) (cs : List Char) {bound rest : Octets}
    (hbound : (utf8 (ps.flatMap Piece.chars) ++ octet '"' :: rest).length ≤ bound.length) :
    (readTextFrom bound (utf8 cs).reverse
        (utf8 (ps.flatMap Piece.chars) ++ octet '"' :: rest)).toOption =
      (characters? ps).map fun ds => (String.ofList (cs ++ ds), rest) := by
  fun_induction characters? ps generalizing cs bound with
  | case1 =>
    cases bound with
    | nil => contradiction
    | cons x bound =>
        rw [List.flatMap_nil, utf8_nil, List.nil_append, readTextFrom, if_pos rfl,
          List.reverse_reverse, decode?_utf8]
        simp [Except.toOption]
  | case2 c hc ps ih =>
    obtain ⟨hcontrol, hquote, hslash⟩ := hc
    rw [List.flatMap_cons, utf8_append, List.append_assoc, Piece.chars, utf8_cons, utf8_nil,
      List.append_nil] at hbound ⊢
    rw [List.length_append] at hbound
    have hplain := isPlain_of_mem_utf8EncodeChar hquote hslash hcontrol
    refine readTextFrom_cons
      (readTextFrom_append_of_isPlain hplain (Nat.le_of_add_right_le hbound))
      (ih (cs ++ [c]) ?_)
    rw [List.length_drop]
    omega
  | case3 e he ps ih =>
    obtain ⟨-, hascii, -, -, hescaped⟩ := letters_forall e he
    rw [List.flatMap_cons, utf8_append, List.append_assoc, utf8_letter] at hbound ⊢
    have hread (bs : Octets) :
        readEscape (octet e.1 :: bs) = .ok (String.utf8EncodeChar e.2, bs) := by
      rw [readEscape, hescaped, utf8EncodeChar_of_lt hascii]
    obtain ⟨bound', hbound', hround⟩ := exists_readTextFrom_escape (hread _) hbound
      (Nat.le_succ _)
    exact readTextFrom_cons (hround _) (ih (cs ++ [e.2]) hbound')
  | case4 c ps hlow =>
    -- A second half stands first.
    rw [List.flatMap_cons, utf8_append, List.append_assoc, utf8_code, List.cons_append,
      List.cons_append] at hbound ⊢
    exact readTextFrom_eq_none (readEscape_eq_error (by rw [readCodePoint_octets, if_pos hlow])) hbound
  | case5 c hlow hhigh c' ps hlow' ih =>
    -- Both halves of a pair are read in one round.
    rw [List.flatMap_cons, utf8_append, List.append_assoc, utf8_code, List.cons_append,
      List.cons_append, List.flatMap_cons, utf8_append, List.append_assoc] at hbound ⊢
    have hread (bs : Octets) :
        readEscape (octet 'u' :: (c.octets ++ (utf8 (Piece.code c').chars ++ bs))) =
          .ok (String.utf8EncodeChar (pairChar c.number c'.number), bs) := by
      refine readEscape_eq_ok ?_
      rw [readCodePoint_octets, if_neg hlow, if_pos hhigh, readSecondHalf_code hlow']
    obtain ⟨bound', hbound', hround⟩ := exists_readTextFrom_escape (hread _) hbound
      (by simp only [List.length_cons, List.length_append]; omega)
    exact readTextFrom_cons (hround _) (ih (cs ++ [_]) hbound')
  | case6 c hlow hhigh c' ps hlow' =>
    -- The code behind a first half is not that of a second one.
    have halone (c'' : Code) (ps' : List Piece) (heq : Piece.code c' :: ps = .code c'' :: ps') :
        isLowHalf c''.number = false := by
      cases heq
      exact Bool.eq_false_iff.mpr hlow'
    exact readTextFrom_highHalf_alone hlow hhigh halone hbound
  | case7 c ps hlow hhigh hcode =>
    exact readTextFrom_highHalf_alone hlow hhigh (fun c' ps' heq => (hcode c' ps' heq).elim) hbound
  | case8 c ps hlow hhigh ih =>
    -- The code of a character of the first plane.
    rw [List.flatMap_cons, utf8_append, List.append_assoc, utf8_code, List.cons_append,
      List.cons_append] at hbound ⊢
    have hread (bs : Octets) : readEscape (octet 'u' :: (c.octets ++ bs)) =
        .ok (String.utf8EncodeChar (Char.ofNat c.number), bs) := by
      refine readEscape_eq_ok ?_
      rw [readCodePoint_octets, if_neg hlow, if_neg hhigh]
    obtain ⟨bound', hbound', hround⟩ := exists_readTextFrom_escape (hread _) hbound
      (by simp only [List.length_cons, List.length_append]; omega)
    exact readTextFrom_cons (hround _) (ih (cs ++ [_]) hbound')

theorem readQuoted_pieces (ps : List Piece) (rest : Octets) :
    (readQuoted (utf8 (ps.flatMap Piece.chars) ++ octet '"' :: rest)).toOption =
      ((characters? ps).map String.ofList).map fun s => (s, rest) := by
  rw [readQuoted, Option.map_map]
  exact readTextFrom_pieces ps [] (Nat.le_refl _)

end VmHandler.Json
