import Mathlib.Tactic.IntervalCases
import VmHandler.Json.Skip
import VmHandler.Proofs.Literals
import VmHandler.Proofs.Numerals

/-!
# Skipping documents

Whatever a document holds and however deep its brackets are, the machine that skips values stops
right behind its text. Inside open brackets it waits for a comma there; so it is enough to know what
it does with one document wherever this stands.
-/

set_option autoImplicit false

namespace VmHandler.Json.Skip

/-! ## Moves -/

/-- Where the machine goes on once a value is complete. -/
def resume (opened : List Bracket) (rest : Octets) : Except Fault Octets :=
  match opened with
  | [] => .ok rest
  | _ :: _ => run ⟨.comma, opened⟩ rest

section Moves

variable {s s' : State} {opened : List Bracket} {b : UInt8} {bs rest : Octets}

theorem run_cons_of_next (h : s.step b = .ok (.next s')) : run s (b :: bs) = run s' bs := by
  rw [run, h]

theorem run_cons_of_complete (h : s.step b = complete opened) :
    run s (b :: bs) = resume opened bs := by
  rw [run, h]
  cases opened <;> rfl

/-- Only the state behind its first octet matters to the machine. -/
theorem run_cons_eq (h : s.step b = s'.step b) : run s (b :: bs) = run s' (b :: bs) := by
  rw [run, run, h]

/-- Blanks make no difference to a machine that stays where it is on them. -/
theorem run_skipBlanks (h : ∀ b, isBlank b = true → s.step b = .ok (.next s)) (bs : Octets) :
    run s bs = run s (skipBlanks bs) := by
  induction bs with
  | nil => rfl
  | cons b bs ih =>
      by_cases hb : isBlank b = true
      · rw [run_cons_of_next (h b hb), ih, skipBlanks, skipBlanks, List.dropWhile_cons, if_pos hb]
      · rw [skipBlanks_cons (Bool.eq_false_iff.mpr hb)]

end Moves

/-! ## Quoted texts -/

section Texts

variable (isKey : Bool) (opened : List Bracket)

theorem run_plain {bs : Octets} (h : ∀ b ∈ bs, isPlain b = true) (rest : Octets) :
    run ⟨.text isKey, opened⟩ (bs ++ rest) = run ⟨.text isKey, opened⟩ rest := by
  induction bs with
  | nil => rfl
  | cons b bs ih =>
      obtain ⟨hb, hbs⟩ := List.forall_mem_cons.mp h
      simp only [isPlain, ne_eq, Bool.and_eq_true, decide_eq_true_eq, Bool.not_eq_true',
        decide_eq_false_iff_not] at hb
      have hstep : State.step b ⟨.text isKey, opened⟩ = go (.text isKey) opened := by
        simp only [State.step, if_neg hb.1.1, if_neg hb.1.2, if_neg hb.2]
      rw [List.cons_append, run_cons_of_next hstep, ih hbs]

theorem isEscapeLetter_of_mem_letters : ∀ e ∈ letters, isEscapeLetter (octet e.1) = true := by
  decide

theorem run_hexDigit (h : HexDigit) (left : Nat) (rest : Octets) :
    run ⟨.hex isKey (left + 1) true, opened⟩ (octet h.char :: rest) =
      run ⟨.hex isKey left true, opened⟩ rest := by
  refine run_cons_of_next ?_
  simp only [State.step, h.hexDigit?_octet_char]
  rfl

/-- Every piece is passed by, a half that stands alone as well. -/
theorem run_piece (p : Piece) (rest : Octets) :
    run ⟨.text isKey, opened⟩ (utf8 p.chars ++ rest) = run ⟨.text isKey, opened⟩ rest := by
  have hslash : State.step (octet '\\') ⟨.text isKey, opened⟩ = go (.escape isKey) opened := rfl
  cases p with
  | plain c hc =>
      obtain ⟨hcontrol, hquote, hslash⟩ := hc
      rw [Piece.chars, utf8_cons, utf8_nil, List.append_nil]
      exact run_plain isKey opened (isPlain_of_mem_utf8EncodeChar hquote hslash hcontrol) rest
  | letter e he =>
      have hletter : State.step (octet e.1) ⟨.escape isKey, opened⟩ = go (.text isKey) opened := by
        simp only [State.step, isEscapeLetter_of_mem_letters e he, if_true]
      rw [utf8_letter he, List.cons_append, List.cons_append, List.nil_append,
        run_cons_of_next hslash, run_cons_of_next hletter]
  | code c =>
      have hmark : State.step (octet 'u') ⟨.escape isKey, opened⟩ = go (.hex isKey 3 true) opened :=
        rfl
      have hlast : State.step (octet c.fourth.char) ⟨.hex isKey 0 true, opened⟩ =
          go (.text isKey) opened := by
        simp only [State.step, c.fourth.hexDigit?_octet_char]
        rfl
      rw [utf8_code, Code.octets, List.cons_append, List.cons_append, List.cons_append,
        List.cons_append, List.cons_append, List.cons_append, List.nil_append,
        run_cons_of_next hslash, run_cons_of_next hmark, run_hexDigit, run_hexDigit, run_hexDigit,
        run_cons_of_next hlast]

theorem run_pieces (ps : List Piece) (rest : Octets) :
    run ⟨.text isKey, opened⟩ (utf8 (ps.flatMap Piece.chars) ++ rest) =
      run ⟨.text isKey, opened⟩ rest := by
  induction ps with
  | nil => rfl
  | cons p ps ih =>
      rw [List.flatMap_cons, utf8_append, List.append_assoc, run_piece, ih]

end Texts

/-! ## Numbers -/

section Numbers

variable {opened : List Bracket} {rest : Octets}

/-- Behind a number that may end, the machine waits for what follows a value. -/
theorem run_number_end {part : Part} (hpart : part ∈ [.zero, .whole, .fraction, .exponent])
    (hrest : startsWith continuesNumber rest = false) :
    run ⟨.number part, opened⟩ rest = resume opened rest := by
  cases rest with
  | nil =>
      have hfinish : State.finish ⟨.number part, opened⟩ = endAtComma opened := by
        simp only [List.mem_cons, List.not_mem_nil, or_false] at hpart
        rcases hpart with rfl | rfl | rfl | rfl <;> rfl
      rw [run, hfinish]
      cases opened <;> rfl
  | cons b bs =>
      simp only [startsWith, continuesNumber, isExponentMark, Bool.or_eq_false_iff] at hrest
      obtain ⟨⟨hdigit, hpoint⟩, hmark, hcapital⟩ := hrest
      have hstep : State.step b ⟨.number part, opened⟩ = atComma b opened := by
        simp only [List.mem_cons, List.not_mem_nil, or_false] at hpart
        rcases hpart with rfl | rfl | rfl | rfl <;>
          simp_all [State.step, atNumber]
      rw [run, hstep]
      cases opened with
      | nil => rfl
      | cons bracket outer =>
          rw [resume, run]
          rfl

/-- A digit and a run of digits behind it. -/
theorem run_digits {part : Part} (hpart : part ∈ [.whole, .fraction, .exponent]) {cs : List Char}
    (hcs : ∀ c ∈ cs, c.isDigit = true) :
    run ⟨.number part, opened⟩ (utf8 cs ++ rest) = run ⟨.number part, opened⟩ rest := by
  induction cs with
  | nil => rfl
  | cons c cs ih =>
      obtain ⟨hc, hcs⟩ := List.forall_mem_cons.mp hcs
      obtain ⟨hascii, hdigit, -⟩ := octet_of_isDigit hc
      have hstep : State.step (octet c) ⟨.number part, opened⟩ = go (.number part) opened := by
        simp only [List.mem_cons, List.not_mem_nil, or_false] at hpart
        rcases hpart with rfl | rfl | rfl <;> exact if_pos hdigit
      rw [utf8_cons_of_lt hascii, List.cons_append, run_cons_of_next hstep, ih hcs]

theorem isDigit_of_mem_digitChars {ds : List (Fin 10)} : ∀ c ∈ digitChars ds, c.isDigit = true := by
  have hdigit : ∀ d : Fin 10, d.val.digitChar.isDigit = true := by decide
  intro c hc
  obtain ⟨d, -, rfl⟩ := List.mem_map.mp hc
  exact hdigit d

/-- A digit where a fraction or an exponent has to begin, and further digits. -/
theorem run_digitChars {before part : Part} {d : Fin 10} {ds : List (Fin 10)}
    (hpart : part ∈ [.whole, .fraction, .exponent])
    (hfirst : ∀ b, isDigit b = true →
      State.step b ⟨.number before, opened⟩ = go (.number part) opened) :
    run ⟨.number before, opened⟩ (utf8 (digitChars (d :: ds)) ++ rest) =
      run ⟨.number part, opened⟩ rest := by
  have hall : ∀ c ∈ digitChars (d :: ds), c.isDigit = true := isDigit_of_mem_digitChars
  rw [digitChars, List.map_cons] at hall ⊢
  obtain ⟨hd, hds⟩ := List.forall_mem_cons.mp hall
  obtain ⟨hascii, hdigit, -⟩ := octet_of_isDigit hd
  rw [utf8_cons_of_lt hascii, List.cons_append, run_cons_of_next (hfirst _ hdigit),
    run_digits hpart hds]

theorem run_exponent {part : Part} (hpart : part ∈ [.zero, .whole, .fraction]) (e : Exponent) :
    run ⟨.number part, opened⟩ (utf8 e.chars ++ rest) = run ⟨.number .exponent, opened⟩ rest := by
  obtain ⟨isUpper, sign, first, more⟩ := e
  have hmark : (if isUpper then 'E' else 'e').toNat < 0x80 ∧
      State.step (octet (if isUpper then 'E' else 'e')) ⟨.number part, opened⟩ =
        go (.number .mark) opened := by
    simp only [List.mem_cons, List.not_mem_nil, or_false] at hpart
    rcases hpart with rfl | rfl | rfl <;> cases isUpper <;> exact ⟨by decide, rfl⟩
  rw [Exponent.chars, utf8_cons_of_lt hmark.1, List.cons_append, run_cons_of_next hmark.2,
    utf8_append, List.append_assoc]
  have hsigned (b : UInt8) (hb : isDigit b = true) :
      State.step b ⟨.number .markSign, opened⟩ = go (.number .exponent) opened := if_pos hb
  cases sign with
  | none =>
      refine run_digitChars (by simp) fun b hb => ?_
      have hplus : (b = octet '+' || b = octet '-') = false := by
        cases hsign : (b = octet '+' || b = octet '-') with
        | false => rfl
        | true =>
            simp only [Bool.or_eq_true, decide_eq_true_eq] at hsign
            rcases hsign with rfl | rfl <;> contradiction
      simp only [State.step, atNumber, hplus, Bool.false_eq_true, if_false, if_pos hb]
  | some isPlus =>
      cases isPlus
      · exact run_digitChars (by simp) hsigned
      · exact run_digitChars (by simp) hsigned

theorem run_afterFraction {part : Part} (hpart : part ∈ [.zero, .whole, .fraction])
    (exponent : Option Exponent) (hrest : startsWith continuesNumber rest = false) :
    run ⟨.number part, opened⟩ (utf8 ((exponent.map Exponent.chars).getD []) ++ rest) =
      resume opened rest := by
  cases exponent with
  | none =>
      refine run_number_end ?_ hrest
      simp only [List.mem_cons, List.not_mem_nil, or_false] at hpart ⊢
      rcases hpart with rfl | rfl | rfl <;> simp
  | some e =>
      rw [Option.map_some, Option.getD_some, run_exponent hpart e]
      exact run_number_end (by simp) hrest

theorem run_afterInteger {part : Part} (hpart : part ∈ [.zero, .whole]) (fraction : List (Fin 10))
    (exponent : Option Exponent) (hrest : startsWith continuesNumber rest = false) :
    run ⟨.number part, opened⟩
        (utf8 (fractionChars fraction ++ (exponent.map Exponent.chars).getD []) ++ rest) =
      resume opened rest := by
  simp only [List.mem_cons, List.not_mem_nil, or_false] at hpart
  cases fraction with
  | nil =>
      refine run_afterFraction ?_ exponent hrest
      rcases hpart with rfl | rfl <;> simp
  | cons d ds =>
      have hpoint : State.step (octet '.') ⟨.number part, opened⟩ = go (.number .point) opened := by
        rcases hpart with rfl | rfl <;> rfl
      have hfirst (b : UInt8) (hb : isDigit b = true) :
          State.step b ⟨.number .point, opened⟩ = go (.number .fraction) opened := if_pos hb
      rw [fractionChars, utf8_append, utf8_cons_of_lt (by decide), List.cons_append,
        List.cons_append, List.append_assoc, run_cons_of_next hpoint,
        run_digitChars (by simp) hfirst]
      exact run_afterFraction (by simp) exponent hrest

/-- An integer is passed by where a value is due and behind a minus sign. -/
theorem run_whole {phase : Phase} (hphase : phase = .value ∨ phase = .number .sign) (n : Nat) :
    ∃ part : Part, part ∈ [.zero, .whole] ∧
      run ⟨phase, opened⟩ (utf8 (Nat.toDigits 10 n) ++ rest) = run ⟨.number part, opened⟩ rest := by
  have hdigits : ∀ c ∈ Nat.toDigits 10 n, c.isDigit = true := fun c hc =>
    Nat.isDigit_of_mem_toDigits (by decide) (by decide) hc
  obtain ⟨d, ds, hd, hcons, hzero⟩ := toDigits_eq_cons n
  rw [hcons] at hdigits
  by_cases hn : n = 0
  · have hstep : State.step (octet '0') ⟨phase, opened⟩ = go (.number .zero) opened := by
      rcases hphase with rfl | rfl <;> rfl
    refine ⟨.zero, by simp, ?_⟩
    rw [hn, Nat.toDigits_zero, utf8_cons_of_lt (by decide), utf8_nil, List.cons_append,
      List.nil_append, run_cons_of_next hstep]
  · have hpos : d ≠ 0 := fun h => hn (hzero h)
    have hstep : State.step (octet d.digitChar) ⟨phase, opened⟩ = go (.number .whole) opened := by
      rcases hphase with rfl | rfl <;> interval_cases d <;> first | contradiction | rfl
    refine ⟨.whole, by simp, ?_⟩
    rw [hcons, utf8_cons_of_lt (toNat_digitChar_lt d hd), List.cons_append, run_cons_of_next hstep,
      run_digits (by simp) (List.forall_mem_cons.mp hdigits).2]

theorem run_numeral (n : Numeral) (hrest : startsWith continuesNumber rest = false) :
    run ⟨.value, opened⟩ (utf8 n.chars ++ rest) = resume opened rest := by
  obtain ⟨isNegative, whole, fraction, exponent⟩ := n
  rw [Numeral.chars, utf8_append, List.append_assoc, utf8_append, List.append_assoc]
  cases isNegative with
  | false =>
      rw [if_neg Bool.false_ne_true, utf8_nil, List.nil_append]
      obtain ⟨part, hpart, hwhole⟩ := run_whole (Or.inl rfl) whole
      rw [hwhole, run_afterInteger hpart fraction exponent hrest]
  | true =>
      have hsign : State.step (octet '-') ⟨.value, opened⟩ = go (.number .sign) opened := rfl
      obtain ⟨part, hpart, hwhole⟩ := run_whole (Or.inr rfl) whole
      rw [if_pos rfl, utf8_cons_of_lt (by decide), utf8_nil, List.cons_append, List.nil_append,
        run_cons_of_next hsign, hwhole, run_afterInteger hpart fraction exponent hrest]

end Numbers

/-! ## Documents -/

theorem run_keyword (letter : Char) (letters : List Char) (opened : List Bracket) (rest : Octets) :
    run ⟨.keyword letter letters, opened⟩ ((letter :: letters).map octet ++ rest) =
      resume opened rest := by
  induction letters generalizing letter with
  | nil =>
      have hlast : State.step (octet letter) ⟨.keyword letter [], opened⟩ = complete opened :=
        if_pos rfl
      rw [List.map_cons, List.cons_append, run_cons_of_complete hlast]
      rfl
  | cons next letters ih =>
      have hnext : State.step (octet letter) ⟨.keyword letter (next :: letters), opened⟩ =
          go (.keyword next letters) opened := if_pos rfl
      rw [List.map_cons, List.cons_append, run_cons_of_next hnext, ih]

theorem run_value_skipBlanks (opened : List Bracket) (bs : Octets) :
    run ⟨.value, opened⟩ bs = run ⟨.value, opened⟩ (skipBlanks bs) := by
  have hblanks (b : UInt8) (hb : isBlank b = true) :
      State.step b ⟨.value, opened⟩ = .ok (.next ⟨.value, opened⟩) := if_pos hb
  exact run_skipBlanks hblanks bs

/-- A key is passed by with its colon. -/
theorem run_key {key : Option String} {d : Document} {rest entry : Octets}
    (h : EntryBegun rest key d entry) (opened : List Bracket) :
    ∃ value, Begun rest d value ∧
      run ⟨.key, opened⟩ entry = run ⟨.value, opened⟩ value := by
  obtain ⟨hcolon, hd⟩ := h
  rename_i pieces colon value
  have hopening : State.step (octet '"') ⟨.key, opened⟩ = go (.text true) opened := rfl
  have hclosing : State.step (octet '"') ⟨.text true, opened⟩ = go .colon opened := rfl
  have hmark : State.step (octet ':') ⟨.colon, opened⟩ = go .value opened := rfl
  have hblanks (b : UInt8) (hb : isBlank b = true) :
      State.step b ⟨.colon, opened⟩ = .ok (.next ⟨.colon, opened⟩) := if_pos hb
  refine ⟨skipBlanks value, hd, ?_⟩
  rw [run_cons_of_next hopening, run_pieces, run_cons_of_next hclosing, run_skipBlanks hblanks,
    hcolon, run_cons_of_next hmark, run_value_skipBlanks]

/-- The first key is taken like any other one. -/
theorem run_firstKey_of_entryBegun {key : Option String} {d : Document} {rest entry : Octets}
    (h : EntryBegun rest key d entry) (opened : List Bracket) :
    run ⟨.firstKey, opened⟩ entry = run ⟨.key, opened⟩ entry := by
  cases h
  exact run_cons_eq rfl

mutual

/-- The machine stops right behind a document, or waits for a comma there. -/
theorem run_document (d : Document) {bs rest : Octets} (h : Begun rest d bs)
    (hrest : startsWith continuesNumber rest = false) (opened : List Bracket) :
    run ⟨.value, opened⟩ bs = resume opened rest := by
  cases d with
  | null =>
      cases h
      exact run_keyword 'u' ['l', 'l'] opened rest
  | boolean b =>
      cases h with
      | isTrue => exact run_keyword 'r' ['u', 'e'] opened rest
      | isFalse => exact run_keyword 'a' ['l', 's', 'e'] opened rest
  | number n =>
      cases h
      exact run_numeral n hrest
  | text content =>
      cases h with
      | text pieces =>
          have hopening : State.step (octet '"') ⟨.value, opened⟩ = go (.text false) opened := rfl
          have hclosing : State.step (octet '"') ⟨.text false, opened⟩ = complete opened := rfl
          rw [run_cons_of_next hopening, run_pieces, run_cons_of_complete hclosing]
  | list items =>
      cases h with
      | list h =>
          have hopening : State.step (octet '[') ⟨.value, opened⟩ =
              go .firstElement (.list :: opened) := rfl
          rw [run_cons_of_next hopening]
          exact run_items true items h opened rest
  | object entries =>
      cases h with
      | object h =>
          have hopening : State.step (octet '\x7b') ⟨.value, opened⟩ =
              go .firstKey (.object :: opened) := rfl
          rw [run_cons_of_next hopening]
          exact run_entries true entries h opened rest

theorem run_items (isFirst : Bool) (ds : List Document) {cs : List Char}
    (h : Laid (itemLexemes isFirst ds ++ [.word [']']]) cs) (outer : List Bracket)
    (rest : Octets) :
    run ⟨if isFirst then .firstElement else .comma, .list :: outer⟩ (utf8 cs ++ rest) =
      resume outer rest := by
  have hbegun := h.itemsBegun rest
  rw [run_skipBlanks]
  · generalize skipBlanks (utf8 cs ++ rest) = bs at hbegun
    cases ds with
    | nil =>
        cases hbegun
        have hclosing : State.step (octet ']')
            ⟨if isFirst then .firstElement else .comma, .list :: outer⟩ = complete outer := by
          cases isFirst <;> rfl
        rw [run_cons_of_complete hclosing]
    | cons d ds =>
        cases hbegun with
        | @first _ _ item bs hd hds =>
            obtain ⟨b, item, rfl, hblank, hclosing⟩ := hd.exists_eq_cons
            have hvalue : State.step b ⟨.firstElement, .list :: outer⟩ =
                State.step b ⟨.value, .list :: outer⟩ := by
              simp only [State.step, hblank, Bool.false_eq_true, if_false, if_neg hclosing]
            rw [if_pos rfl, run_cons_eq hvalue,
              run_document d hd (startsWith_items hds rest) (.list :: outer)]
            exact run_items false ds hds outer rest
        | @later _ _ later bs hd hds =>
            have hcomma : State.step (octet ',') ⟨.comma, .list :: outer⟩ =
                go .value (.list :: outer) := rfl
            rw [if_neg Bool.false_ne_true, run_cons_of_next hcomma, run_value_skipBlanks,
              run_document d hd (startsWith_items hds rest) (.list :: outer)]
            exact run_items false ds hds outer rest
  · intro b hb
    cases isFirst <;> exact if_pos hb

theorem run_entries (isFirst : Bool) (es : List (Option String × Document)) {cs : List Char}
    (h : Laid (entryLexemes isFirst es ++ [.word ['\x7d']]) cs) (outer : List Bracket)
    (rest : Octets) :
    run ⟨if isFirst then .firstKey else .comma, .object :: outer⟩ (utf8 cs ++ rest) =
      resume outer rest := by
  have hbegun := h.entriesBegun rest
  rw [run_skipBlanks]
  · generalize skipBlanks (utf8 cs ++ rest) = bs at hbegun
    cases es with
    | nil =>
        cases hbegun
        have hclosing : State.step (octet '\x7d')
            ⟨if isFirst then .firstKey else .comma, .object :: outer⟩ = complete outer := by
          cases isFirst <;> rfl
        rw [run_cons_of_complete hclosing]
    | cons e es =>
        obtain ⟨key, d⟩ := e
        cases hbegun with
        | first he hes =>
            obtain ⟨value, hd, hkey⟩ := run_key he (.object :: outer)
            rw [if_pos rfl, run_firstKey_of_entryBegun he, hkey,
              run_document d hd (startsWith_entries hes rest) (.object :: outer)]
            exact run_entries false es hes outer rest
        | later he hes =>
            obtain ⟨value, hd, hkey⟩ := run_key he (.object :: outer)
            have hcomma : State.step (octet ',') ⟨.comma, .object :: outer⟩ =
                go .key (.object :: outer) := rfl
            have hblanks (b : UInt8) (hb : isBlank b = true) :
                State.step b ⟨.key, .object :: outer⟩ = .ok (.next ⟨.key, .object :: outer⟩) :=
              if_pos hb
            rw [if_neg Bool.false_ne_true, run_cons_of_next hcomma, run_skipBlanks hblanks, hkey,
              run_document d hd (startsWith_entries hes rest) (.object :: outer)]
            exact run_entries false es hes outer rest
  · intro b hb
    cases isFirst <;> exact if_pos hb

end

end VmHandler.Json.Skip

namespace VmHandler.Json

/-- A document is skipped whatever it holds. -/
theorem skipValue_of_begun {d : Document} {bs rest : Octets} (h : Begun rest d (skipBlanks bs))
    (hrest : startsWith continuesNumber rest = false) : skipValue bs = .ok rest := by
  rw [skipValue, Skip.run_value_skipBlanks, Skip.run_document d h hrest]
  rfl

end VmHandler.Json
