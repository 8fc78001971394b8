import VmHandler.Proofs.Document
import VmHandler.Proofs.Nesting

/-!
# How deeply texts of documents nest

A text of a document nests as deeply as the document does, in whatever way it is written: blanks
open nothing, and what stands for a character inside quotes is neither taken for a bracket nor for
the end of the quotes.
-/

set_option autoImplicit false

namespace VmHandler.Json

/-! ## The depth of a document -/

mutual

/-- How many lists and objects stand inside each other. -/
def Document.depth : Document → Nat
  | .null => 0
  | .boolean _ => 0
  | .number _ => 0
  | .text _ => 0
  | .list items => Document.depthOfItems items + 1
  | .object entries => Document.depthOfEntries entries + 1

/-- The depth of the deepest element. -/
def Document.depthOfItems : List Document → Nat
  | [] => 0
  | d :: ds => max d.depth (Document.depthOfItems ds)

/-- The depth of the deepest value of an entry. -/
def Document.depthOfEntries : List (Option String × Document) → Nat
  | [] => 0
  | (_, d) :: es => max d.depth (Document.depthOfEntries es)

end

theorem Document.depthOfItems_le_iff {ds : List Document} {n : Nat} :
    depthOfItems ds ≤ n ↔ ∀ d ∈ ds, d.depth ≤ n := by
  induction ds with
  | nil => simp [depthOfItems]
  | cons d ds ih => rw [depthOfItems, Nat.max_le, ih, List.forall_mem_cons]

theorem Document.depthOfEntries_le_iff {es : List (Option String × Document)} {n : Nat} :
    depthOfEntries es ≤ n ↔ ∀ e ∈ es, e.2.depth ≤ n := by
  induction es with
  | nil => simp [depthOfEntries]
  | cons e es ih => rw [depthOfEntries, Nat.max_le, ih, List.forall_mem_cons]

theorem Document.depthOfEntries_append (es es' : List (Option String × Document)) :
    depthOfEntries (es ++ es') = max (depthOfEntries es) (depthOfEntries es') := by
  induction es with
  | nil => rw [List.nil_append, depthOfEntries, Nat.zero_max]
  | cons e es ih => rw [List.cons_append, depthOfEntries, ih, depthOfEntries, Nat.max_assoc]

theorem Document.depthOfEntries_le_of_forall {es es' : List (Option String × Document)}
    (h : ∀ e ∈ es, ∃ e' ∈ es', e.2.depth ≤ e'.2.depth) :
    depthOfEntries es ≤ depthOfEntries es' := by
  rw [depthOfEntries_le_iff]
  intro e he
  obtain ⟨e', he', hle⟩ := h e he
  exact Nat.le_trans hle (depthOfEntries_le_iff.mp (Nat.le_refl _) e' he')

/-! ## The scan of a lexeme -/

theorem nests_of_allBlank {blanks : List Char} (h : AllBlank blanks) : Nests blanks 0 := by
  refine nests_of_forall fun c hc => ?_
  have hmem := h c hc
  simp only [List.mem_cons, List.not_mem_nil, or_false] at hmem
  rcases hmem with rfl | rfl | rfl | rfl <;> exact nests_of_run_eq fun _ _ => rfl

theorem Nests.behind_blanks {blanks cs : List Char} {depth : Nat} (hblanks : AllBlank blanks)
    (h : Nests cs depth) : Nests (blanks ++ cs) depth := by
  simpa only [Nat.zero_max] using (nests_of_allBlank hblanks).append h

theorem HexDigit.char_ne (h : HexDigit) : h.char ≠ '"' ∧ h.char ≠ '\\' := by
  obtain ⟨value, isUpper⟩ := h
  revert value isUpper
  decide

/-- A piece leaves the scan inside the quotes. -/
theorem run_piece (p : Piece) (opened deepest : Nat) :
    Scan.run ⟨.quoted, opened, deepest⟩ p.chars = ⟨.quoted, opened, deepest⟩ := by
  have hplain {c : Char} (hquote : c ≠ '"') (hslash : c ≠ '\\') :
      Scan.step ⟨.quoted, opened, deepest⟩ c = ⟨.quoted, opened, deepest⟩ := by
    simp only [Scan.step, if_neg hquote, if_neg hslash]
  cases p with
  | plain c hc => exact hplain hc.2.1 hc.2.2
  | letter e he => rfl
  | code c =>
      have hdigit (h : HexDigit) :
          Scan.step ⟨.quoted, opened, deepest⟩ h.char = ⟨.quoted, opened, deepest⟩ :=
        hplain h.char_ne.1 h.char_ne.2
      -- behind the backslash and the letter there are four digits
      show Scan.run ⟨.quoted, opened, deepest⟩
        [c.first.char, c.second.char, c.third.char, c.fourth.char] = _
      simp only [Scan.run_cons, hdigit, Scan.run_nil]

theorem run_flatMap_piece (pieces : List Piece) (opened deepest : Nat) :
    Scan.run ⟨.quoted, opened, deepest⟩ (pieces.flatMap Piece.chars) =
      ⟨.quoted, opened, deepest⟩ := by
  induction pieces with
  | nil => rfl
  | cons p pieces ih => rw [List.flatMap_cons, Scan.run_append, run_piece, ih]

theorem nests_quoted (pieces : List Piece) :
    Nests ('"' :: pieces.flatMap Piece.chars ++ ['"']) 0 := by
  refine nests_of_run_eq fun opened deepest => ?_
  rw [List.cons_append, Scan.run_cons, Scan.run_append]
  exact congrArg (Scan.run · ['"']) (run_flatMap_piece pieces opened deepest)

theorem nests_digitChars (ds : List (Fin 10)) : Nests (digitChars ds) 0 := by
  refine nests_of_forall_isDigit fun c hc => ?_
  obtain ⟨d, -, rfl⟩ := List.mem_map.mp hc
  have hdigit : ∀ d : Fin 10, d.val.digitChar.isDigit = true := by decide
  exact hdigit d

theorem nests_numberMark {c : Char} (h : c ∈ ['-', '+', '.', 'e', 'E']) : Nests [c] 0 := by
  simp only [List.mem_cons, List.not_mem_nil, or_false] at h
  rcases h with rfl | rfl | rfl | rfl | rfl <;> exact nests_of_run_eq fun _ _ => rfl

theorem nests_exponent (e : Exponent) : Nests e.chars 0 := by
  obtain ⟨isUpper, sign, first, more⟩ := e
  have hletter : Nests [if isUpper then 'E' else 'e'] 0 := by
    cases isUpper <;> exact nests_numberMark (by decide)
  have hdigits := nests_digitChars (first :: more)
  rcases sign with _ | _ | _
  · exact hletter.cons hdigits
  · exact hletter.cons ((nests_numberMark (c := '-') (by decide)).cons hdigits)
  · exact hletter.cons ((nests_numberMark (c := '+') (by decide)).cons hdigits)

theorem nests_numeral (n : Numeral) : Nests n.chars 0 := by
  have hsign : Nests (if n.isNegative then ['-'] else []) 0 := by
    cases n.isNegative with
    | true => exact nests_numberMark (by decide)
    | false => exact nests_nil
  have hfraction : Nests (fractionChars n.fraction) 0 := by
    cases n.fraction with
    | nil => exact nests_nil
    | cons d ds => exact (nests_numberMark (by decide)).cons (nests_digitChars (d :: ds))
  have hexponent : Nests ((n.exponent.map Exponent.chars).getD []) 0 := by
    cases n.exponent with
    | none => exact nests_nil
    | some e => exact nests_exponent e
  exact hsign.append ((nests_toDigits n.whole).append (hfraction.append hexponent))

/-! ## The scan of a document -/

/-- Behind blanks the only lexeme of a document that opens nothing is scanned. -/
theorem Laid.nests_single {x : Lexeme} {cs : List Char} (h : Laid [x] cs)
    (hx : ∀ ws, x.Spelled ws → Nests ws 0) : Nests cs 0 := by
  cases h with
  | cons hblanks hspelled hnil =>
      cases hnil
      exact ((hx _ hspelled).append nests_nil).behind_blanks hblanks

theorem nests_of_spelled_word {ws cs : List Char} (h : (Lexeme.word ws).Spelled cs)
    {depth : Nat} (hws : Nests ws depth) : Nests cs depth := by
  cases h
  exact hws

theorem nests_of_spelled_quoted {content : Option String} {cs : List Char}
    (h : (Lexeme.quoted content).Spelled cs) : Nests cs 0 := by
  cases h with
  | quoted pieces => exact nests_quoted pieces

/-- A mark that opens nothing, and what follows it. -/
theorem Laid.nests_mark {c : Char} {xs : List Lexeme} {cs : List Char} {depth : Nat}
    (h : Laid (.word [c] :: xs) cs) (hc : Nests [c] 0)
    (hxs : ∀ cs', Laid xs cs' → Nests cs' depth) : Nests cs depth := by
  cases h with
  | cons hblanks hspelled hlaid =>
      cases hspelled
      exact (hc.cons (hxs _ hlaid)).behind_blanks hblanks

/-- What stands between brackets is one bracket deeper. -/
theorem Laid.nests_bracketed {opening closing : Char} {xs : List Lexeme} {cs : List Char}
    {depth : Nat} (hopening : opening = '[' ∨ opening = '\x7b')
    (hclosing : closing = ']' ∨ closing = '\x7d')
    (h : Laid (.word [opening] :: (xs ++ [.word [closing]])) cs)
    (hxs : ∀ cs', Laid xs cs' → Nests cs' depth) : Nests cs (depth + 1) := by
  cases h with
  | @cons _ _ blanks _ _ hblanks hspelled hlaid =>
      cases hspelled
      obtain ⟨inner, close, rfl, hinner, hclose⟩ := hlaid.append_elim
      cases hclose with
      | @cons _ _ later _ _ hlater hclosed hnil =>
          cases hclosed
          cases hnil
          have hinside : Nests (inner ++ later) depth := by
            simpa only [Nat.max_zero] using (hxs _ hinner).append (nests_of_allBlank hlater)
          have hbracketed := Nests.bracketed hopening hclosing hinside
          refine Nests.behind_blanks hblanks ?_
          simpa only [List.cons_append, List.nil_append, List.append_assoc,
            List.append_nil] using hbracketed

/-- The comma before an element or an entry opens nothing. -/
theorem Laid.nests_behind_comma {isFirst : Bool} {xs : List Lexeme} {cs : List Char}
    {depth : Nat} (h : Laid (comma isFirst ++ xs) cs)
    (hxs : ∀ cs', Laid xs cs' → Nests cs' depth) : Nests cs depth := by
  cases isFirst with
  | true => exact hxs cs h
  | false => exact h.nests_mark (nests_of_run_eq fun _ _ => rfl) hxs

mutual

theorem nests_of_laid (d : Document) {cs : List Char} (h : Laid d.lexemes cs) :
    Nests cs d.depth := by
  match d with
  | .null =>
      exact h.nests_single fun _ hs => nests_of_spelled_word hs (nests_of_run_eq fun _ _ => rfl)
  | .boolean true =>
      exact h.nests_single fun _ hs => nests_of_spelled_word hs (nests_of_run_eq fun _ _ => rfl)
  | .boolean false =>
      exact h.nests_single fun _ hs => nests_of_spelled_word hs (nests_of_run_eq fun _ _ => rfl)
  | .number n => exact h.nests_single fun _ hs => nests_of_spelled_word hs (nests_numeral n)
  | .text content => exact h.nests_single fun _ hs => nests_of_spelled_quoted hs
  | .list ds =>
      exact h.nests_bracketed (.inl rfl) (.inl rfl) fun _ hds => nests_of_laid_items ds hds
  | .object es =>
      exact h.nests_bracketed (.inr rfl) (.inr rfl) fun _ hes => nests_of_laid_entries es hes

theorem nests_of_laid_items (ds : List Document) {isFirst : Bool} {cs : List Char}
    (h : Laid (itemLexemes isFirst ds) cs) : Nests cs (Document.depthOfItems ds) := by
  match ds with
  | [] =>
      cases h
      exact nests_nil
  | d :: ds =>
      refine h.nests_behind_comma fun _ hlaid => ?_
      obtain ⟨head, tail, rfl, hhead, htail⟩ := hlaid.append_elim
      exact (nests_of_laid d hhead).append (nests_of_laid_items ds htail)

theorem nests_of_laid_entries (es : List (Option String × Document)) {isFirst : Bool}
    {cs : List Char} (h : Laid (entryLexemes isFirst es) cs) :
    Nests cs (Document.depthOfEntries es) := by
  match es with
  | [] =>
      cases h
      exact nests_nil
  | (key, d) :: es =>
      refine h.nests_behind_comma fun _ hlaid => ?_
      cases hlaid with
      | cons hblanks hkey hcolon =>
          have hvalue := hcolon.nests_mark (nests_of_run_eq fun _ _ => rfl) fun _ hlaid => by
            obtain ⟨head, tail, rfl, hhead, htail⟩ := hlaid.append_elim
            exact (nests_of_laid d hhead).append (nests_of_laid_entries es htail)
          have hentry := (nests_of_spelled_quoted hkey).append hvalue
          rw [Nat.zero_max] at hentry
          exact hentry.behind_blanks hblanks

end

/-- A text of a document nests as deeply as the document. -/
theorem nesting_of_written {d : Document} {s : String} (h : d.Written s) :
    nesting s = d.depth := by
  obtain ⟨body, trail, hs, hbody, htrail⟩ := h
  have hbodyNests := nests_of_laid d hbody
  have hnests := hbodyNests.append (nests_of_allBlank htrail)
  rw [nesting, hs, hnests 0 0 (Nat.le_refl 0), Nat.zero_add, Nat.zero_max, Nat.max_zero]

end VmHandler.Json
