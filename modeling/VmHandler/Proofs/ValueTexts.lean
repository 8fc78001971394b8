import VmHandler.Proofs.Unambiguous

/-!
# Texts that are written

A value that is written over several lines is a text of the value, and of nothing else: each element
and each entry stands behind the blanks of its line, and each character of a text is written as a
piece that stands for it. So what a program reads in a report is what the report was written from.
-/

set_option autoImplicit false

namespace VmHandler.Json

/-! ## Values as documents -/

mutual

/-- The document that is written for a value. -/
def Value.document : Value → Document
  | .null => .null
  | .natural n => .number (.natural n)
  | .text s => .text (some s)
  | .list items => .list (itemDocuments items)
  | .object entries => .object (entryDocuments entries)

/-- The documents of elements. -/
def itemDocuments : List Value → List Document
  | [] => []
  | v :: vs => v.document :: itemDocuments vs

/-- The keys of entries with the documents of their values. -/
def entryDocuments : List (String × Value) → List (Option String × Document)
  | [] => []
  | (key, v) :: es => (some key, v.document) :: entryDocuments es

end

theorem Value.document_list_map {α : Type} (f : α → Value) (xs : List α) :
    (list (xs.map f)).document = .list (xs.map fun x => (f x).document) := by
  have hmap : itemDocuments (xs.map f) = xs.map fun x => (f x).document := by
    induction xs with
    | nil => rfl
    | cons x xs ih => rw [List.map_cons, itemDocuments, ih, List.map_cons]
  rw [document, hmap]

/-! ## Written texts -/

/-- Where no other letter is used, a character is written as the piece for it. -/
theorem chars_ofChar {c : Char} (hletter : c ∉ ['\x08', '\t', '\n', '\x0c', '\r']) :
    (Piece.ofChar c).chars = writtenChar c := by
  simp only [List.mem_cons, List.not_mem_nil, or_false, not_or] at hletter
  obtain ⟨hbackspace, htab, hline, hfeed, hreturn⟩ := hletter
  simp only [writtenChar, if_neg hbackspace, if_neg htab, if_neg hline, if_neg hfeed,
    if_neg hreturn, Piece.ofChar]
  by_cases hquote : c = '"'
  · rw [dif_pos hquote, if_pos hquote]
    rfl
  · rw [dif_neg hquote, if_neg hquote]
    by_cases hslash : c = '\\'
    · rw [dif_pos hslash, if_pos hslash]
      rfl
    · rw [dif_neg hslash, if_neg hslash]
      by_cases hplain : 0x20 ≤ c.toNat
      · rw [dif_pos hplain, if_neg (Nat.not_lt_of_le hplain)]
        rfl
      · have hcode : ∀ n < 0x20,
            (Piece.code ⟨⟨0, false⟩, ⟨0, false⟩, ⟨Fin.ofNat 16 (n / 16), false⟩,
              ⟨Fin.ofNat 16 n, false⟩⟩).chars = '\\' :: 'u' :: Text.fixedHex 4 n := by decide
        rw [dif_neg hplain, if_pos (Nat.lt_of_not_le hplain)]
        exact hcode c.toNat (Nat.lt_of_not_le hplain)

/-- Each character is written as a piece that stands for it. -/
theorem exists_piece_writtenChar (c : Char) :
    ∃ p : Piece, p.chars = writtenChar c ∧
      ∀ ps, characters? (p :: ps) = (characters? ps).map (c :: ·) := by
  by_cases hletter : c ∈ ['\x08', '\t', '\n', '\x0c', '\r']
  · simp only [List.mem_cons, List.not_mem_nil, or_false] at hletter
    rcases hletter with rfl | rfl | rfl | rfl | rfl
    · exact ⟨.letter ('b', '\x08') (by decide), rfl, fun _ => rfl⟩
    · exact ⟨.letter ('t', '\t') (by decide), rfl, fun _ => rfl⟩
    · exact ⟨.letter ('n', '\n') (by decide), rfl, fun _ => rfl⟩
    · exact ⟨.letter ('f', '\x0c') (by decide), rfl, fun _ => rfl⟩
    · exact ⟨.letter ('r', '\r') (by decide), rfl, fun _ => rfl⟩
  · exact ⟨.ofChar c, chars_ofChar hletter, characters?_ofChar c⟩

theorem exists_pieces_written (cs : List Char) :
    ∃ ps : List Piece, ps.flatMap Piece.chars = cs.flatMap writtenChar ∧
      characters? ps = some cs := by
  induction cs with
  | nil => exact ⟨[], rfl, rfl⟩
  | cons c cs ih =>
      obtain ⟨ps, hchars, hcharacters⟩ := ih
      obtain ⟨p, hp, hcons⟩ := exists_piece_writtenChar c
      refine ⟨p :: ps, ?_, ?_⟩
      · rw [List.flatMap_cons, List.flatMap_cons, hp, hchars]
      · rw [hcons, hcharacters, Option.map_some]

theorem spelled_writtenText (s : String) : (Lexeme.quoted (some s)).Spelled (writtenText s) := by
  obtain ⟨ps, hchars, hcharacters⟩ := exists_pieces_written s.toList
  have hspelled := Lexeme.Spelled.quoted ps
  rw [hchars, hcharacters, Option.map_some, String.ofList_toList] at hspelled
  exact hspelled

/-! ## Lexemes one after the other -/

theorem Laid.append {xs ys : List Lexeme} {cs ds : List Char} (h : Laid xs cs) (h' : Laid ys ds) :
    Laid (xs ++ ys) (cs ++ ds) := by
  induction h with
  | nil => exact h'
  | cons hblanks hx hxs ih =>
      rw [List.cons_append, List.append_assoc, List.append_assoc]
      exact .cons hblanks hx ih

/-- A lexeme without blanks before it. -/
theorem Laid.cons_spelled {x : Lexeme} {xs : List Lexeme} {cs rest : List Char}
    (hx : x.Spelled cs) (hxs : Laid xs rest) : Laid (x :: xs) (cs ++ rest) :=
  .cons allBlank_nil hx hxs

theorem laid_of_spelled {x : Lexeme} {cs : List Char} (h : x.Spelled cs) : Laid [x] cs := by
  have hlaid := Laid.cons_spelled h .nil
  rwa [List.append_nil] at hlaid

theorem Laid.cons_mark {xs : List Lexeme} {rest : List Char} (c : Char) (hxs : Laid xs rest) :
    Laid (.word [c] :: xs) (c :: rest) :=
  .cons_spelled (.word [c]) hxs

theorem Laid.behind_blanks {xs : List Lexeme} {blanks cs : List Char} (hxs : xs ≠ [])
    (hblanks : AllBlank blanks) (h : Laid xs cs) : Laid xs (blanks ++ cs) := by
  cases h with
  | nil => contradiction
  | @cons x xs inner ws rest hinner hx hrest =>
      have hall : AllBlank (blanks ++ inner) := by
        intro c hc
        exact (List.mem_append.mp hc).elim (hblanks c) (hinner c)
      rw [← List.append_assoc]
      exact .cons hall hx hrest

theorem Document.lexemes_ne_nil (d : Document) : d.lexemes ≠ [] := by
  cases d with
  | boolean b => cases b <;> exact List.cons_ne_nil _ _
  | null => exact List.cons_ne_nil _ _
  | number => exact List.cons_ne_nil _ _
  | text => exact List.cons_ne_nil _ _
  | list => exact List.cons_ne_nil _ _
  | object => exact List.cons_ne_nil _ _

/-! ## Lines -/

theorem allBlank_newLine (depth : Nat) : AllBlank (newLine depth) := by
  intro c hc
  rcases List.mem_cons.mp hc with rfl | hc
  · decide
  · rw [List.eq_of_mem_replicate hc]
    decide

section Lines

variable {d : Document} {cs : List Char} (depth : Nat)

/-- An element on a line of its own. -/
theorem laid_itemLine (h : Laid d.lexemes cs) : Laid d.lexemes (newLine depth ++ cs) :=
  h.behind_blanks d.lexemes_ne_nil (allBlank_newLine depth)

/-- An entry on a line of its own. -/
theorem laid_entryLine (key : String) (h : Laid d.lexemes cs) :
    Laid (.quoted (some key) :: .word [':'] :: d.lexemes)
      (newLine depth ++ writtenText key ++ [':', ' '] ++ cs) := by
  have hblank : AllBlank [' '] := fun c hc => List.mem_singleton.mp hc ▸ List.mem_cons_self
  have hvalue := (h.behind_blanks d.lexemes_ne_nil hblank).cons_mark ':'
  rw [List.append_assoc, List.append_assoc]
  exact .cons (allBlank_newLine depth) (spelled_writtenText key) hvalue

/-- Lines between brackets, the closing one on a line of its own. -/
theorem laid_bracketed {xs : List Lexeme} (opening closing : Char) (h : Laid xs cs) :
    Laid (.word [opening] :: (xs ++ [.word [closing]]))
      (opening :: cs ++ newLine depth ++ [closing]) := by
  have hclosing := (Laid.cons_mark closing .nil).behind_blanks (List.cons_ne_nil _ _)
    (allBlank_newLine depth)
  have hlaid := (h.append hclosing).cons_mark opening
  rw [← List.append_assoc] at hlaid
  exact hlaid

end Lines

/-! ## Written values -/

mutual

theorem Value.laid_prettyChars (v : Value) (depth : Nat) :
    Laid v.document.lexemes (v.prettyChars depth) := by
  match v with
  | .null => exact laid_of_spelled (.word _)
  | .natural n =>
      rw [Value.document, Document.lexemes, Numeral.chars_natural]
      exact laid_of_spelled (.word _)
  | .text s => exact laid_of_spelled (spelled_writtenText s)
  | .list [] => exact .cons_mark '[' (.cons_mark ']' .nil)
  | .list (v :: vs) => exact laid_bracketed depth '[' ']' (laid_prettyItems (v :: vs) (depth + 1))
  | .object [] => exact .cons_mark '\x7b' (.cons_mark '\x7d' .nil)
  | .object (e :: es) =>
      exact laid_bracketed depth '\x7b' '\x7d' (laid_prettyEntries (e :: es) (depth + 1))

theorem laid_prettyItems (vs : List Value) (depth : Nat) :
    Laid (itemLexemes true (itemDocuments vs)) (prettyItems depth vs) := by
  match vs with
  | [] => exact .nil
  | [v] =>
      have hitem := laid_itemLine depth (v.laid_prettyChars depth)
      rw [← List.append_nil v.document.lexemes] at hitem
      exact hitem
  | v :: w :: vs =>
      have hitem := laid_itemLine depth (v.laid_prettyChars depth)
      exact hitem.append ((laid_prettyItems (w :: vs) depth).cons_mark ',')

theorem laid_prettyEntries (es : List (String × Value)) (depth : Nat) :
    Laid (entryLexemes true (entryDocuments es)) (prettyEntries depth es) := by
  match es with
  | [] => exact .nil
  | [(key, v)] =>
      have hentry := laid_entryLine depth key (v.laid_prettyChars depth)
      rw [← List.append_nil v.document.lexemes] at hentry
      exact hentry
  | (key, v) :: e :: es =>
      have hentry := laid_entryLine depth key (v.laid_prettyChars depth)
      exact hentry.append ((laid_prettyEntries (e :: es) depth).cons_mark ',')

end

/-- What is written for a value, and the end of its last line, hold the value. -/
theorem Value.heldBy_pretty (v : Value) : v.document.HeldBy (v.pretty ++ "\n") := by
  have hblank : AllBlank ['\n'] := by
    intro c hc
    rw [List.mem_singleton.mp hc]
    decide
  refine Document.Written.heldBy ⟨v.prettyChars 0, ['\n'], ?_, v.laid_prettyChars 0, hblank⟩
  rw [Value.pretty, String.toList_append, String.toList_ofList]
  rfl

end VmHandler.Json
