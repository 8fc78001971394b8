import VmHandler.Json.QuotedText
import VmHandler.Proofs.Scalar

/-!
# Documents

A document is any value that a text can hold, with what its notation leaves open kept open: blanks
may stand before each lexeme, and each character of a quoted text may be written as itself, as an
escape letter or by its code, one beyond the first plane by the codes of its two halves. A half may
stand alone; the text that holds it has no characters to stand for, but it is a document.

Texts of documents are related to documents, not computed from them: `Laid` relates lexemes to all
the ways to write them down. Behind its blanks a text begins as its document does (`Begun`), and
this is all that a reader has to look at.
-/

set_option autoImplicit false

namespace VmHandler.Json

/-! ## Quoted texts -/

/-- A hexadecimal digit in lower or upper case. -/
structure HexDigit where
  value : Fin 16
  /-- Whether it is a capital letter, if it is a letter. -/
  isUpper : Bool

/-- The character of a hexadecimal digit. -/
def HexDigit.char (h : HexDigit) : Char :=
  if h.isUpper then (Text.hexDigit h.value).toUpper else Text.hexDigit h.value

/-- Four hexadecimal digits, the most significant one first. -/
structure Code where
  first : HexDigit
  second : HexDigit
  third : HexDigit
  fourth : HexDigit

/-- The number of four hexadecimal digits. -/
def Code.number (c : Code) : Nat :=
  ((c.first.value * 16 + c.second.value) * 16 + c.third.value) * 16 + c.fourth.value

/-- The letters that may follow a backslash, with the characters they stand for. -/
def letters : List (Char × Char) :=
  [('"', '"'), ('\\', '\\'), ('/', '/'), ('b', '\x08'), ('f', '\x0c'), ('n', '\n'), ('r', '\r'),
    ('t', '\t')]

/-- What stands for a character inside quotes, or for half of one. -/
inductive Piece where
  /-- a character that stands for itself -/
  | plain (c : Char) (hc : 0x20 ≤ c.toNat ∧ c ≠ '"' ∧ c ≠ '\\')
  /-- a letter behind a backslash -/
  | letter (e : Char × Char) (he : e ∈ letters)
  /-- a code behind a backslash and the letter `u` -/
  | code (c : Code)

/-- How a piece is written. -/
def Piece.chars : Piece → List Char
  | plain c _ => [c]
  | letter e _ => ['\\', e.1]
  | code c => ['\\', 'u', c.first.char, c.second.char, c.third.char, c.fourth.char]

/-- The character of the two halves of a pair. -/
def pairChar (high low : Nat) : Char :=
  Char.ofNat ((high - 0xD800) * 0x400 + (low - 0xDC00) + 0x10000)

/-- The characters that pieces stand for, unless a half stands alone. -/
def characters? : List Piece → Option (List Char)
  | [] => some []
  | .plain c _ :: ps => (characters? ps).map (c :: ·)
  | .letter e _ :: ps => (characters? ps).map (e.2 :: ·)
  | .code c :: ps =>
      if isLowHalf c.number then none
      else if isHighHalf c.number then
        match ps with
        | .code c' :: ps =>
            if isLowHalf c'.number then
              (characters? ps).map (pairChar c.number c'.number :: ·)
            else none
        | _ => none
      else (characters? ps).map (Char.ofNat c.number :: ·)

/-! ## Numbers -/

/-- An exponent with its mark. -/
structure Exponent where
  /-- Whether the mark is a capital letter. -/
  isUpper : Bool
  /-- The sign, if there is one, and whether it is a plus. -/
  sign : Option Bool
  first : Fin 10
  more : List (Fin 10)

/-- A number as it is written. -/
structure Numeral where
  isNegative : Bool
  /-- The integer, which has no leading zero. -/
  whole : Nat
  /-- The digits of the fraction; none if there is no fraction. -/
  fraction : List (Fin 10)
  exponent : Option Exponent

/-- The characters of decimal digits. -/
def digitChars (ds : List (Fin 10)) : List Char := ds.map fun d => d.val.digitChar

/-- How a fraction is written. -/
def fractionChars : List (Fin 10) → List Char
  | [] => []
  | d :: ds => '.' :: digitChars (d :: ds)

/-- How an exponent is written. -/
def Exponent.chars (e : Exponent) : List Char :=
  (if e.isUpper then 'E' else 'e') ::
    ((match e.sign with
      | none => []
      | some true => ['+']
      | some false => ['-']) ++ digitChars (e.first :: e.more))

/-- How a number is written. -/
def Numeral.chars (n : Numeral) : List Char :=
  (if n.isNegative then ['-'] else []) ++
    (Nat.toDigits 10 n.whole ++
      (fractionChars n.fraction ++ (n.exponent.map Exponent.chars).getD []))

/-- The numeral of a number without sign, fraction and exponent. -/
def Numeral.natural (n : Nat) : Numeral := ⟨false, n, [], none⟩

theorem Numeral.chars_natural (n : Nat) : (natural n).chars = Nat.toDigits 10 n := by
  simp [natural, chars, fractionChars]

/-! ## Documents -/

/-- A document. A text has characters unless half of a character stands alone in it. -/
inductive Document where
  | null
  | boolean (b : Bool)
  | number (n : Numeral)
  | text (content : Option String)
  | list (items : List Document)
  /-- keys with values in order; a key may occur more than once -/
  | object (entries : List (Option String × Document))

/-- What blanks may stand before. -/
inductive Lexeme where
  /-- characters that can be written in one way only -/
  | word (cs : List Char)
  | quoted (content : Option String)

/-- The comma before each element or entry but the first. -/
def comma (isFirst : Bool) : List Lexeme := if isFirst then [] else [.word [',']]

mutual

/-- The lexemes of a document. -/
def Document.lexemes : Document → List Lexeme
  | .null => [.word ['n', 'u', 'l', 'l']]
  | .boolean true => [.word ['t', 'r', 'u', 'e']]
  | .boolean false => [.word ['f', 'a', 'l', 's', 'e']]
  | .number n => [.word n.chars]
  | .text content => [.quoted content]
  | .list items => .word ['['] :: (itemLexemes true items ++ [.word [']']])
  | .object entries => .word ['\x7b'] :: (entryLexemes true entries ++ [.word ['\x7d']])

/-- The lexemes of elements. -/
def itemLexemes (isFirst : Bool) : List Document → List Lexeme
  | [] => []
  | d :: ds => comma isFirst ++ (d.lexemes ++ itemLexemes false ds)

/-- The lexemes of entries. -/
def entryLexemes (isFirst : Bool) : List (Option String × Document) → List Lexeme
  | [] => []
  | (key, d) :: es =>
      comma isFirst ++ (.quoted key :: .word [':'] :: (d.lexemes ++ entryLexemes false es))

end

/-! ## Texts of documents -/

/-- How a lexeme may be written. -/
inductive Lexeme.Spelled : Lexeme → List Char → Prop where
  /-- a word is written as it is -/
  | word (cs : List Char) : Spelled (.word cs) cs
  /-- a text is written between quotes, in any pieces that stand for its characters -/
  | quoted (pieces : List Piece) :
      Spelled (.quoted ((characters? pieces).map String.ofList))
        ('"' :: pieces.flatMap Piece.chars ++ ['"'])

/-- The characters that may stand before a lexeme. -/
def AllBlank (cs : List Char) : Prop := ∀ c ∈ cs, c ∈ [' ', '\t', '\n', '\r']

theorem allBlank_nil : AllBlank [] := fun _ hc => absurd hc List.not_mem_nil

/-- Lexemes one after the other, each behind any number of blanks. -/
inductive Laid : List Lexeme → List Char → Prop where
  /-- nothing is left to be written -/
  | nil : Laid [] []
  /-- blanks, the next lexeme and the other ones -/
  | cons {x : Lexeme} {xs : List Lexeme} {blanks cs rest : List Char} (hblanks : AllBlank blanks)
      (hx : x.Spelled cs) (hxs : Laid xs rest) : Laid (x :: xs) (blanks ++ (cs ++ rest))

/-- A text holds a document and blanks. -/
def Document.Written (d : Document) (s : String) : Prop :=
  ∃ body trail, s.toList = body ++ trail ∧ Laid d.lexemes body ∧ AllBlank trail

/-! ## One way to write each document -/

/-- A piece for a character. -/
def Piece.ofChar (c : Char) : Piece :=
  if hquote : c = '"' then .letter ('"', '"') (by simp [letters])
  else if hslash : c = '\\' then .letter ('\\', '\\') (by simp [letters])
  else if hplain : 0x20 ≤ c.toNat then .plain c ⟨hplain, hquote, hslash⟩
  else
    .code
      ⟨⟨0, false⟩, ⟨0, false⟩, ⟨Fin.ofNat 16 (c.toNat / 16), false⟩, ⟨Fin.ofNat 16 c.toNat, false⟩⟩

theorem characters?_ofChar (c : Char) (ps : List Piece) :
    characters? (Piece.ofChar c :: ps) = (characters? ps).map (c :: ·) := by
  unfold Piece.ofChar
  split
  · rename_i h
    simp [characters?, h]
  · split
    · rename_i h
      simp [characters?, h]
    · split
      · simp [characters?]
      · rename_i hcontrol
        have hlt : c.toNat < 0x20 := Nat.lt_of_not_le hcontrol
        have hnumber : c.toNat / 16 % 16 * 16 + c.toNat % 16 = c.toNat := by omega
        have hlow : isLowHalf c.toNat = false := by simp [isLowHalf]; omega
        have hhigh : isHighHalf c.toNat = false := by simp [isHighHalf]; omega
        rw [characters?.eq_def]
        simp [Code.number, Fin.ofNat, hnumber, hlow, hhigh]

/-- The lexeme as the characters of its own, with a half that stands alone where it has none. -/
def Lexeme.chars : Lexeme → List Char
  | .word cs => cs
  | .quoted (some s) => '"' :: (s.toList.map Piece.ofChar).flatMap Piece.chars ++ ['"']
  | .quoted none =>
      '"' :: (Piece.code ⟨⟨13, false⟩, ⟨8, false⟩, ⟨0, false⟩, ⟨0, false⟩⟩).chars ++ ['"']

theorem Lexeme.spelled_chars (x : Lexeme) : x.Spelled x.chars := by
  cases x with
  | word cs => exact .word cs
  | quoted content =>
      cases content with
      | none => exact .quoted [.code ⟨⟨13, false⟩, ⟨8, false⟩, ⟨0, false⟩, ⟨0, false⟩⟩]
      | some s =>
          have hpieces (cs : List Char) : characters? (cs.map Piece.ofChar) = some cs := by
            induction cs with
            | nil => rfl
            | cons c cs ih => rw [List.map_cons, characters?_ofChar, ih, Option.map_some]
          have hspelled := Spelled.quoted (s.toList.map Piece.ofChar)
          rw [hpieces, Option.map_some, String.ofList_toList] at hspelled
          exact hspelled

/-- A document without blanks. -/
def Document.chars (d : Document) : List Char := d.lexemes.flatMap Lexeme.chars

theorem laid_flatMap_chars (xs : List Lexeme) : Laid xs (xs.flatMap Lexeme.chars) := by
  induction xs with
  | nil => exact .nil
  | cons x xs ih => exact .cons allBlank_nil x.spelled_chars ih

theorem Document.written_chars (d : Document) : d.Written (String.ofList d.chars) :=
  ⟨d.chars, [], by simp, laid_flatMap_chars d.lexemes, allBlank_nil⟩

/-! ## How texts of documents begin -/

theorem skipBlanks_append_of_allBlank {blanks : List Char} (h : AllBlank blanks) (bs : Octets) :
    skipBlanks (utf8 blanks ++ bs) = skipBlanks bs := by
  induction blanks with
  | nil => rfl
  | cons c cs ih =>
      obtain ⟨hc, hcs⟩ := List.forall_mem_cons.mp h
      have hoctet : utf8 (c :: cs) = octet c :: utf8 cs ∧ isBlank (octet c) = true := by
        simp only [List.mem_cons, List.not_mem_nil, or_false] at hc
        rcases hc with rfl | rfl | rfl | rfl <;> exact ⟨rfl, by decide⟩
      rw [hoctet.1, List.cons_append, skipBlanks, List.dropWhile_cons, if_pos hoctet.2]
      exact ih hcs

theorem Laid.cons_elim {x : Lexeme} {xs : List Lexeme} {cs : List Char} (h : Laid (x :: xs) cs) :
    ∃ ws cs', x.Spelled ws ∧ Laid xs cs' ∧
      ∀ rest, skipBlanks (utf8 cs ++ rest) = skipBlanks (utf8 ws ++ (utf8 cs' ++ rest)) := by
  cases h with
  | @cons _ _ blanks ws cs' hblanks hx hxs =>
      refine ⟨ws, cs', hx, hxs, fun rest => ?_⟩
      rw [utf8_append, utf8_append, List.append_assoc, skipBlanks_append_of_allBlank hblanks,
        List.append_assoc]

theorem Laid.append_elim {xs ys : List Lexeme} {cs : List Char} (h : Laid (xs ++ ys) cs) :
    ∃ as bs, cs = as ++ bs ∧ Laid xs as ∧ Laid ys bs := by
  induction xs generalizing cs with
  | nil => exact ⟨[], cs, rfl, .nil, h⟩
  | cons x xs ih =>
      cases h with
      | @cons _ _ blanks ws _ hblanks hx hxs =>
          obtain ⟨as, bs, rfl, has, hbs⟩ := ih hxs
          exact ⟨blanks ++ (ws ++ as), bs, by simp, .cons hblanks hx has, hbs⟩

/-- Behind its blanks a text with a mark in front begins with the mark. -/
theorem Laid.mark_elim {c : Char} (hascii : c.toNat < 0x80) (hblank : isBlank (octet c) = false)
    {xs : List Lexeme} {cs : List Char} (h : Laid (.word [c] :: xs) cs) :
    ∃ cs', Laid xs cs' ∧ ∀ rest, skipBlanks (utf8 cs ++ rest) = octet c :: (utf8 cs' ++ rest) := by
  obtain ⟨_, cs', hspelled, hxs, hskip⟩ := h.cons_elim
  cases hspelled
  refine ⟨cs', hxs, fun rest => ?_⟩
  rw [hskip, utf8_cons_of_lt hascii, utf8_nil, List.cons_append, List.nil_append,
    skipBlanks_cons hblank]

theorem Laid.quoted_elim {content : Option String} {xs : List Lexeme} {cs : List Char}
    (h : Laid (.quoted content :: xs) cs) :
    ∃ pieces cs', content = (characters? pieces).map String.ofList ∧ Laid xs cs' ∧
      ∀ rest, skipBlanks (utf8 cs ++ rest) =
        octet '"' :: (utf8 (pieces.flatMap Piece.chars) ++ octet '"' :: (utf8 cs' ++ rest)) := by
  obtain ⟨_, cs', hspelled, hxs, hskip⟩ := h.cons_elim
  cases hspelled with
  | quoted pieces =>
      refine ⟨pieces, cs', rfl, hxs, fun rest => ?_⟩
      rw [hskip, utf8_enclosed (by decide) (by decide), skipBlanks_cons (by decide)]

/-- A numeral begins with a minus sign or a digit. -/
theorem Numeral.exists_chars_eq_cons (n : Numeral) :
    ∃ c cs, n.chars = c :: cs ∧ c.toNat < 0x80 ∧ beginsNumber (octet c) = true := by
  unfold Numeral.chars
  split
  · exact ⟨'-', _, rfl, by decide, by decide⟩
  · obtain ⟨d, ds, hd, hdigits, -⟩ := toDigits_eq_cons n.whole
    rw [hdigits]
    exact ⟨_, _, rfl, toNat_digitChar_lt d hd, beginsNumber_digitChar d hd⟩

theorem isBlank_of_beginsNumber {b : UInt8} (h : beginsNumber b = true) : isBlank b = false := by
  cases hblank : isBlank b with
  | false => rfl
  | true =>
      simp only [isBlank, Bool.or_eq_true, decide_eq_true_eq] at hblank
      rcases hblank with ((rfl | rfl) | rfl) | rfl <;> simp [beginsNumber, isDigit] at h

/-- What the text of a document is behind its blanks, where `rest` follows it. -/
inductive Begun (rest : Octets) : Document → Octets → Prop where
  /-- the letters of a keyword -/
  | null : Begun rest .null (octet 'n' :: octet 'u' :: octet 'l' :: octet 'l' :: rest)
  /-- the letters of a keyword -/
  | isTrue :
      Begun rest (.boolean true) (octet 't' :: octet 'r' :: octet 'u' :: octet 'e' :: rest)
  /-- the letters of a keyword -/
  | isFalse :
      Begun rest (.boolean false)
        (octet 'f' :: octet 'a' :: octet 'l' :: octet 's' :: octet 'e' :: rest)
  /-- a number -/
  | number (n : Numeral) : Begun rest (.number n) (utf8 n.chars ++ rest)
  /-- a text between quotes -/
  | text (pieces : List Piece) :
      Begun rest (.text ((characters? pieces).map String.ofList))
        (octet '"' :: (utf8 (pieces.flatMap Piece.chars) ++ octet '"' :: rest))
  /-- elements between brackets -/
  | list {items : List Document} {cs : List Char}
      (h : Laid (itemLexemes true items ++ [.word [']']]) cs) :
      Begun rest (.list items) (octet '[' :: (utf8 cs ++ rest))
  /-- entries between brackets -/
  | object {entries : List (Option String × Document)} {cs : List Char}
      (h : Laid (entryLexemes true entries ++ [.word ['\x7d']]) cs) :
      Begun rest (.object entries) (octet '\x7b' :: (utf8 cs ++ rest))

theorem Laid.eq_nil {cs : List Char} (h : Laid [] cs) : cs = [] := by
  cases h
  rfl

/-- Behind its blanks the text of a single word is the word. -/
theorem Laid.word_elim {ws cs : List Char} (h : Laid [.word ws] cs) (rest : Octets) :
    skipBlanks (utf8 cs ++ rest) = skipBlanks (utf8 ws ++ rest) := by
  obtain ⟨_, cs', hspelled, hnil, hskip⟩ := h.cons_elim
  cases hspelled
  rw [hskip, hnil.eq_nil, utf8_nil, List.nil_append]

/-- A text of a document begins as the document does. -/
theorem Laid.begun {d : Document} {cs : List Char} (h : Laid d.lexemes cs) (rest : Octets) :
    Begun rest d (skipBlanks (utf8 cs ++ rest)) := by
  cases d with
  | null =>
      rw [Document.lexemes] at h
      rw [h.word_elim]
      exact .null
  | boolean b =>
      cases b with
      | true =>
          rw [Document.lexemes] at h
          rw [h.word_elim]
          exact .isTrue
      | false =>
          rw [Document.lexemes] at h
          rw [h.word_elim]
          exact .isFalse
  | number n =>
      obtain ⟨c, ds, hchars, hascii, hbegins⟩ := n.exists_chars_eq_cons
      have hoctets : utf8 n.chars ++ rest = octet c :: (utf8 ds ++ rest) := by
        rw [hchars, utf8_cons_of_lt hascii, List.cons_append]
      rw [Document.lexemes] at h
      rw [h.word_elim, hoctets, skipBlanks_cons (isBlank_of_beginsNumber hbegins), ← hoctets]
      exact .number n
  | text content =>
      obtain ⟨pieces, cs', rfl, hnil, hskip⟩ := h.quoted_elim
      rw [hskip, hnil.eq_nil]
      exact .text pieces
  | list items =>
      rw [Document.lexemes] at h
      obtain ⟨cs', h, hskip⟩ := h.mark_elim (by decide) (by decide)
      rw [hskip]
      exact .list h
  | object entries =>
      rw [Document.lexemes] at h
      obtain ⟨cs', h, hskip⟩ := h.mark_elim (by decide) (by decide)
      rw [hskip]
      exact .object h

/-- A text of a document begins with no blank and no closing bracket. -/
theorem Begun.exists_eq_cons {rest : Octets} {d : Document} {bs : Octets} (h : Begun rest d bs) :
    ∃ b bs', bs = b :: bs' ∧ isBlank b = false ∧ b ≠ octet ']' := by
  cases h with
  | number n =>
      obtain ⟨c, cs, hchars, hascii, hbegins⟩ := n.exists_chars_eq_cons
      refine ⟨octet c, utf8 cs ++ rest, ?_, isBlank_of_beginsNumber hbegins, ?_⟩
      · rw [hchars, utf8_cons_of_lt hascii, List.cons_append]
      · intro heq
        rw [heq] at hbegins
        contradiction
  | null => exact ⟨_, _, rfl, by decide, by decide⟩
  | isTrue => exact ⟨_, _, rfl, by decide, by decide⟩
  | isFalse => exact ⟨_, _, rfl, by decide, by decide⟩
  | text => exact ⟨_, _, rfl, by decide, by decide⟩
  | list => exact ⟨_, _, rfl, by decide, by decide⟩
  | object => exact ⟨_, _, rfl, by decide, by decide⟩

theorem Begun.skipBlanks_eq {rest : Octets} {d : Document} {bs : Octets} (h : Begun rest d bs) :
    skipBlanks bs = bs := by
  obtain ⟨b, bs, rfl, hblank, -⟩ := h.exists_eq_cons
  exact skipBlanks_cons hblank bs

/-- No number goes on with a blank. -/
theorem startsWith_blank {c : Char} (hc : c ∈ [' ', '\t', '\n', '\r']) (cs : List Char)
    (rest : Octets) : startsWith continuesNumber (utf8 (c :: cs) ++ rest) = false := by
  simp only [List.mem_cons, List.not_mem_nil, or_false] at hc
  rcases hc with rfl | rfl | rfl | rfl <;> rfl

theorem startsWith_of_allBlank {blanks : List Char} (h : AllBlank blanks) :
    startsWith continuesNumber (utf8 blanks) = false := by
  cases blanks with
  | nil => rfl
  | cons c cs =>
      have hblank := startsWith_blank (h c List.mem_cons_self) cs []
      rwa [List.append_nil] at hblank

theorem octets_eq_utf8 (s : String) : octets s = utf8 s.toList := by
  rw [← octets_ofList, String.ofList_toList]

/-- A text that holds a document begins with it, and only blanks follow. -/
theorem Document.Written.exists_begun {d : Document} {s : String} (h : d.Written s) :
    ∃ trail, Begun (utf8 trail) d (skipBlanks (octets s)) ∧ AllBlank trail := by
  obtain ⟨body, trail, hs, hbody, htrail⟩ := h
  refine ⟨trail, ?_, htrail⟩
  rw [octets_eq_utf8, hs, utf8_append]
  exact hbody.begun (utf8 trail)

/-! ## How the texts of elements and entries begin -/

/-- No number goes on with blanks and a mark. -/
theorem Laid.startsWith_mark {c : Char} (hascii : c.toNat < 0x80)
    (hmark : continuesNumber (octet c) = false) {xs : List Lexeme} {cs : List Char}
    (h : Laid (.word [c] :: xs) cs) (rest : Octets) :
    startsWith continuesNumber (utf8 cs ++ rest) = false := by
  cases h with
  | @cons _ _ blanks _ cs' hblanks hx hxs =>
      cases hx
      cases blanks with
      | nil =>
          rw [List.nil_append, List.singleton_append, utf8_cons_of_lt hascii]
          exact hmark
      | cons b blanks => exact startsWith_blank (hblanks b List.mem_cons_self) _ rest

/-- What the text of elements and their closing bracket is behind its blanks. -/
inductive ItemsBegun (rest : Octets) : Bool → List Document → Octets → Prop where
  /-- the closing bracket -/
  | nil (isFirst : Bool) : ItemsBegun rest isFirst [] (octet ']' :: rest)
  /-- the first element -/
  | first {d : Document} {ds : List Document} {item : Octets} {bs : List Char}
      (hd : Begun (utf8 bs ++ rest) d item)
      (hds : Laid (itemLexemes false ds ++ [.word [']']]) bs) :
      ItemsBegun rest true (d :: ds) item
  /-- a comma and an element -/
  | later {d : Document} {ds : List Document} {later : Octets} {bs : List Char}
      (hd : Begun (utf8 bs ++ rest) d (skipBlanks later))
      (hds : Laid (itemLexemes false ds ++ [.word [']']]) bs) :
      ItemsBegun rest false (d :: ds) (octet ',' :: later)

theorem Laid.itemsBegun {isFirst : Bool} {ds : List Document} {cs : List Char}
    (h : Laid (itemLexemes isFirst ds ++ [.word [']']]) cs) (rest : Octets) :
    ItemsBegun rest isFirst ds (skipBlanks (utf8 cs ++ rest)) := by
  cases ds with
  | nil =>
      rw [itemLexemes, List.nil_append] at h
      obtain ⟨cs', hnil, hskip⟩ := h.mark_elim (by decide) (by decide)
      rw [hskip, hnil.eq_nil]
      exact .nil isFirst
  | cons d ds =>
      rw [itemLexemes, List.append_assoc, List.append_assoc] at h
      cases isFirst with
      | true =>
          obtain ⟨as, bs, rfl, hd, hds⟩ := Laid.append_elim (show Laid (d.lexemes ++ _) _ from h)
          rw [utf8_append, List.append_assoc]
          exact .first (hd.begun _) hds
      | false =>
          obtain ⟨cs', h, hskip⟩ := Laid.mark_elim (by decide) (by decide) h
          obtain ⟨as, bs, rfl, hd, hds⟩ := Laid.append_elim (show Laid (d.lexemes ++ _) _ from h)
          rw [hskip, utf8_append, List.append_assoc]
          exact .later (hd.begun _) hds

theorem startsWith_items {ds : List Document} {cs : List Char}
    (h : Laid (itemLexemes false ds ++ [.word [']']]) cs) (rest : Octets) :
    startsWith continuesNumber (utf8 cs ++ rest) = false := by
  cases ds with
  | nil => exact Laid.startsWith_mark (by decide) (by decide) h rest
  | cons d ds => exact Laid.startsWith_mark (by decide) (by decide) h rest

/-- A key between quotes, and a document behind its colon. -/
inductive EntryBegun (rest : Octets) : Option String → Document → Octets → Prop where
  /-- the key, blanks, the colon and the document -/
  | mk {pieces : List Piece} {d : Document} {colon value : Octets}
      (hcolon : skipBlanks colon = octet ':' :: value) (hd : Begun rest d (skipBlanks value)) :
      EntryBegun rest ((characters? pieces).map String.ofList) d
        (octet '"' :: (utf8 (pieces.flatMap Piece.chars) ++ octet '"' :: colon))

/-- What the text of entries and their closing bracket is behind its blanks. -/
inductive EntriesBegun (rest : Octets) : Bool → List (Option String × Document) → Octets → Prop where
  /-- the closing bracket -/
  | nil (isFirst : Bool) : EntriesBegun rest isFirst [] (octet '\x7d' :: rest)
  /-- the first entry -/
  | first {key : Option String} {d : Document} {es : List (Option String × Document)}
      {entry : Octets} {bs : List Char} (he : EntryBegun (utf8 bs ++ rest) key d entry)
      (hes : Laid (entryLexemes false es ++ [.word ['\x7d']]) bs) :
      EntriesBegun rest true ((key, d) :: es) entry
  /-- a comma and an entry -/
  | later {key : Option String} {d : Document} {es : List (Option String × Document)}
      {later : Octets} {bs : List Char}
      (he : EntryBegun (utf8 bs ++ rest) key d (skipBlanks later))
      (hes : Laid (entryLexemes false es ++ [.word ['\x7d']]) bs) :
      EntriesBegun rest false ((key, d) :: es) (octet ',' :: later)

theorem Laid.entryBegun {key : Option String} {d : Document} {xs : List Lexeme} {cs : List Char}
    (h : Laid (.quoted key :: .word [':'] :: (d.lexemes ++ xs)) cs) (rest : Octets) :
    ∃ bs, EntryBegun (utf8 bs ++ rest) key d (skipBlanks (utf8 cs ++ rest)) ∧ Laid xs bs := by
  obtain ⟨pieces, colon, rfl, h, hskip⟩ := h.quoted_elim
  obtain ⟨cs', h, hcolon⟩ := h.mark_elim (by decide) (by decide)
  obtain ⟨as, bs, rfl, hd, hxs⟩ := h.append_elim
  refine ⟨bs, ?_, hxs⟩
  rw [hskip]
  refine .mk (hcolon rest) ?_
  rw [utf8_append, List.append_assoc]
  exact hd.begun _

theorem Laid.entriesBegun {isFirst : Bool} {es : List (Option String × Document)} {cs : List Char}
    (h : Laid (entryLexemes isFirst es ++ [.word ['\x7d']]) cs) (rest : Octets) :
    EntriesBegun rest isFirst es (skipBlanks (utf8 cs ++ rest)) := by
  cases es with
  | nil =>
      rw [entryLexemes, List.nil_append] at h
      obtain ⟨cs', hnil, hskip⟩ := h.mark_elim (by decide) (by decide)
      rw [hskip, hnil.eq_nil]
      exact .nil isFirst
  | cons e es =>
      obtain ⟨key, d⟩ := e
      rw [entryLexemes, List.append_assoc, List.cons_append, List.cons_append,
        List.append_assoc] at h
      cases isFirst with
      | true =>
          obtain ⟨bs, he, hes⟩ := Laid.entryBegun h rest
          exact .first he hes
      | false =>
          obtain ⟨cs', h, hskip⟩ := Laid.mark_elim (by decide) (by decide) h
          obtain ⟨bs, he, hes⟩ := h.entryBegun rest
          rw [hskip]
          exact .later he hes

theorem startsWith_entries {es : List (Option String × Document)} {cs : List Char}
    (h : Laid (entryLexemes false es ++ [.word ['\x7d']]) cs) (rest : Octets) :
    startsWith continuesNumber (utf8 cs ++ rest) = false := by
  cases es with
  | nil => exact Laid.startsWith_mark (by decide) (by decide) h rest
  | cons e es => exact Laid.startsWith_mark (by decide) (by decide) h rest

end VmHandler.Json
