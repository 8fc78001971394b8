import VmHandler.Proofs.Skipping

/-!
# Texts of documents are unambiguous

A text holds one document at most. Where a document begins, its first octet tells what kind it is of,
and the machine that skips values tells where it ends; so two documents that begin at one place are
compared part by part, each part with the octets it takes up.
-/

set_option autoImplicit false

namespace VmHandler.Json

/-! ## Numerals -/

/-- Digits are told from what follows them if no digit does. -/
theorem digits_append_inj {cs cs' rest rest' : List Char} (hcs : ∀ c ∈ cs, c.isDigit = true)
    (hcs' : ∀ c ∈ cs', c.isDigit = true) (hrest : rest.takeWhile Char.isDigit = [])
    (hrest' : rest'.takeWhile Char.isDigit = []) (h : cs ++ rest = cs' ++ rest') :
    cs = cs' ∧ rest = rest' := by
  have hdigits := congrArg (List.takeWhile Char.isDigit) h
  rw [List.takeWhile_append_of_pos hcs, List.takeWhile_append_of_pos hcs', hrest, hrest',
    List.append_nil, List.append_nil] at hdigits
  subst hdigits
  exact ⟨rfl, List.append_cancel_left h⟩

theorem digitChars_injective : Function.Injective digitChars := by
  have hdigit : ∀ d d' : Fin 10, d.val.digitChar = d'.val.digitChar → d = d' := by decide
  exact fun ds ds' h => (List.map_inj_right hdigit).mp h

theorem toDigits_injective : Function.Injective (Nat.toDigits 10) := by
  intro n n' h
  have hvalue := congrArg (Nat.ofDigitChars 10 · 0) h
  simpa only [Nat.ofDigitChars_ten_toDigits] using hvalue

/-- The sign that stands in front, if one does. -/
def signAt : List Char → Option Bool
  | '+' :: _ => some true
  | '-' :: _ => some false
  | _ => none

theorem Exponent.signAt_tail_chars (e : Exponent) : signAt e.chars.tail = e.sign := by
  obtain ⟨isUpper, sign, first, more⟩ := e
  rcases sign with _ | _ | _
  · obtain ⟨d, hd⟩ := first
    interval_cases d <;> rfl
  · rfl
  · rfl

theorem Exponent.chars_injective : Function.Injective Exponent.chars := by
  intro e e' h
  have hsign : e.sign = e'.sign := by rw [← e.signAt_tail_chars, ← e'.signAt_tail_chars, h]
  have hcase : ∀ u u' : Bool, (if u then 'E' else 'e') = (if u' then 'E' else 'e') → u = u' := by
    decide
  obtain ⟨isUpper, sign, first, more⟩ := e
  obtain ⟨isUpper', sign', first', more'⟩ := e'
  obtain ⟨hmark, htail⟩ := List.cons.inj h
  cases hsign
  cases hcase _ _ hmark
  cases digitChars_injective (List.append_cancel_left htail)
  rfl

/-- An exponent is seen at its mark. -/
theorem exponent_injective :
    Function.Injective fun e : Option Exponent => (e.map Exponent.chars).getD [] := by
  intro e e' h
  cases e with
  | none =>
      cases e' with
      | none => rfl
      | some e' => contradiction
  | some e =>
      cases e' with
      | none => contradiction
      | some e' => rw [Exponent.chars_injective h]

/-- Behind an integer and behind a fraction there is no further digit. -/
theorem takeWhile_isDigit_exponent (e : Option Exponent) :
    ((e.map Exponent.chars).getD []).takeWhile Char.isDigit = [] := by
  cases e with
  | none => rfl
  | some e =>
      obtain ⟨isUpper, sign, first, more⟩ := e
      cases isUpper <;> rfl

theorem takeWhile_isDigit_fraction (ds : List (Fin 10)) (e : Option Exponent) :
    (fractionChars ds ++ (e.map Exponent.chars).getD []).takeWhile Char.isDigit = [] := by
  cases ds with
  | nil => exact takeWhile_isDigit_exponent e
  | cons d ds => rfl

/-- A fraction is seen at its point. -/
theorem fraction_append_inj {ds ds' : List (Fin 10)} {e e' : Option Exponent}
    (h : fractionChars ds ++ (e.map Exponent.chars).getD [] =
      fractionChars ds' ++ (e'.map Exponent.chars).getD []) : ds = ds' ∧ e = e' := by
  have hpoint (e : Option Exponent) (cs : List Char) : (e.map Exponent.chars).getD [] ≠ '.' :: cs := by
    have hmark : ∀ u : Bool, (if u then 'E' else 'e') ≠ '.' := by decide
    cases e with
    | none => exact nofun
    | some e => exact fun hcons => hmark e.isUpper (List.cons.inj hcons).1
  cases ds with
  | nil =>
      cases ds' with
      | nil => exact ⟨rfl, exponent_injective h⟩
      | cons d' ds' => exact absurd h (hpoint e _)
  | cons d ds =>
      cases ds' with
      | nil => exact absurd h.symm (hpoint e' _)
      | cons d' ds' =>
          obtain ⟨hdigits, hexponent⟩ := digits_append_inj Skip.isDigit_of_mem_digitChars
            Skip.isDigit_of_mem_digitChars (takeWhile_isDigit_exponent e)
            (takeWhile_isDigit_exponent e') (List.cons.inj h).2
          exact ⟨digitChars_injective hdigits, exponent_injective hexponent⟩

/-- No digits begin with a minus sign. -/
theorem toDigits_append_ne (n : Nat) (cs cs' : List Char) :
    Nat.toDigits 10 n ++ cs ≠ '-' :: cs' := by
  intro hcons
  obtain ⟨d, ds, hd, htoDigits, -⟩ := toDigits_eq_cons n
  rw [htoDigits] at hcons
  have hhead := (List.cons.inj hcons).1
  interval_cases d <;> contradiction

/-- A numeral is known by its characters. -/
theorem Numeral.chars_injective : Function.Injective Numeral.chars := by
  intro n n' h
  have hdigits (n : Nat) : ∀ c ∈ Nat.toDigits 10 n, c.isDigit = true := fun c hc =>
    Nat.isDigit_of_mem_toDigits (by decide) (by decide) hc
  obtain ⟨isNegative, whole, fraction, exponent⟩ := n
  obtain ⟨isNegative', whole', fraction', exponent'⟩ := n'
  have hsign : isNegative = isNegative' := by
    cases isNegative <;> cases isNegative'
    · rfl
    · exact absurd h (toDigits_append_ne _ _ _)
    · exact absurd h.symm (toDigits_append_ne _ _ _)
    · rfl
  cases hsign
  obtain ⟨hwhole, htail⟩ := digits_append_inj (hdigits whole) (hdigits whole')
    (takeWhile_isDigit_fraction fraction exponent) (takeWhile_isDigit_fraction fraction' exponent')
    (List.append_cancel_left h)
  obtain ⟨rfl, rfl⟩ := fraction_append_inj htail
  cases toDigits_injective hwhole
  rfl

/-! ## Quoted texts -/

theorem utf8_injective : Function.Injective utf8 := by
  intro cs cs' h
  have hdecoded := congrArg decode? h
  rw [decode?_utf8, decode?_utf8] at hdecoded
  exact String.ofList_injective (Option.some.inj hdecoded)

/-- Pieces that stand between the same octets stand for the same characters, or both for none. -/
theorem pieces_append_inj {ps ps' : List Piece} {rest rest' : Octets}
    (h : utf8 (ps.flatMap Piece.chars) ++ octet '"' :: rest =
      utf8 (ps'.flatMap Piece.chars) ++ octet '"' :: rest') :
    (characters? ps).map String.ofList = (characters? ps').map String.ofList ∧ rest = rest' := by
  -- the reader may refuse the text, but the machine that skips it goes on behind the closing quote
  have hskip (ps : List Piece) (rest : Octets) :
      Skip.run ⟨.text false, []⟩ (utf8 (ps.flatMap Piece.chars) ++ octet '"' :: rest) =
        .ok rest := by
    have hclosing : Skip.State.step (octet '"') ⟨.text false, []⟩ = Skip.complete [] := rfl
    rw [Skip.run_pieces, Skip.run_cons_of_complete hclosing]
    rfl
  have hrest : rest = rest' := by
    rw [← Except.ok.injEq (ε := Fault), ← hskip ps rest, ← hskip ps' rest', h]
  subst hrest
  have hread := congrArg (fun bs => (readQuoted bs).toOption) h
  simp only [readQuoted_pieces] at hread
  have hpair : Function.Injective fun s : String => (s, rest) := fun _ _ hs => (Prod.mk.inj hs).1
  exact ⟨Option.map_injective hpair hread, rfl⟩

/-! ## Where documents begin and end -/

/-- What the first octet tells of a document. -/
inductive DocumentKind where
  | null
  | boolean (b : Bool)
  | number
  | text
  | list
  | object

/-- The kind of a document. -/
def Document.kind : Document → DocumentKind
  | .null => .null
  | .boolean b => .boolean b
  | .number _ => .number
  | .text _ => .text
  | .list _ => .list
  | .object _ => .object

/-- The kind of the documents that begin with an octet, if there are any. -/
def DocumentKind.ofOctet (b : UInt8) : DocumentKind :=
  if b = octet 'n' then .null
  else if b = octet 't' then .boolean true
  else if b = octet 'f' then .boolean false
  else if b = octet '"' then .text
  else if b = octet '[' then .list
  else if b = octet '\x7b' then .object
  else .number

theorem DocumentKind.ofOctet_of_beginsNumber {b : UInt8} (h : beginsNumber b = true) :
    ofOctet b = .number := by
  have hne {b' : UInt8} (h' : beginsNumber b' = false) : b ≠ b' := by
    rintro rfl
    exact Bool.false_ne_true (h'.symm.trans h)
  rw [ofOctet, if_neg (hne rfl), if_neg (hne rfl), if_neg (hne rfl), if_neg (hne rfl),
    if_neg (hne rfl), if_neg (hne rfl)]

theorem Begun.kind_eq {rest : Octets} {d : Document} {bs : Octets} (h : Begun rest d bs) :
    bs.head?.map DocumentKind.ofOctet = some d.kind := by
  cases h with
  | number n =>
      obtain ⟨c, cs, hchars, hascii, hbegins⟩ := n.exists_chars_eq_cons
      rw [hchars, utf8_cons_of_lt hascii, List.cons_append, List.head?_cons, Option.map_some,
        DocumentKind.ofOctet_of_beginsNumber hbegins]
      rfl
  | null => rfl
  | isTrue => rfl
  | isFalse => rfl
  | text => rfl
  | list => rfl
  | object => rfl

/-- What follows a document is known by the octets from its beginning on. -/
theorem Begun.rest_unique {rest rest' : Octets} {d d' : Document} {bs : Octets}
    (h : Begun rest d bs) (h' : Begun rest' d' bs)
    (hrest : startsWith continuesNumber rest = false)
    (hrest' : startsWith continuesNumber rest' = false) : rest = rest' := by
  have hskip := Skip.run_document d h hrest []
  rw [Skip.run_document d' h' hrest' []] at hskip
  exact (Except.ok.inj hskip).symm

theorem ItemsBegun.isEmpty_eq {rest : Octets} {isFirst : Bool} {ds : List Document} {bs : Octets}
    (h : ItemsBegun rest isFirst ds bs) :
    ds.isEmpty = startsWith (fun b => b = octet ']') bs := by
  cases h with
  | nil => rfl
  | first hd =>
      obtain ⟨b, bs, rfl, -, hclosing⟩ := hd.exists_eq_cons
      exact (decide_eq_false hclosing).symm
  | later => rfl

theorem ItemsBegun.cons_elim {rest : Octets} {isFirst : Bool} {d : Document} {ds : List Document}
    {bs : Octets} (h : ItemsBegun rest isFirst (d :: ds) bs) :
    ∃ cs, Begun (utf8 cs ++ rest) d (skipBlanks (if isFirst then bs else bs.tail)) ∧
      Laid (itemLexemes false ds ++ [.word [']']]) cs := by
  cases h with
  | @first _ _ _ cs hd hds =>
      refine ⟨cs, ?_, hds⟩
      rw [if_pos rfl, hd.skipBlanks_eq]
      exact hd
  | @later _ _ _ cs hd hds => exact ⟨cs, hd, hds⟩

theorem EntriesBegun.isEmpty_eq {rest : Octets} {isFirst : Bool}
    {es : List (Option String × Document)} {bs : Octets} (h : EntriesBegun rest isFirst es bs) :
    es.isEmpty = startsWith (fun b => b = octet '\x7d') bs := by
  cases h with
  | nil => rfl
  | first he =>
      cases he
      rfl
  | later => rfl

theorem EntriesBegun.cons_elim {rest : Octets} {isFirst : Bool} {key : Option String}
    {d : Document} {es : List (Option String × Document)} {bs : Octets}
    (h : EntriesBegun rest isFirst ((key, d) :: es) bs) :
    ∃ cs, EntryBegun (utf8 cs ++ rest) key d (skipBlanks (if isFirst then bs else bs.tail)) ∧
      Laid (entryLexemes false es ++ [.word ['\x7d']]) cs := by
  cases h with
  | @first _ _ _ _ cs he hes =>
      refine ⟨cs, ?_, hes⟩
      cases he with
      | mk hcolon hd => exact .mk hcolon hd
  | @later _ _ _ _ cs he hes => exact ⟨cs, he, hes⟩

/-- Entries that begin at one place have the same key, and their values begin at one place. -/
theorem EntryBegun.key_unique {rest rest' : Octets} {key key' : Option String} {d d' : Document}
    {bs : Octets} (h : EntryBegun rest key d bs) (h' : EntryBegun rest' key' d' bs) :
    key = key' ∧ ∃ value, Begun rest d value ∧ Begun rest' d' value := by
  generalize hbs : bs = bs' at h'
  cases h with
  | @mk pieces _ colon value hcolon hd =>
      cases h' with
      | @mk pieces' _ colon' value' hcolon' hd' =>
          obtain ⟨hkey, rfl⟩ := pieces_append_inj (List.cons.inj hbs).2
          rw [hcolon] at hcolon'
          cases (List.cons.inj hcolon').2
          exact ⟨hkey, _, hd, hd'⟩

/-! ## One document -/

mutual

theorem Begun.unique (d d' : Document) {rest bs : Octets} (h : Begun rest d bs)
    (h' : Begun rest d' bs) : d = d' := by
  have hkind := Option.some.inj (h.kind_eq.symm.trans h'.kind_eq)
  generalize hbs : bs = bs' at h'
  cases d with
  | null =>
      cases d' with
      | null => rfl
      | _ => contradiction
  | boolean b =>
      cases d' with
      | boolean b' => rw [DocumentKind.boolean.inj hkind]
      | _ => contradiction
  | number n =>
      cases d' with
      | number n' =>
          cases h
          cases h'
          have hchars := Numeral.chars_injective (utf8_injective (List.append_cancel_right hbs))
          rw [hchars]
      | _ => contradiction
  | text content =>
      cases d' with
      | text content' =>
          cases h
          cases h'
          have hpieces := pieces_append_inj (List.cons.inj hbs).2
          rw [hpieces.1]
      | _ => contradiction
  | list items =>
      cases d' with
      | list items' =>
          cases h with
          | list hitems =>
              cases h' with
              | list hitems' =>
                  rw [items_unique true items items' hitems hitems' (List.cons.inj hbs).2]
      | _ => contradiction
  | object entries =>
      cases d' with
      | object entries' =>
          cases h with
          | object hentries =>
              cases h' with
              | object hentries' =>
                  rw [entries_unique true entries entries' hentries hentries'
                    (List.cons.inj hbs).2]
      | _ => contradiction

theorem items_unique (isFirst : Bool) (ds ds' : List Document) {cs cs' : List Char} {rest : Octets}
    (h : Laid (itemLexemes isFirst ds ++ [.word [']']]) cs)
    (h' : Laid (itemLexemes isFirst ds' ++ [.word [']']]) cs')
    (hsame : utf8 cs ++ rest = utf8 cs' ++ rest) : ds = ds' := by
  have hbegun := h.itemsBegun rest
  have hbegun' := h'.itemsBegun rest
  rw [hsame] at hbegun
  have hempty := hbegun.isEmpty_eq.trans hbegun'.isEmpty_eq.symm
  cases ds with
  | nil => exact (List.isEmpty_iff.mp hempty.symm).symm
  | cons d ds =>
      cases ds' with
      | nil => contradiction
      | cons d' ds' =>
          obtain ⟨later, hd, hds⟩ := hbegun.cons_elim
          obtain ⟨later', hd', hds'⟩ := hbegun'.cons_elim
          have hrest := hd.rest_unique hd' (startsWith_items hds rest) (startsWith_items hds' rest)
          rw [hrest] at hd
          rw [Begun.unique d d' hd hd', items_unique false ds ds' hds hds' hrest]

theorem entries_unique (isFirst : Bool) (es es' : List (Option String × Document))
    {cs cs' : List Char} {rest : Octets}
    (h : Laid (entryLexemes isFirst es ++ [.word ['\x7d']]) cs)
    (h' : Laid (entryLexemes isFirst es' ++ [.word ['\x7d']]) cs')
    (hsame : utf8 cs ++ rest = utf8 cs' ++ rest) : es = es' := by
  have hbegun := h.entriesBegun rest
  have hbegun' := h'.entriesBegun rest
  rw [hsame] at hbegun
  have hempty := hbegun.isEmpty_eq.trans hbegun'.isEmpty_eq.symm
  cases es with
  | nil => exact (List.isEmpty_iff.mp hempty.symm).symm
  | cons e es =>
      obtain ⟨key, d⟩ := e
      cases es' with
      | nil => contradiction
      | cons e' es' =>
          obtain ⟨key', d'⟩ := e'
          obtain ⟨later, he, hes⟩ := hbegun.cons_elim
          obtain ⟨later', he', hes'⟩ := hbegun'.cons_elim
          obtain ⟨hkey, value, hd, hd'⟩ := he.key_unique he'
          have hrest := hd.rest_unique hd' (startsWith_entries hes rest)
            (startsWith_entries hes' rest)
          rw [hrest] at hd
          rw [hkey, Begun.unique d d' hd hd', entries_unique false es es' hes hes' hrest]

end

/-- A text holds one document at most. -/
theorem Document.Written.unique {d d' : Document} {s : String} (h : d.Written s)
    (h' : d'.Written s) : d = d' := by
  obtain ⟨trail, hbegun, htrail⟩ := h.exists_begun
  obtain ⟨trail', hbegun', htrail'⟩ := h'.exists_begun
  have hrest := hbegun.rest_unique hbegun' (startsWith_of_allBlank htrail)
    (startsWith_of_allBlank htrail')
  rw [hrest] at hbegun
  exact Begun.unique d d' hbegun hbegun'

/-- A text holds a document, and no other one. -/
def Document.HeldBy (d : Document) (s : String) : Prop := ∀ d', d'.Written s ↔ d' = d

theorem Document.Written.heldBy {d : Document} {s : String} (h : d.Written s) : d.HeldBy s :=
  fun _ => ⟨fun h' => h'.unique h, fun h' => h' ▸ h⟩

end VmHandler.Json
