import VmHandler.Proofs.Meaning

/-!
# What is found in records

The entries of an object are taken one after the other: one whose key names a field is read into the
parts, unless the field has been read before, and every other one leaves the parts as they are,
whatever its value. So entries may change their places if fields are set apart from each other.
-/

set_option autoImplicit false

namespace VmHandler.Json

variable {δ α : Type}

/-! ## Entries -/

/-- The parts after the value of a field, if there are parts before it and the field is not among
them. -/
def take (field : FieldReader δ) (parts : Option δ) (d : Document) : Option δ :=
  parts.bind fun p => if field.present p then none else found (field.read p) d

/-- The parts after an entry, if there are parts before it and it may be read into them. -/
def enter (fields : List (FieldReader δ)) (parts : Option δ) (e : Option String × Document) :
    Option δ :=
  match e.1 with
  | none => none
  | some key =>
      match fields.find? (·.key = key) with
      | some field => take field parts e.2
      | none => parts

/-- The parts that are found in values of fields, one after the other. -/
def fill : List (FieldReader δ) → δ → List Document → Option δ
  | _, parts, [] => some parts
  | [], _, _ :: _ => none
  | field :: fields, parts, d :: ds =>
      match found (field.read parts) d with
      | some parts => fill fields parts ds
      | none => none

/-- The record that is found in a document. -/
def Document.record? (schema : Schema δ α) (fields : List (FieldReader δ)) :
    Document → Option α
  | .object es =>
      (es.foldl (enter fields) (some schema.blank)).bind fun p => (schema.finish p).toOption
  | .list ds => (fill fields schema.blank ds).bind fun p => (schema.finish p).toOption
  | _ => none

theorem enter_none (fields : List (FieldReader δ)) (e : Option String × Document) :
    enter fields none e = none := by
  unfold enter
  split
  · rfl
  · split <;> rfl

theorem foldl_enter_none (fields : List (FieldReader δ)) (es : List (Option String × Document)) :
    es.foldl (enter fields) none = none := by
  induction es with
  | nil => rfl
  | cons e es ih => rw [List.foldl_cons, enter_none, ih]

/-! ## Reading entries -/

/-- Behind the last entry the closing bracket is found. -/
theorem nextKey_nil {isFirst : Bool} {rest bs : Octets}
    (h : EntriesBegun rest isFirst [] (skipBlanks bs)) :
    nextKey isFirst bs = .ok (.closed rest) := by
  rw [nextKey]
  generalize skipBlanks bs = text at h
  cases h
  rfl

theorem EntryBegun.length_lt {key : Option String} {d : Document} {rest bs : Octets}
    (h : EntryBegun rest key d bs) : rest.length < bs.length := by
  cases h with
  | @mk pieces _ colon value hcolon hd =>
      have hcolonLength := length_skipBlanks_le colon
      have hvalueLength := length_skipBlanks_le value
      have hlt := hd.length_lt
      rw [hcolon, List.length_cons] at hcolonLength
      simp only [List.length_cons, List.length_append]
      omega

/-- Behind a comma, or first of all, the opening quote of a key is found. -/
theorem nextKey_cons {isFirst : Bool} {key : Option String} {d : Document}
    {es : List (Option String × Document)} {rest bs : Octets}
    (h : EntriesBegun rest isFirst ((key, d) :: es) (skipBlanks bs)) :
    ∃ tail cs, nextKey isFirst bs = .ok (.entry tail) ∧
      EntryBegun (utf8 cs ++ rest) key d (octet '"' :: tail) ∧
      Laid (entryLexemes false es ++ [.word ['\x7d']]) cs ∧
      (utf8 cs ++ rest).length < bs.length := by
  have hlength := length_skipBlanks_le bs
  rw [nextKey]
  generalize skipBlanks bs = text at h hlength
  cases h with
  | @first _ _ _ _ cs he hes =>
      have hlt := he.length_lt
      cases he with
      | mk hcolon hd => exact ⟨_, cs, rfl, .mk hcolon hd, hes, by omega⟩
  | @later _ _ _ later cs he hes =>
      have hlt := he.length_lt
      have hlater := length_skipBlanks_le later
      rw [List.length_cons] at hlength
      generalize hentry : skipBlanks later = entry at he hlt hlater
      cases he with
      | mk hcolon hd =>
          refine ⟨_, cs, ?_, .mk hcolon hd, hes, by omega⟩
          simp only [hentry]
          rfl

section Entries

variable {fields : List (FieldReader δ)} {parts : δ}

/-- An entry is read as it is entered, or skipped. -/
theorem readEntry_of_begun (hfields : ∀ f ∈ fields, ∀ parts, Steady (f.read parts)) {d : Document}
    {rest colon value : Octets} (key : String) (hcolon : skipBlanks colon = octet ':' :: value)
    (hd : Begun rest d (skipBlanks value)) (hrest : startsWith continuesNumber rest = false) :
    (readEntry fields key parts colon).toOption =
      (enter fields (some parts) (some key, d)).map fun parts => (parts, rest) := by
  have hafter : afterColon colon = .ok value := by
    rw [afterColon, hcolon]
    rfl
  unfold readEntry enter take
  cases hfind : fields.find? (·.key = key) with
  | none =>
      simp only [hafter, skipValue_of_begun hd hrest, hfind]
      rfl
  | some field =>
      by_cases hpresent : field.present parts = true
      · simp only [hpresent, if_true, hfind, Option.bind_some]
        rfl
      · simp only [if_neg hpresent, hafter, hfind, Option.bind_some]
        exact hfields field (List.mem_of_find?_eq_some hfind) parts d rest value hd hrest

theorem readEntries_of_laid (hfields : ∀ f ∈ fields, ∀ parts, Steady (f.read parts))
    (es : List (Option String × Document)) {isFirst : Bool} {cs : List Char} {bound rest : Octets}
    (hes : Laid (entryLexemes isFirst es ++ [.word ['\x7d']]) cs)
    (hbound : (utf8 cs ++ rest).length < bound.length) :
    (readEntries fields bound isFirst parts (utf8 cs ++ rest)).toOption =
      (es.foldl (enter fields) (some parts)).map fun parts => (parts, rest) := by
  induction es generalizing isFirst cs bound parts with
  | nil =>
      cases bound with
      | nil => contradiction
      | cons b bound =>
          rw [readEntries, nextKey_nil (hes.entriesBegun rest)]
          rfl
  | cons e es ih =>
      obtain ⟨key, d⟩ := e
      cases bound with
      | nil => contradiction
      | cons b bound =>
          obtain ⟨tail, cs', hnext, he, hmore, hlt⟩ := nextKey_cons (hes.entriesBegun rest)
          rw [List.length_cons] at hbound
          rw [readEntries, hnext, List.foldl_cons]
          cases he with
          | @mk pieces _ colon value hcolon hd =>
              rcases readQuoted_cases pieces colon with ⟨hkey, f, hread⟩ | ⟨key, hkey, hread⟩
              · simp only [hread, hkey, enter, foldl_enter_none]
                rfl
              · have hentry : (readEntry fields key parts colon).toOption = _ :=
                  readEntry_of_begun hfields key hcolon hd (startsWith_entries hmore rest)
                simp only [hread, hkey]
                rcases read_cases hentry with ⟨hparts, f, hf⟩ | ⟨parts', hparts, hok⟩
                · simp only [hf, hparts, foldl_enter_none]
                  rfl
                · simp only [hok, hparts]
                  exact ih hmore (by omega)

/-! ## Reading the values of fields -/

/-- A list of fields does not end where a further element follows. -/
theorem afterFields_comma {later bs : Octets} (h : skipBlanks bs = octet ',' :: later) :
    ∃ f, afterFields bs = .error f := by
  have hclosing : octet ',' ≠ octet ']' := by decide
  simp only [afterFields, h, if_neg hclosing, if_true]
  split
  · exact ⟨_, rfl⟩
  · split <;> exact ⟨_, rfl⟩

theorem afterFields_cons {isFirst : Bool} {d : Document} {ds : List Document} {rest bs : Octets}
    (h : ItemsBegun rest isFirst (d :: ds) (skipBlanks bs)) : ∃ f, afterFields bs = .error f := by
  generalize htext : skipBlanks bs = text at h
  cases h with
  | first hd =>
      obtain ⟨b, item, rfl, -, hclosing⟩ := hd.exists_eq_cons
      by_cases hcomma : b = octet ','
      · rw [hcomma] at htext
        exact afterFields_comma htext
      · simp only [afterFields, htext, if_neg hclosing, if_neg hcomma]
        exact ⟨_, rfl⟩
  | later hd => exact afterFields_comma htext

theorem readFields_of_laid (hfields : ∀ f ∈ fields, ∀ parts, Steady (f.read parts))
    {ds : List Document} {isFirst : Bool} {cs : List Char} {rest : Octets}
    (hds : Laid (itemLexemes isFirst ds ++ [.word [']']]) cs) :
    (readFields fields isFirst parts (utf8 cs ++ rest)).toOption =
      (fill fields parts ds).map fun parts => (parts, rest) := by
  induction fields generalizing ds isFirst cs parts with
  | nil =>
      rw [readFields]
      cases ds with
      | nil =>
          have hbegun := hds.itemsBegun rest
          rw [afterFields]
          generalize skipBlanks (utf8 cs ++ rest) = text at hbegun
          cases hbegun
          rfl
      | cons d ds =>
          obtain ⟨f, hf⟩ := afterFields_cons (hds.itemsBegun rest)
          rw [hf]
          rfl
  | cons field fields ih =>
      obtain ⟨hfield, hfields⟩ := List.forall_mem_cons.mp hfields
      rw [readFields]
      cases ds with
      | nil =>
          rw [nextElement_nil (hds.itemsBegun rest)]
          rfl
      | cons d ds =>
          obtain ⟨text, cs', hnext, hd, hmore, -⟩ := nextElement_cons (hds.itemsBegun rest)
          rw [hnext, fill]
          rcases (hfield parts).cases hd (startsWith_items hmore rest) with
            ⟨hfind, f, hread⟩ | ⟨parts', hfind, hread⟩
          · simp only [hfind, hread]
            rfl
          · simp only [hfind, hread]
            exact ih hfields hmore

end Entries

/-! ## Reading records -/

theorem finds_readRecord {schema : Schema δ α} {fields : List (FieldReader δ)}
    (hfields : ∀ f ∈ fields, ∀ parts, Steady (f.read parts)) :
    Finds (readRecord schema (some fields)) (Document.record? schema fields) := by
  intro d rest bs hd hrest
  rw [readRecord]
  generalize skipBlanks bs = text at hd
  cases hd with
  | @object es cs hes =>
      have hread : (readEntries fields (octet '\x7b' :: (utf8 cs ++ rest)) true schema.blank
          (utf8 cs ++ rest)).toOption = _ :=
        readEntries_of_laid hfields es hes (Nat.lt_succ_self _)
      simp only [if_true, Document.record?]
      rcases read_cases hread with ⟨hparts, f, hf⟩ | ⟨parts, hparts, hok⟩
      · simp only [hf, hparts]
        rfl
      · simp only [hok, hparts, Option.bind_some]
        cases schema.finish parts <;> rfl
  | @list ds cs hds =>
      have hread : (readFields fields true schema.blank (utf8 cs ++ rest)).toOption = _ :=
        readFields_of_laid hfields hds
      have hbracket : octet '[' ≠ octet '\x7b' := by decide
      simp only [if_neg hbracket, if_true, Document.record?]
      rcases read_cases hread with ⟨hparts, f, hf⟩ | ⟨parts, hparts, hok⟩
      · simp only [hf, hparts]
        rfl
      · simp only [hok, hparts, Option.bind_some]
        cases schema.finish parts <;> rfl
  | number n =>
      obtain ⟨b, bs, hn, hbegins⟩ := n.exists_utf8_eq_cons rest
      obtain ⟨-, -, -, -, hlist, hobject⟩ := ne_of_beginsNumber hbegins
      rw [hn]
      simp only [if_neg hobject, if_neg hlist]
      rfl
  | text => rfl
  | null => rfl
  | isTrue => rfl
  | isFalse => rfl

theorem finds_readRecord_none {schema : Schema δ α} :
    Finds (readRecord schema none) fun _ => none := by
  intro d rest bs _ _
  rw [readRecord]
  cases skipBlanks bs with
  | nil => rfl
  | cons b bs =>
      dsimp only
      split
      · rfl
      · split <;> rfl

/-! ## Changes of entries -/

/-- Two fields that may be read in either order. -/
def Apart (f g : FieldReader δ) : Prop :=
  ∀ parts d d', take f (take g parts d') d = take g (take f parts d) d'

theorem Apart.symm {f g : FieldReader δ} (h : Apart f g) : Apart g f :=
  fun parts d d' => (h parts d' d).symm

section Changes

variable {schema : Schema δ α} {fields : List (FieldReader δ)}

theorem enter_comm (h : ∀ f ∈ fields, ∀ g ∈ fields, Apart f g) (parts : Option δ)
    (e e' : Option String × Document) :
    enter fields (enter fields parts e) e' = enter fields (enter fields parts e') e := by
  obtain ⟨key, d⟩ := e
  obtain ⟨key', d'⟩ := e'
  cases key with
  | none => exact enter_none fields (key', d')
  | some key =>
      cases key' with
      | none => exact (enter_none fields (some key, d)).symm
      | some key' =>
          simp only [enter]
          cases hf : fields.find? (·.key = key) with
          | none => rfl
          | some f =>
              cases hg : fields.find? (·.key = key') with
              | none => rfl
              | some g =>
                  exact h g (List.mem_of_find?_eq_some hg) f (List.mem_of_find?_eq_some hf) parts d' d

/-- The order of the entries does not matter. -/
theorem record?_eq_of_perm (h : ∀ f ∈ fields, ∀ g ∈ fields, Apart f g)
    {es es' : List (Option String × Document)} (hperm : es.Perm es') :
    Document.record? schema fields (.object es) = Document.record? schema fields (.object es') := by
  have hfold := hperm.foldl_eq' (f := enter fields)
    (fun e _ e' _ parts => enter_comm h parts e e') (some schema.blank)
  rw [Document.record?, hfold, Document.record?]

/-- An entry whose key names no field does not matter, whatever its value. -/
theorem record?_insert {key : String} (h : ∀ f ∈ fields, f.key ≠ key)
    (es es' : List (Option String × Document)) (d : Document) :
    Document.record? schema fields (.object (es ++ (some key, d) :: es')) =
      Document.record? schema fields (.object (es ++ es')) := by
  have hfind : fields.find? (·.key = key) = none := by simpa using h
  have henter (parts : Option δ) : enter fields parts (some key, d) = parts := by
    simp only [enter, hfind]
  rw [Document.record?, List.foldl_append, List.foldl_cons, henter, ← List.foldl_append,
    Document.record?]

/-- A value in which the same is found for each field of its key does not matter. -/
theorem record?_replace {key : String} {d d' : Document}
    (h : ∀ f ∈ fields, f.key = key → ∀ parts, found (f.read parts) d = found (f.read parts) d')
    (es es' : List (Option String × Document)) :
    Document.record? schema fields (.object (es ++ (some key, d) :: es')) =
      Document.record? schema fields (.object (es ++ (some key, d') :: es')) := by
  have henter (parts : Option δ) :
      enter fields parts (some key, d) = enter fields parts (some key, d') := by
    simp only [enter]
    cases hfind : fields.find? (·.key = key) with
    | none => rfl
    | some f =>
        have hkey : f.key = key := by simpa using List.find?_some hfind
        simp only [take, h f (List.mem_of_find?_eq_some hfind) hkey]
  rw [Document.record?, List.foldl_append, List.foldl_cons, henter, ← List.foldl_cons,
    ← List.foldl_append, Document.record?]

end Changes

end VmHandler.Json
