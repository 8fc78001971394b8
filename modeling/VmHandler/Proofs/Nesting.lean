import VmHandler.Proofs.QuotedText

/-!
# How deeply a text nests

A scan of a text counts the brackets that are open at once, without those inside quotes. A written
value nests exactly as deeply as its lists and objects stand inside each other: what its texts hold
is never taken for a bracket or for the end of the quotes.
-/

set_option autoImplicit false

namespace VmHandler.Json

/-! ## The depth of a value -/

mutual

/-- How many lists and objects stand inside each other. -/
def Value.depth : Value → Nat
  | .null => 0
  | .natural _ => 0
  | .text _ => 0
  | .list items => depthOfItems items + 1
  | .object entries => depthOfEntries entries + 1

/-- The depth of the deepest element. -/
def depthOfItems : List Value → Nat
  | [] => 0
  | v :: vs => max v.depth (depthOfItems vs)

/-- The depth of the deepest value of an entry. -/
def depthOfEntries : List (String × Value) → Nat
  | [] => 0
  | (_, v) :: es => max v.depth (depthOfEntries es)

end

theorem depthOfItems_le_iff {vs : List Value} {n : Nat} :
    depthOfItems vs ≤ n ↔ ∀ v ∈ vs, v.depth ≤ n := by
  induction vs with
  | nil => simp [depthOfItems]
  | cons v vs ih => rw [depthOfItems, Nat.max_le, ih, List.forall_mem_cons]

/-! ## The scan of a text -/

/-- Where a scan for brackets stands. -/
inductive Place where
  | outside
  | quoted
  /-- inside quotes, behind a backslash -/
  | escaped
  deriving DecidableEq, Repr

/-- A scan for brackets. -/
structure Scan where
  place : Place
  /-- How many brackets are open. -/
  opened : Nat
  /-- How many have been open at once at most. -/
  deepest : Nat
  deriving DecidableEq, Repr

namespace Scan

/-- The scan after one character. -/
def step (s : Scan) (c : Char) : Scan :=
  match s.place with
  | .outside =>
      if c = '"' then { s with place := .quoted }
      else if c = '[' ∨ c = '\x7b' then ⟨.outside, s.opened + 1, max s.deepest (s.opened + 1)⟩
      else if c = ']' ∨ c = '\x7d' then ⟨.outside, s.opened - 1, s.deepest⟩
      else s
  | .quoted =>
      if c = '"' then { s with place := .outside }
      else if c = '\\' then { s with place := .escaped }
      else s
  | .escaped => { s with place := .quoted }

/-- The scan after a text. -/
def run (s : Scan) (cs : List Char) : Scan := cs.foldl step s

theorem run_nil (s : Scan) : s.run [] = s := rfl

theorem run_cons (s : Scan) (c : Char) (cs : List Char) : s.run (c :: cs) = (s.step c).run cs := rfl

theorem run_append (s : Scan) (cs ds : List Char) : s.run (cs ++ ds) = (s.run cs).run ds :=
  List.foldl_append

end Scan

/-- How many brackets outside quotes are open at once at most. -/
def nesting (s : String) : Nat := (Scan.run ⟨.outside, 0, 0⟩ s.toList).deepest

/-! ## The scan of a written value -/

/-- A text that closes the brackets it opens, of which so many are open at once at most. -/
def Nests (cs : List Char) (depth : Nat) : Prop :=
  ∀ opened deepest, opened ≤ deepest →
    Scan.run ⟨.outside, opened, deepest⟩ cs = ⟨.outside, opened, max deepest (opened + depth)⟩

theorem nests_of_run_eq {cs : List Char}
    (h : ∀ opened deepest, Scan.run ⟨.outside, opened, deepest⟩ cs = ⟨.outside, opened, deepest⟩) :
    Nests cs 0 := by
  intro opened deepest hle
  rw [h, Nat.add_zero, Nat.max_eq_left hle]

theorem Nests.append {cs ds : List Char} {a b : Nat} (hcs : Nests cs a) (hds : Nests ds b) :
    Nests (cs ++ ds) (max a b) := by
  intro opened deepest h
  rw [Scan.run_append, hcs _ _ h, hds _ _ (Nat.le_trans h (Nat.le_max_left _ _)), Nat.max_assoc,
    Nat.add_max_add_left]

theorem nests_nil : Nests [] 0 :=
  nests_of_run_eq fun _ _ => rfl

theorem Nests.cons {c : Char} {cs : List Char} {depth : Nat} (hc : Nests [c] 0)
    (hcs : Nests cs depth) : Nests (c :: cs) depth := by
  simpa only [Nat.zero_max, List.singleton_append] using hc.append hcs

theorem nests_of_forall {cs : List Char} (h : ∀ c ∈ cs, Nests [c] 0) : Nests cs 0 := by
  induction cs with
  | nil => exact nests_nil
  | cons c cs ih =>
      obtain ⟨hc, hcs⟩ := List.forall_mem_cons.mp h
      exact hc.cons (ih hcs)

theorem Nests.bracketed {opening closing : Char} {cs : List Char} {depth : Nat}
    (hopening : opening = '[' ∨ opening = '\x7b') (hclosing : closing = ']' ∨ closing = '\x7d')
    (hcs : Nests cs depth) : Nests (opening :: cs ++ [closing]) (depth + 1) := by
  intro opened deepest h
  have hopen : Scan.step ⟨.outside, opened, deepest⟩ opening =
      ⟨.outside, opened + 1, max deepest (opened + 1)⟩ := by
    rcases hopening with rfl | rfl <;> rfl
  have hclose (n : Nat) : Scan.step ⟨.outside, opened + 1, n⟩ closing = ⟨.outside, opened, n⟩ := by
    rcases hclosing with rfl | rfl <;> rfl
  have hdeepest : max (max deepest (opened + 1)) (opened + 1 + depth) =
      max deepest (opened + (depth + 1)) := by omega
  rw [List.cons_append, Scan.run_cons, hopen, Scan.run_append, hcs _ _ (Nat.le_max_right _ _),
    Scan.run_cons, hclose, Scan.run_nil, hdeepest]

theorem run_fixedHex (width n opened deepest : Nat) :
    Scan.run ⟨.quoted, opened, deepest⟩ (Text.fixedHex width n) = ⟨.quoted, opened, deepest⟩ := by
  have hne : ∀ d < 16, Text.hexDigit d ≠ '"' ∧ Text.hexDigit d ≠ '\\' := by decide
  induction width generalizing n with
  | zero => rfl
  | succ width ih =>
      obtain ⟨hquote, hslash⟩ := hne (n % 16) (Nat.mod_lt n (by decide))
      rw [Text.fixedHex, Scan.run_append, ih, Scan.run_cons, Scan.run_nil]
      simp only [Scan.step, if_neg hquote, if_neg hslash]

/-- A written character leaves the scan inside the quotes. -/
theorem run_writtenChar (c : Char) (opened deepest : Nat) :
    Scan.run ⟨.quoted, opened, deepest⟩ (writtenChar c) = ⟨.quoted, opened, deepest⟩ := by
  rcases writtenChar_cases c with ⟨letter, hwritten, _⟩ | ⟨hwritten, _⟩ |
    ⟨hwritten, hquote, hslash, _⟩
  · rw [hwritten]
    rfl
  · rw [hwritten]
    exact run_fixedHex 4 c.toNat opened deepest
  · rw [hwritten, Scan.run_cons, Scan.run_nil]
    simp only [Scan.step, if_neg hquote, if_neg hslash]

theorem run_flatMap_writtenChar (cs : List Char) (opened deepest : Nat) :
    Scan.run ⟨.quoted, opened, deepest⟩ (cs.flatMap writtenChar) =
      ⟨.quoted, opened, deepest⟩ := by
  induction cs with
  | nil => rfl
  | cons c cs ih => rw [List.flatMap_cons, Scan.run_append, run_writtenChar, ih]

theorem nests_writtenText (s : String) : Nests (writtenText s) 0 := by
  refine nests_of_run_eq fun opened deepest => ?_
  rw [writtenText, List.cons_append, Scan.run_cons, Scan.run_append]
  exact congrArg (Scan.run · ['"']) (run_flatMap_writtenChar s.toList opened deepest)

theorem step_of_isDigit {c : Char} (h : c.isDigit = true) (opened deepest : Nat) :
    Scan.step ⟨.outside, opened, deepest⟩ c = ⟨.outside, opened, deepest⟩ := by
  have hne (d : Char) (hd : d.isDigit = false) : c ≠ d := fun heq => by
    rw [heq, hd] at h
    exact Bool.false_ne_true h
  simp only [Scan.step, hne '"' (by decide), hne '[' (by decide), hne '\x7b' (by decide),
    hne ']' (by decide), hne '\x7d' (by decide), or_self, if_false]

theorem nests_of_forall_isDigit {cs : List Char} (h : ∀ c ∈ cs, c.isDigit = true) :
    Nests cs 0 :=
  nests_of_forall fun c hc => nests_of_run_eq fun opened deepest =>
    step_of_isDigit (h c hc) opened deepest

theorem nests_toDigits (n : Nat) : Nests (Nat.toDigits 10 n) 0 :=
  nests_of_forall_isDigit fun _ hc => Nat.isDigit_of_mem_toDigits (by decide) (by decide) hc

theorem Nests.cons_comma {cs : List Char} {depth : Nat} (h : Nests cs depth) :
    Nests (',' :: cs) depth := h

theorem Nests.cons_colon {cs : List Char} {depth : Nat} (h : Nests cs depth) :
    Nests (':' :: cs) depth := h

theorem nests_entry (k : String) {v : Value} (h : Nests v.compactChars v.depth) :
    Nests (writtenText k ++ ':' :: v.compactChars) v.depth := by
  simpa only [Nat.zero_max] using (nests_writtenText k).append h.cons_colon

mutual

theorem nests_compactChars (v : Value) : Nests v.compactChars v.depth := by
  match v with
  | .null => exact nests_of_run_eq fun _ _ => rfl
  | .natural n => exact nests_toDigits n
  | .text s => exact nests_writtenText s
  | .list vs => exact Nests.bracketed (Or.inl rfl) (Or.inl rfl) (nests_compactItems vs)
  | .object es => exact Nests.bracketed (Or.inr rfl) (Or.inr rfl) (nests_compactEntries es)

theorem nests_compactItems (vs : List Value) : Nests (compactItems vs) (depthOfItems vs) := by
  match vs with
  | [] => exact nests_of_run_eq fun _ _ => rfl
  | [v] =>
      rw [compactItems, depthOfItems, depthOfItems, Nat.max_zero]
      exact nests_compactChars v
  | v :: w :: vs =>
      rw [compactItems, depthOfItems]
      exact (nests_compactChars v).append (nests_compactItems (w :: vs)).cons_comma

theorem nests_compactEntries (es : List (String × Value)) :
    Nests (compactEntries es) (depthOfEntries es) := by
  match es with
  | [] => exact nests_of_run_eq fun _ _ => rfl
  | [(k, v)] =>
      rw [compactEntries, depthOfEntries, depthOfEntries, Nat.max_zero]
      exact nests_entry k (nests_compactChars v)
  | (k, v) :: e :: es =>
      rw [compactEntries, depthOfEntries]
      exact (nests_entry k (nests_compactChars v)).append
        (nests_compactEntries (e :: es)).cons_comma

end

/-- A written value nests as deeply as its lists and objects do. -/
theorem nesting_compact (v : Value) : nesting v.compact = v.depth := by
  rw [nesting, Value.compact, String.toList_ofList, nests_compactChars v 0 0 (Nat.le_refl 0),
    Nat.zero_add, Nat.zero_max]

-- A bracket inside quotes does not count, nor does one behind a quote that is escaped.
example : nesting "[\x7b\"[\":\"\\\"[\"\x7d,[]]" = 2 := by decide +kernel

end VmHandler.Json
