import Mathlib.Data.List.Basic

/-!
# Lists of edits

Something is put together by a list of edits. A part that an edit replaces or keeps is what the last
edit of it has made it, and a part that an edit adds to holds what was added, in order. Edits that do
not touch a part do not count for it.
-/

set_option autoImplicit false

namespace VmHandler

section Edits

variable {σ ε α : Type} (apply : σ → ε → σ)

/-- A part that each edit replaces or keeps is what the last edit of it has made it. -/
theorem foldl_last (part : σ → Option α) (set? : ε → Option α)
    (happly : ∀ s e, part (apply s e) = (set? e).or (part s)) (edits : List ε) (s : σ) :
    part (edits.foldl apply s) = (edits.filterMap set?).getLast?.or (part s) := by
  induction edits generalizing s with
  | nil => rfl
  | cons e edits ih =>
      -- an edit counts only if no later one sets the same part, so what is edited is general
      have hhead := happly s e
      have htail := ih (apply s e)
      rw [List.foldl_cons, htail, hhead]
      cases he : set? e with
      | none => rw [List.filterMap_cons_none he, Option.none_or]
      | some x =>
          rw [List.filterMap_cons_some he, List.getLast?_cons]
          cases (edits.filterMap set?).getLast? <;> rfl

/-- A part that always has a value is what the last edit of it has made it. -/
theorem foldl_last_getD (part : σ → α) (set? : ε → Option α)
    (happly : ∀ s e, part (apply s e) = (set? e).getD (part s)) (edits : List ε) (s : σ) :
    part (edits.foldl apply s) = (edits.filterMap set?).getLast?.getD (part s) := by
  have hsome : ∀ s e, some (part (apply s e)) = (set? e).or (some (part s)) := by
    intro s e
    rw [happly, Option.or_some]
  have hlast := foldl_last apply (fun s => some (part s)) set? hsome edits s
  rw [Option.or_some] at hlast
  exact Option.some.inj hlast

/-- A part that edits add to holds what was added, in order. -/
theorem foldl_added (part : σ → List α) (added : ε → List α)
    (happly : ∀ s e, part (apply s e) = part s ++ added e) (edits : List ε) (s : σ) :
    part (edits.foldl apply s) = part s ++ edits.flatMap added := by
  induction edits generalizing s with
  | nil => rw [List.foldl_nil, List.flatMap_nil, List.append_nil]
  | cons e edits ih => rw [List.foldl_cons, ih, happly, List.flatMap_cons, List.append_assoc]

theorem foldl_appended (part : σ → List α) (add? : ε → Option α)
    (happly : ∀ s e, part (apply s e) = part s ++ (add? e).toList) (edits : List ε) (s : σ) :
    part (edits.foldl apply s) = part s ++ edits.filterMap add? := by
  rw [foldl_added apply part (fun e => (add? e).toList) happly, List.filterMap_eq_flatMap_toList]

/-- What becomes of a part is settled by the edits that touch it: the others leave it alone, and what
an edit makes of it depends on nothing else. -/
theorem foldl_filter (part : σ → α) (touches : ε → Bool)
    (hframe : ∀ s e, touches e = false → part (apply s e) = part s)
    (hlocal : ∀ s s' e, part s = part s' → part (apply s e) = part (apply s' e))
    (edits : List ε) {s s' : σ} (h : part s = part s') :
    part (edits.foldl apply s) = part ((edits.filter touches).foldl apply s') := by
  induction edits generalizing s s' with
  | nil => exact h
  | cons e edits ih =>
      cases he : touches e with
      | false =>
          rw [List.filter_cons_of_neg (by simp [he]), List.foldl_cons]
          exact ih ((hframe s e he).trans h)
      | true =>
          rw [List.filter_cons_of_pos he, List.foldl_cons, List.foldl_cons]
          exact ih (hlocal s s' e h)

/-- Adding one thing after the other is adding all of them. -/
theorem foldl_map_added (put : α → ε) (add : σ → List α → σ) (hnil : ∀ s, add s [] = s)
    (hcons : ∀ s x xs, add (apply s (put x)) xs = add s (x :: xs)) (xs : List α) (s : σ) :
    (xs.map put).foldl apply s = add s xs := by
  induction xs generalizing s with
  | nil => exact (hnil s).symm
  | cons x xs ih => rw [List.map_cons, List.foldl_cons, ih, hcons]

end Edits

end VmHandler
