import VmHandler.Json.Position
import VmHandler.Proofs.TokenSpelling

/-!
# Reasons without a position at their ends

A position ends in a word of digits, with a blank before it. So a reason whose last word holds
anything else than digits has no position at its end, whatever stands before that word, and nothing
is taken off.
-/

set_option autoImplicit false

namespace VmHandler.Json

open VmHandler.Text

theorem behind?_eq_some_iff {ks cs rest : List Char} :
    behind? ks cs = some rest ↔ cs = ks ++ rest := by
  induction ks generalizing cs with
  | nil => rw [behind?, Option.some.injEq, List.nil_append]
  | cons k ks ih =>
      cases cs with
      | nil => simp [behind?]
      | cons c cs =>
          rw [behind?, List.cons_append, List.cons.injEq]
          by_cases hc : c = k
          · rw [if_pos hc, ih, and_iff_right hc]
          · rw [if_neg hc]
            exact iff_of_false nofun fun h => hc h.1

theorem isDigit_of_isWordText {cs : List Char} (h : isWordText cs = true) :
    ∀ c ∈ cs, ∃ d, IsDigit 10 c d := by
  unfold isWordText at h
  split at h
  · rename_i n hn
    exact ((natural?_eq_some_iff (by decide)).mp hn).forall_mem
  · contradiction

/-- The last word of a position consists of digits. -/
theorem exists_lastWord_of_isPosition {cs : List Char} (h : isPosition cs = true) :
    ∃ lead column, cs = lead ++ ' ' :: column ∧ ∀ c ∈ column, ∃ d, IsDigit 10 c d := by
  unfold isPosition at h
  split at h
  · contradiction
  · rename_i rest hrest
    dsimp only at h
    split at h
    · contradiction
    · rename_i column hcolumn
      rw [Bool.and_eq_true] at h
      obtain ⟨-, hdigits⟩ := h
      have hsplit := behind?_eq_some_iff.mp hcolumn
      generalize (rest.takeWhile fun c => (digitValue? 10 c).isSome).length = n at hsplit
      refine ⟨[' ', 'a', 't', ' ', 'l', 'i', 'n', 'e', ' '] ++ rest.take n ++
        [' ', 'c', 'o', 'l', 'u', 'm', 'n'], column, ?_, isDigit_of_isWordText hdigits⟩
      rw [behind?_eq_some_iff.mp hrest]
      nth_rewrite 1 [← List.take_append_drop n rest, hsplit]
      simp only [List.append_assoc, List.cons_append, List.nil_append]

theorem eq_of_blank_cons_eq {between word word' : List Char} (hword : ' ' ∉ word)
    (h : ' ' :: word = between ++ ' ' :: word') : word = word' := by
  cases between with
  | nil => exact (List.cons.inj h).2
  | cons c between =>
      refine absurd ?_ hword
      rw [(List.cons.inj h).2]
      exact List.mem_append_right _ List.mem_cons_self

/-- A text has one last word. -/
theorem lastWord_unique {lead lead' word word' : List Char} (hword : ' ' ∉ word)
    (hword' : ' ' ∉ word') (h : lead ++ ' ' :: word = lead' ++ ' ' :: word') : word = word' := by
  rcases List.append_eq_append_iff.mp h with ⟨between, -, hrest⟩ | ⟨between, -, hrest⟩
  · exact eq_of_blank_cons_eq hword hrest
  · exact (eq_of_blank_cons_eq hword' hrest).symm

theorem isPosition_eq_false {lead word : List Char} (hword : ' ' ∉ word)
    (hother : ∃ c ∈ word, ∀ d, ¬IsDigit 10 c d) {before cs : List Char}
    (hcs : before ++ cs = lead ++ ' ' :: word) : isPosition cs = false := by
  by_contra h
  rw [Bool.not_eq_false] at h
  obtain ⟨inner, column, rfl, hdigits⟩ := exists_lastWord_of_isPosition h
  have hcolumn : ' ' ∉ column := by
    intro hblank
    obtain ⟨d, hd⟩ := hdigits ' ' hblank
    have hnone : digitValue? 10 ' ' = none := by decide
    rw [(digitValue?_eq_some_iff (by decide)).mpr hd] at hnone
    contradiction
  rw [← List.append_assoc] at hcs
  obtain ⟨c, hc, hnot⟩ := hother
  rw [← lastWord_unique hcolumn hword hcs] at hc
  obtain ⟨d, hd⟩ := hdigits c hc
  exact hnot d hd

/-- Nothing is taken off a text whose last word does not consist of digits. -/
theorem dropPosition_eq_self {lead word : List Char} (hword : ' ' ∉ word)
    (hother : ∃ c ∈ word, ∀ d, ¬IsDigit 10 c d) (before cs : List Char)
    (hcs : before ++ cs = lead ++ ' ' :: word) : dropPosition cs = cs := by
  induction cs generalizing before with
  | nil => rfl
  | cons c cs ih =>
      rw [dropPosition, isPosition_eq_false hword hother hcs]
      have hrest := ih (before ++ [c]) (by rw [← hcs, List.append_assoc]; rfl)
      rw [hrest]
      rfl

theorem withoutPosition_eq_self {s : String} {lead word : List Char}
    (hs : s.toList = lead ++ ' ' :: word) (hword : ' ' ∉ word)
    (hother : ∃ c ∈ word, ∀ d, ¬IsDigit 10 c d) : withoutPosition s = s := by
  rw [withoutPosition, dropPosition_eq_self hword hother [] s.toList hs, String.ofList_toList]

end VmHandler.Json
