import VmHandler.Proofs.DumpMeaning
import VmHandler.Proofs.TokenSpelling

/-!
# The forms of tokens

A token has one form that it is written in and many that it is read from: texts and, in a document,
numerals. Writing and reading back leaves a token as it is, and reading and writing takes every text
that stands for a token to the one form of the token.
-/

set_option autoImplicit false

namespace VmHandler.Token

open VmHandler.Text
open VmHandler.Json

theorem toList_text (t : Token) : t.text.toList = '0' :: 'x' :: fixedHex 8 t.value.toNat := by
  rw [text, String.toList_ofList, chars]

theorem mem_lowerDigits_of_mem_fixedHex {width n : Nat} {c : Char} (h : c ∈ fixedHex width n) :
    c ∈ "0123456789abcdef".toList := by
  have hall : ∀ d < 16, hexDigit d ∈ "0123456789abcdef".toList := by decide
  obtain ⟨d, hd, rfl⟩ := exists_eq_hexDigit_of_mem_fixedHex h
  exact hall d hd

/-- White space around the text of a token does not count. -/
theorem parse?_text_between {t : Token} {lead trail : List Char} (hlead : AllWhite lead)
    (htrail : AllWhite trail) :
    parse? (String.ofList (lead ++ t.text.toList ++ trail)) = some t := by
  have hspells : Spells t.text.toList t.value.toNat := by
    rw [text, String.toList_ofList]
    exact number?_eq_some_iff.mp t.number?_chars
  rw [parse?_of_spells String.toList_ofList hlead htrail hspells, ofNat?_eq_some_iff]
  exact ⟨t.value.toNat_lt, rfl⟩

theorem ofJson_toJson (t : Token) : ofJson t.toJson = .ok t := by
  have hread := Dump.reads_token t Dump.maxBrackets [] rfl
  rw [List.append_nil, toValue, Value.depth, if_pos (Nat.zero_le _)] at hread
  rw [ofJson, readWhole, toJson, toValue, Value.compact, octets_ofList, hread]
  rfl

/-- A token is found in a document exactly if this is the numeral of its word or a text that stands
for it. -/
theorem token?_eq_some_iff {d : Document} {t : Token} :
    Dump.token? d = some t ↔
      (∃ n, d = .number (.natural n) ∧ n < 2 ^ 32 ∧ t.value.toNat = n) ∨
        ∃ s, d = .text (some s) ∧ parse? s = some t := by
  unfold Dump.token?
  split
  · rename_i n
    rw [Option.map_eq_some_iff]
    constructor
    · rintro ⟨w, hw, rfl⟩
      rw [Numeral.word?_eq_some_iff.mp hw]
      exact .inl ⟨w.toNat, rfl, w.toNat_lt, rfl⟩
    · rintro (⟨_, hn, -, rfl⟩ | ⟨s, hs, -⟩)
      · cases hn
        exact ⟨t.value, Numeral.word?_eq_some_iff.mpr rfl, rfl⟩
      · contradiction
  · rename_i content
    rw [Option.bind_eq_some_iff]
    constructor
    · rintro ⟨s, rfl, hs⟩
      exact .inr ⟨s, rfl, hs⟩
    · rintro (⟨_, hn, -⟩ | ⟨s, hs, hparse⟩)
      · contradiction
      · cases hs
        exact ⟨s, rfl, hparse⟩
  · rename_i hnumber htext
    refine iff_of_false nofun ?_
    rintro (⟨n, rfl, -⟩ | ⟨s, rfl, -⟩)
    · exact hnumber _ rfl
    · exact htext _ rfl

/-- A token is written as `0x` and eight lower-case hexadecimal digits, and read back from there with
any white space around it. So tokens with the same text are equal, and the text of a token that a
text stands for stands for itself. A token written as a document is read back; and whatever a document
holds and however it is written, a token is read from it exactly if it is an integer below `2 ^ 32`
without sign, fraction and exponent, which is the word of the token, or a text that stands for the
token. -/
theorem written_and_read :
    (∀ t : Token, ∃ digits, t.text.toList = '0' :: 'x' :: digits ∧ digits.length = 8 ∧
      ∀ c ∈ digits, c ∈ "0123456789abcdef".toList) ∧
    (∀ (t : Token) (lead trail : List Char), AllWhite lead → AllWhite trail →
      parse? (String.ofList (lead ++ t.text.toList ++ trail)) = some t) ∧
    Function.Injective text ∧
    (∀ s s' : String, (parse? s).map text = some s' → (parse? s').map text = some s') ∧
    (∀ t : Token, ofJson t.toJson = .ok t) ∧
    ∀ (d : Document) (s : String), d.Written s → ∀ t : Token,
      ofJson s = .ok t ↔
        (∃ n, d = .number (.natural n) ∧ n < 2 ^ 32 ∧ t.value.toNat = n) ∨
          ∃ x, d = .text (some x) ∧ parse? x = some t := by
  refine ⟨fun t => ?_, fun t lead trail hlead htrail => parse?_text_between hlead htrail,
    text_injective, fun s s' h => ?_, ofJson_toJson, fun d s hs t => ?_⟩
  · exact ⟨_, t.toList_text, length_fixedHex 8 _, fun c => mem_lowerDigits_of_mem_fixedHex⟩
  · obtain ⟨t, -, rfl⟩ := Option.map_eq_some_iff.mp h
    rw [parse?_text, Option.map_some]
  · have hfound := readWhole_of_written (Dump.finds_readToken Dump.maxBrackets) hs
    rw [ofJson, ← toOption_eq_some_iff, hfound, token?_eq_some_iff]

end VmHandler.Token
