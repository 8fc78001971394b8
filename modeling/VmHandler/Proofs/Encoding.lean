import VmHandler.Json.QuotedText

/-!
# Texts and their octets

The octets of a text are those of its characters, one after the other. A character below 0x80 is
one octet, its own code; every octet of another character is at least 0x80, so it is never mistaken
for a quote, a backslash or a bracket.
-/

set_option autoImplicit false

namespace VmHandler.Json

/-- The octets of characters. -/
def utf8 (cs : List Char) : Octets := cs.flatMap String.utf8EncodeChar

@[simp] theorem utf8_nil : utf8 [] = [] := rfl

theorem utf8_append (cs ds : List Char) : utf8 (cs ++ ds) = utf8 cs ++ utf8 ds :=
  List.flatMap_append

theorem utf8_cons (c : Char) (cs : List Char) :
    utf8 (c :: cs) = String.utf8EncodeChar c ++ utf8 cs :=
  List.flatMap_cons

theorem octets_ofList (cs : List Char) : octets (String.ofList cs) = utf8 cs := by
  have hencode : (String.ofList cs).toUTF8 = (utf8 cs).toByteArray := rfl
  rw [octets, hencode]
  simp

/-- Encoded characters are decoded again. -/
theorem decode?_utf8 (cs : List Char) : decode? (utf8 cs) = some (String.ofList cs) := by
  have hencode : (⟨(utf8 cs).toArray⟩ : ByteArray) = cs.utf8Encode := by
    apply ByteArray.ext
    simp [utf8, List.utf8Encode]
  rw [decode?, String.fromUTF8?, dif_pos ⟨cs, hencode⟩]
  exact congrArg some (String.toByteArray_inj.mp hencode)

/-! ## One character -/

theorem utf8EncodeChar_of_lt {c : Char} (h : c.toNat < 0x80) :
    String.utf8EncodeChar c = [octet c] := by
  have hle : c.val.toNat ≤ 0x7F := Nat.le_of_lt_succ h
  rw [String.utf8EncodeChar, if_pos hle]
  rfl

theorem utf8_cons_of_lt {c : Char} (h : c.toNat < 0x80) (cs : List Char) :
    utf8 (c :: cs) = octet c :: utf8 cs := by
  rw [utf8_cons, utf8EncodeChar_of_lt h, List.singleton_append]

/-- A text between two characters, each of them one octet. -/
theorem utf8_enclosed {opening closing : Char} (hopening : opening.toNat < 0x80)
    (hclosing : closing.toNat < 0x80) (cs : List Char) (rest : Octets) :
    utf8 (opening :: cs ++ [closing]) ++ rest =
      octet opening :: (utf8 cs ++ octet closing :: rest) := by
  rw [List.cons_append, utf8_cons_of_lt hopening, utf8_append, utf8_cons_of_lt hclosing, utf8_nil,
    List.cons_append, List.append_assoc, List.singleton_append]

theorem le_ofNat {n : Nat} (h : 0x80 ≤ n) (hlt : n < 0x100) : 0x80 ≤ UInt8.ofNat n := by
  rw [UInt8.le_iff_toNat_le, UInt8.toNat_ofNat', Nat.mod_eq_of_lt hlt]
  exact h

/-- The octets of a character beyond the first 0x80 are all beyond them, too. -/
theorem le_of_mem_utf8EncodeChar {c : Char} (h : 0x80 ≤ c.toNat) :
    ∀ b ∈ String.utf8EncodeChar c, 0x80 ≤ b := by
  have hlong : ¬ c.val.toNat ≤ 0x7F := Nat.not_le_of_lt h
  rw [String.utf8EncodeChar]
  simp only [if_neg hlong]
  -- Two, three or four octets, each of them a part of the code put on top of at least 0x80.
  intro b hb
  split at hb
  · simp only [List.mem_cons, List.not_mem_nil, or_false] at hb
    rcases hb with rfl | rfl <;> exact le_ofNat (by omega) (by omega)
  · split at hb
    · simp only [List.mem_cons, List.not_mem_nil, or_false] at hb
      rcases hb with rfl | rfl | rfl <;> exact le_ofNat (by omega) (by omega)
    · simp only [List.mem_cons, List.not_mem_nil, or_false] at hb
      rcases hb with rfl | rfl | rfl | rfl <;> exact le_ofNat (by omega) (by omega)

end VmHandler.Json
