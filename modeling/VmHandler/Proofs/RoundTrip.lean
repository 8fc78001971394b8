import VmHandler.Dump.Load
import VmHandler.Dump.Writer
import VmHandler.Proofs.Lookup
import VmHandler.Proofs.Sequence
import VmHandler.Proofs.TokenText

/-!
# Reading back dumps

Every part of a dump is read back from where it is written: tokens, element classes and modifiers
as what they stand for, methods, types and dumps as records of their parts. A module is built again
from its dump. All that a written module may fail on is how deeply its types are nested.
-/

set_option autoImplicit false

namespace VmHandler.Dump

open VmHandler.Json

/-! ## Texts, numbers, tokens and element classes -/

theorem reads_text (s : String) : Reads (fun _ => readText) (.text s) s := by
  intro brackets rest _
  show readText (utf8 (writtenText s) ++ rest) = _
  rw [readText_written, Value.depth, if_pos (Nat.zero_le brackets)]

theorem reads_modifiers (m : Modifiers) :
    Reads (fun _ => readModifiers) (.natural m.bits.toNat) m := by
  intro brackets rest hrest
  show readModifiers (utf8 (Nat.toDigits 10 m.bits.toNat) ++ rest) = _
  rw [readModifiers, readWord_written m.bits hrest, Value.depth, if_pos (Nat.zero_le brackets)]
  simp only [Modifiers.ofFlags_bits]

theorem reads_token (t : Token) : Reads readToken t.toValue t := by
  intro brackets rest _
  have hany := readAny_writtenText t.text rest
  rw [Token.toValue, Value.compactChars, Value.depth, if_pos (Nat.zero_le brackets)]
  rw [utf8_writtenText] at hany ⊢
  rw [readToken, skipBlanks_cons (by decide)]
  simp only [hany, tokenOf, Token.parse?_text]
  rfl

theorem reads_class (c : ElementClass) : Reads readClass c.toValue c := by
  intro brackets rest _
  have hname := readQuoted_written c.name rest
  rw [ElementClass.toValue, Value.compactChars, Value.depth, if_pos (Nat.zero_le brackets),
    utf8_writtenText, readClass, skipBlanks_cons (by decide)]
  simp only [if_true, readClassName, hname, classOf, ElementClass.ofName?_name]

/-! ## Methods and types -/

theorem reads_list_map {α : Type} {item : Nat → Step α} {written : α → Value}
    (h : ∀ x, Reads item (written x) x) (xs : List α) :
    Reads (fun brackets => readList (inside item brackets)) (.list (xs.map written)) xs := by
  refine reads_list (List.forall₂_map_left_iff.mpr (List.forall₂_same.mpr ?_))
  intro x _
  exact h x

-- In the records below, the first `rfl` finds the field of a key and the second one finds that it is
-- not among the parts read so far; the last one puts the parts together.
theorem reads_method (m : Method) : Reads readMethod m.toValue m :=
  reads_record
    (.cons (readsEntry_field (fun _ => rfl) rfl (reads_token m.token))
    (.cons (readsEntry_field (fun _ => rfl) rfl (reads_text m.name))
    (.cons (readsEntry_field (fun _ => rfl) rfl (reads_modifiers m.modifiers))
    (.cons (readsEntry_field (fun _ => rfl) rfl (reads_class m.returns))
    (.cons (readsEntry_field (fun _ => rfl) rfl (reads_list_map reads_class m.params))
    (.cons (readsEntry_field (fun _ => rfl) rfl (reads_list_map reads_text m.locals))
      (.nil _)))))))
    rfl

/-- What a type may hold is read inside one more bracket. -/
theorem readType_eq (brackets : Nat) :
    readType brackets =
      readRecord typeSchema (inside (fun b => typeFields b (readTypes b)) brackets) := by
  cases brackets <;> rw [readType] <;> rfl

theorem readTypes_eq (brackets : Nat) : readTypes brackets = readList (inside readType brackets) := by
  cases brackets <;> rw [readTypes] <;> rfl

theorem reads_forest_of_reads_types {f : Forest}
    (h : List.Forall₂ (Reads readType) (Forest.toValues f) f) :
    Reads readTypes (.list (Forest.toValues f)) f := by
  rw [funext readTypes_eq]
  exact reads_list h

mutual

theorem reads_type (t : TypeDecl) : Reads readType t.toValue t := by
  obtain ⟨token, space, name, methods, nested⟩ := t
  rw [funext readType_eq, TypeDecl.toValue]
  exact reads_record
    (.cons (readsEntry_field (fun _ => rfl) rfl (reads_token token))
    (.cons (readsEntry_field (fun _ => rfl) rfl (reads_text space))
    (.cons (readsEntry_field (fun _ => rfl) rfl (reads_text name))
    (.cons (readsEntry_field (fun _ => rfl) rfl (reads_list_map reads_method methods))
    (.cons (readsEntry_field (fun _ => rfl) rfl
        (reads_forest_of_reads_types (reads_types nested)))
      (.nil _))))))
    rfl

theorem reads_types (ts : List TypeDecl) :
    List.Forall₂ (Reads readType) (Forest.toValues ts) ts := by
  cases ts with
  | nil => exact .nil
  | cons t ts => exact .cons (reads_type t) (reads_types ts)

end

theorem reads_dump (d : Dump) : Reads read d.toValue d :=
  reads_record
    (.cons (readsEntry_field (fun _ => rfl) rfl (reads_text d.name))
    (.cons (readsEntry_field (fun _ => rfl) rfl (reads_forest_of_reads_types (reads_types d.types)))
      (.nil _)))
    rfl

/-! ## Whole texts -/

theorem ofOctets_compact {v : Value} {d : Dump} (h : Reads read v d) :
    Dump.ofOctets (octets v.compact) =
      if v.depth ≤ maxBrackets then .ok d else .error .tooDeep := by
  have hread := h maxBrackets [] rfl
  rw [List.append_nil] at hread
  rw [Dump.ofOctets, readWhole, Value.compact, octets_ofList, hread]
  by_cases hdepth : v.depth ≤ maxBrackets
  · simp only [if_pos hdepth]
    rfl
  · simp only [if_neg hdepth]

end VmHandler.Dump

namespace VmHandler.Module

open VmHandler.Json

theorem ofDump_eq_ok_iff {d : Dump} {m : Module} : ofDump d = .ok m ↔ m.toDump = d := by
  obtain ⟨name, types⟩ := d
  have hbuild : ofDump ⟨name, types⟩ = .ok m ↔ build name types = .ok m := by
    rw [ofDump]
    cases build name types <;> simp
  rw [hbuild, build_eq_ok_iff, toDump, Dump.mk.injEq]

/-- A module is loaded from the octets from which its dump is read. -/
theorem ofOctets_eq_ok_iff {bs : Octets} {m : Module} :
    ofOctets bs = .ok m ↔ Dump.ofOctets bs = .ok m.toDump := by
  rw [ofOctets]
  cases bs with
  | nil => exact iff_of_false nofun nofun
  | cons b bs =>
      cases Dump.ofOctets (b :: bs) with
      | error f => exact iff_of_false nofun nofun
      | ok d => exact ofDump_eq_ok_iff.trans ⟨fun h => by rw [h], fun h => (Except.ok.inj h).symm⟩

/-- A module is loaded from a text from which its dump is read. -/
theorem ofJson_compact {v : Value} {m : Module} (h : Dump.Reads Dump.read v m.toDump) :
    ofJson v.compact =
      if nesting v.compact ≤ 127 then .ok m else .error (.unreadable .tooDeep) := by
  have hnonempty : (octets v.compact).isEmpty = false := by
    obtain ⟨b, bs, hv, _⟩ := Dump.exists_utf8_compactChars_eq_cons v
    rw [Value.compact, octets_ofList, hv]
    rfl
  rw [ofJson, ofOctets, hnonempty, Dump.ofOctets_compact h, nesting_compact, Dump.maxBrackets]
  by_cases hdepth : v.depth ≤ 127
  · simp only [if_pos hdepth, ofDump_eq_ok_iff.mpr rfl]
    rfl
  · simp only [if_neg hdepth]
    rfl

theorem ofJson_toJson (m : Module) :
    ofJson m.toJson =
      if nesting m.toJson ≤ 127 then .ok m else .error (.unreadable .tooDeep) :=
  ofJson_compact (Dump.reads_dump m.toDump)

/-- A written module is loaded again exactly if its text nests at most 127 deep. What is loaded then
is the same module, with its name and its forest and so with its types in their order and with its
catalog; what is found otherwise is a bracket too many. -/
theorem written_module_loads_up_to_nesting (m : Module) :
    ((∃ m', ofJson m.toJson = .ok m') ↔ nesting m.toJson ≤ 127) ∧
      match ofJson m.toJson with
      | .ok m' => m' = m
      | .error fault => fault = .unreadable .tooDeep := by
  by_cases hnesting : nesting m.toJson ≤ 127
  · rw [ofJson_toJson, if_pos hnesting]
    exact ⟨⟨fun _ => hnesting, fun _ => ⟨m, rfl⟩⟩, rfl⟩
  · rw [ofJson_toJson, if_neg hnesting]
    exact ⟨⟨nofun, fun h => absurd h hnesting⟩, rfl⟩

end VmHandler.Module
