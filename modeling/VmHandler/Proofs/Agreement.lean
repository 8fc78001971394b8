import VmHandler.Proofs.Defects
import VmHandler.Proofs.Descriptions
import VmHandler.Proofs.Loading

/-!
# Building and reading agree

What is built of a description and what is read from a text that spells it are the same method, the
same type and the same module, whatever the description leaves out; and where there is no module,
the same defect is reported.
-/

set_option autoImplicit false

namespace VmHandler

open VmHandler.Json VmHandler.Dump

/-- A method opens one bracket of its own and one more inside for each list. -/
theorem Method.Description.depth_document_le (d : Description) : d.document.depth ≤ 2 := by
  have hlist {α : Type} {document : α → Document} (h : ∀ x, (document x).depth = 0)
      (xs : List α) : (Document.list (xs.map document)).depth ≤ 1 := by
    refine Nat.succ_le_succ (Document.depthOfItems_le_iff.mpr fun d hd => ?_)
    obtain ⟨x, -, rfl⟩ := List.mem_map.mp hd
    exact Nat.le_of_eq (h x)
  have hentry {α : Type} (key : String) (value : Option α) {document : α → Document}
      (h : ∀ x, (document x).depth ≤ 1) :
      Document.depthOfEntries (entryOf key (value.map document)) ≤ 1 := by
    rw [Document.depthOfEntries_le_iff]
    cases value with
    | none => exact fun e he => absurd he List.not_mem_nil
    | some x => exact fun e he => List.mem_singleton.mp he ▸ h x
  refine Nat.succ_le_succ ?_
  simp only [Document.depthOfEntries_append, Nat.max_le]
  exact ⟨Nat.zero_le 1, hentry _ _ fun _ => Nat.zero_le 1, hentry _ _ fun _ => Nat.zero_le 1,
    hentry _ _ fun _ => Nat.zero_le 1, hentry _ _ (hlist fun _ => rfl),
    hentry _ _ (hlist fun _ => rfl)⟩

namespace Module

theorem ofDump_cases (dump : Dump) :
    (∃ m, ofDump dump = .ok m) ∨ ∃ defect, ofDump dump = .error (.defect defect) := by
  rw [ofDump]
  cases Module.build dump.name dump.types with
  | ok m => exact .inl ⟨m, rfl⟩
  | error defect => exact .inr ⟨defect, rfl⟩

/-- Whatever a description leaves out, building it and reading a text that spells it come to the
same thing. A method whose token is not null is built and read with the defaults for what is left
out: no name, no modifiers, no return value, no parameters and no local variables. A type of whose
tokens none is null and whose methods, like those of all types in it, have distinct tokens is built,
and the same type is read from every text of it that does not nest too deeply. Of a forest of such
types, either the same module is built and read, or the same defect is reported. A text that nests
deeper may be refused, but nothing else is read from it. -/
theorem built_as_read :
    (∀ d : Method.Description, d.token.isNull = false →
      ∀ s, Dump.Place.method.Spells d.document s →
        d.build = .ok d.method ∧ Method.ofJson s = .ok d.method) ∧
    (∀ d : TypeDecl.Description, d.Sound → ∀ s, Dump.Place.type.Spells d.document s →
      ∃ t, d.build = .ok t ∧ (nesting s ≤ 127 → TypeDecl.ofJson s = .ok t) ∧
        ∀ u, TypeDecl.ofJson s = .ok u → u = t) ∧
    ∀ d : Module.Description, (∀ t ∈ d.types.getD [], t.Sound) →
      ∀ s, Dump.Place.module.Spells d.document s →
        (nesting s ≤ 127 →
          (∃ m, d.build = .ok m ∧ ofJson s = .ok m) ∨
          ∃ defect, d.build = .error (.defect defect) ∧ ofJson s = .error (.defect defect)) ∧
        ∀ m, ofJson s = .ok m → d.build = .ok m := by
  refine ⟨?methods, ?types, ?modules⟩
  case methods =>
    intro d hnull s hs
    have hdepth : d.document.depth ≤ maxBrackets := d.depth_document_le.trans (by decide)
    have hread := toOption_methodOfJson hs
    rw [d.means_document maxBrackets, if_pos hdepth] at hread
    exact ⟨d.build_eq_ok hnull, toOption_eq_some_iff.mp hread⟩
  case types =>
    intro d hsound s hs
    obtain ⟨t, hbuild, hmeans⟩ := hsound.exists_build
    have hread := toOption_typeOfJson hs
    exact ⟨t, hbuild, eq_ok_of_means hmeans hs hread, fun u => eq_of_means hmeans hread⟩
  case modules =>
    intro d hsound s hs
    obtain ⟨dump, hbuild, hmeans⟩ := Description.exists_build hsound
    have hread := toOption_ofOctets hs
    rw [hbuild]
    refine ⟨fun hdepth => ?_, fun m hm => ?_⟩
    · rw [ofJson, ofOctets_of_dump (eq_ok_of_means hmeans hs hread hdepth)]
      rcases ofDump_cases dump with ⟨m, hm⟩ | ⟨defect, hdefect⟩
      · exact .inl ⟨m, hm, hm⟩
      · exact .inr ⟨defect, hdefect, hdefect⟩
    · have hdump := eq_of_means hmeans hread (ofOctets_eq_ok_iff.mp hm)
      rw [← hdump]
      exact ofDump_eq_ok_iff.mpr rfl

/-- A type that declares a method, of both of which nothing but the token is said, and nested in it
a type that declares the same method. -/
def clashing : TypeDecl.Description where
  token := ⟨0x02000002⟩
  methods := some [{ token := ⟨0x06000001⟩ }]
  nested := some
    [{ token := ⟨0x02000003⟩, name := some "T",
       methods := some [{ token := ⟨0x06000001⟩, flags := some 0x0016 }] }]

theorem sound_clashing : clashing.Sound := by
  refine .intro (by decide) (by decide) (by decide) fun t ht => ?_
  rw [List.mem_singleton.mp ht]
  exact .intro (by decide) (by decide) (by decide) nofun

/-- The nested type, as it is built. -/
def clashingInner : TypeDecl :=
  ⟨⟨0x02000003⟩, "", "T", [{ token := ⟨0x06000001⟩, modifiers := .ofFlags 0x0016 }], []⟩

/-- The type around it, as it is built. -/
def clashingOuter : TypeDecl :=
  ⟨⟨0x02000002⟩, "", "", [{ token := ⟨0x06000001⟩ }], [clashingInner]⟩

theorem build_clashing :
    Description.build { types := some [clashing] } =
      .error (.defect (.repeatedMethod ⟨0x06000001⟩)) := by
  have hchecks : Forest.checks [clashingOuter] =
      [.type clashingOuter, .method clashingOuter { token := ⟨0x06000001⟩ }, .type clashingInner,
        .method clashingInner { token := ⟨0x06000001⟩, modifiers := .ofFlags 0x0016 }] := rfl
  have hbuild : build "" [clashingOuter] = .error (.repeatedMethod ⟨0x06000001⟩) := by
    rw [build_eq_error_iff, hchecks]
    simp [firstDefect_cons_iff, Check.fails_type_iff, Check.fails_method_iff, Token.isNull,
      clashingOuter, clashingInner]
  show (build "" [clashingOuter]).mapError Malformed.defect = _
  rw [hbuild]
  rfl

/-- A text of the type. -/
def clashingText : String :=
  "\x7b\"token\":\"0x02000002\",\"methods\":[\x7b\"token\":\"0x06000001\"\x7d]," ++
    "\"nested_types\":[\x7b\"token\":\"0x02000003\",\"name\":\"T\"," ++
    "\"methods\":[\x7b\"token\":\"0x06000001\",\"flags\":22\x7d]\x7d]\x7d"

/-- A method of which only the token is said is read as one that returns nothing, here from a text
that has the token as a numeral. A type is read with the same method in it twice, and no module is
read of it, for the reason for which none is built. -/
theorem built_as_read_clashing :
    Method.ofJson "\x7b\"token\":100663297\x7d" =
      .ok { token := ⟨0x06000001⟩, returns := .void } ∧
    TypeDecl.ofJson clashingText = .ok clashingOuter ∧
    ofJson ("\x7b\"types\":[" ++ clashingText ++ "]\x7d") =
      .error (.defect (.repeatedMethod ⟨0x06000001⟩)) := by
  obtain ⟨hmethods, htypes, hmodules⟩ := built_as_read
  have hwritten {d : Document} {s : String} (h : s = String.ofList d.chars) : d.Written s :=
    h ▸ d.written_chars
  have hmethod : Dump.Place.method.Spells
      (Method.Description.document { token := ⟨0x06000001⟩ })
      "\x7b\"token\":100663297\x7d" :=
    ⟨_, .single (.value (q := .token) (by decide) [] []
      (.toNumeral (t := ⟨0x06000001⟩) (by decide))), hwritten (by decide +kernel)⟩
  have htype : clashing.document.Written clashingText := hwritten (by decide +kernel)
  have hmodule : (Description.document { types := some [clashing] }).Written
      ("\x7b\"types\":[" ++ clashingText ++ "]\x7d") := hwritten (by decide +kernel)
  refine ⟨?method, ?type, ?module⟩
  case method =>
    exact (hmethods _ rfl _ hmethod).2
  case type =>
    obtain ⟨t, hbuild, hread, -⟩ :=
      htypes clashing sound_clashing _ (Dump.Place.spells_of_written htype)
    have hshallow := hread ((nesting_of_written htype).trans_le (by decide))
    rwa [← Except.ok.inj hbuild] at hshallow
  case module =>
    have hsound : ∀ t ∈ (some [clashing]).getD [], t.Sound := by
      intro t ht
      rw [List.mem_singleton.mp ht]
      exact sound_clashing
    obtain ⟨hread, -⟩ := hmodules { types := some [clashing] } hsound _
      (Dump.Place.spells_of_written hmodule)
    have hshallow := hread ((nesting_of_written hmodule).trans_le (by decide))
    rcases hshallow with ⟨m, hbuild, -⟩ | ⟨defect, hbuild, herror⟩
    · rw [build_clashing] at hbuild
      contradiction
    · rw [build_clashing] at hbuild
      rwa [← Except.error.inj hbuild] at herror

end Module

end VmHandler
