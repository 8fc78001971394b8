import VmHandler.Proofs.Defects
import VmHandler.Proofs.Position
import VmHandler.Proofs.RoundTrip

/-!
# Ways to load a module

A module is loaded from a text, from the octets of a text, or by a reader that judges the tokens
before it looks at what follows the dump. All of them accept a text exactly if a dump is all that it
holds and the forest of the dump is that of a module, and if the forest is not, all of them tell its
first defect in the same words. They differ only where there is no dump or something follows it:
then the tokens may be judged, or not, but no way leads to a module.
-/

set_option autoImplicit false

namespace VmHandler

open VmHandler.Json

/-! ## Words that are kept -/

/-- What a defect says ends in a word that is no number. -/
theorem Defect.exists_lastWord (d : Defect) :
    ∃ lead word, (Malformed.defect d).message.toList = lead ++ ' ' :: word ∧ ' ' ∉ word ∧
      ∃ c ∈ word, ∀ n, ¬Text.IsDigit 10 c n := by
  have hmessage : (Malformed.defect d).message.toList = "Malformed - ".toList ++ d.message.toList :=
    String.toList_append
  have hnumber (c : Char) (h : Text.digitValue? 10 c = none) (n : Nat) : ¬Text.IsDigit 10 c n := by
    intro hn
    rw [(Text.digitValue?_eq_some_iff (by decide)).mpr hn] at h
    contradiction
  have htoken : ' ' ∉ "token".toList ∧ ∃ c ∈ "token".toList, ∀ n, ¬Text.IsDigit 10 c n :=
    ⟨by decide, 't', by decide, hnumber 't' (by decide)⟩
  -- the mark of the base is no digit
  have htext (t : Token) :
      ' ' ∉ t.text.toList ∧ ∃ c ∈ t.text.toList, ∀ n, ¬Text.IsDigit 10 c n := by
    rw [Token.text, String.toList_ofList]
    refine ⟨fun hmem => ?_, 'x', by simp [Token.chars], hnumber 'x' (by decide)⟩
    have hblank := Token.isBlank_of_mem_chars hmem
    exact absurd hblank (by decide)
  rw [hmessage, d.message_eq]
  cases d with
  | nullType name =>
      exact ⟨"Malformed - Type '".toList ++ name.toList ++ "' has a null".toList, _,
        by simp, htoken⟩
  | repeatedType token => exact ⟨"Malformed - Duplicate type token".toList, _, by simp, htext token⟩
  | nullMethod name owner =>
      exact ⟨"Malformed - Method '".toList ++ name.toList ++ "' of type ".toList ++
        owner.text.toList ++ " has a null".toList, _, by simp, htoken⟩
  | repeatedMethod token =>
      exact ⟨"Malformed - Duplicate method token".toList, _, by simp, htext token⟩

/-- Nothing is taken off the words of a defect as if it were a position. -/
theorem Defect.withoutPosition_message (d : Defect) :
    withoutPosition (Malformed.defect d).message = (Malformed.defect d).message := by
  obtain ⟨lead, word, hmessage, hword, hother⟩ := d.exists_lastWord
  exact withoutPosition_eq_self hmessage hword hother

namespace Module

variable {bs : Octets} {s : String} {d : Dump} {f : Fault}

/-! ## Where a text holds a dump and nothing else -/

theorem ofOctets_of_dump (h : Dump.ofOctets bs = .ok d) : ofOctets bs = ofDump d := by
  have hnonempty : bs.isEmpty = false := by
    cases bs with
    | nil => contradiction
    | cons b bs => rfl
  rw [ofOctets, hnonempty, h]
  rfl

theorem read_of_dump (h : Dump.ofOctets (octets s) = .ok d) :
    read s = (ofDump d).mapError .malformed := by
  rw [Dump.ofOctets, readWhole] at h
  rw [read]
  split at h
  · contradiction
  · rename_i dump rest hdump
    split at h
    · rename_i hend
      rw [hdump, ← Except.ok.inj h]
      cases hmodule : ofDump dump <;> simp [hmodule, hend, Except.mapError]
    · contradiction

/-! ## Where it does not -/

theorem ofOctets_of_fault (h : Dump.ofOctets bs = .error f) :
    ofOctets bs = .error (if bs.isEmpty then .emptyText else .unreadable f) := by
  rw [ofOctets, h]
  split <;> rfl

/-- The tokens are judged although something follows the dump; the fault is the same one otherwise.
-/
theorem read_of_fault (h : Dump.ofOctets (octets s) = .error f) :
    read s = .error (.fault f) ∨
      f = .trailingText ∧ ∃ defect, read s = .error (.malformed (.defect defect)) := by
  rw [Dump.ofOctets, readWhole] at h
  rw [read]
  split at h
  · rename_i fault hfault
    rw [hfault, ← Except.error.inj h]
    exact .inl rfl
  · rename_i dump rest hdump
    split at h
    · contradiction
    · rename_i hend
      have hf := (Except.error.inj h).symm
      cases hbuild : build dump.name dump.types with
      | error defect => exact .inr ⟨hf, defect, by simp [hdump, ofDump, hbuild]⟩
      | ok m => exact .inl (by simp [hdump, ofDump, hbuild, hend, hf])

/-- A module is loaded from a text, from its octets, or by the reader that judges the tokens first,
exactly if the text holds a dump and nothing else and the forest of the dump is that of the module.
If the forest is that of no module, each of the three tells the same defect in the same words, of
which nothing is taken off. If there is no dump or something follows it, each of them fails: the
first two with the fault of the dump, unless there is no text, and the third one with this fault,
too, or with a defect of the dump before what follows it. -/
theorem loading_paths_agree (s : String) :
    (∀ m,
      (ofJson s = .ok m ↔
        ∃ d, Dump.ofOctets (octets s) = .ok d ∧ build d.name d.types = .ok m) ∧
      (ofOctets (octets s) = .ok m ↔ ofJson s = .ok m) ∧ (read s = .ok m ↔ ofJson s = .ok m)) ∧
    (match Dump.ofOctets (octets s) with
    | .ok d =>
        match build d.name d.types with
        | .ok m => ofJson s = .ok m ∧ ofOctets (octets s) = .ok m ∧ read s = .ok m
        | .error defect =>
            ofJson s = .error (.defect defect) ∧ ofOctets (octets s) = .error (.defect defect) ∧
              read s = .error (.malformed (.defect defect))
    | .error f =>
        ofJson s = .error (if (octets s).isEmpty then .emptyText else .unreadable f) ∧
        ofOctets (octets s) = ofJson s ∧
        (read s = .error (.fault f) ∨
          f = .trailingText ∧ ∃ defect, read s = .error (.malformed (.defect defect)))) ∧
    ∀ defect : Defect,
      (ReadFault.malformed (.defect defect)).message = (Malformed.defect defect).message ∧
        withoutPosition (Malformed.defect defect).message = (Malformed.defect defect).message := by
  refine ⟨?modules, ?verdict, fun defect => ⟨rfl, defect.withoutPosition_message⟩⟩
  case verdict =>
    cases hdump : Dump.ofOctets (octets s) with
    | error f => exact ⟨ofOctets_of_fault hdump, rfl, read_of_fault hdump⟩
    | ok d =>
        have hread := read_of_dump hdump
        have hloaded : ofJson s = ofDump d := ofOctets_of_dump hdump
        rw [ofDump] at hread hloaded
        cases hbuild : build d.name d.types with
        | error defect =>
            simp only [hbuild] at hread hloaded ⊢
            exact ⟨hloaded, hloaded, hread⟩
        | ok m =>
            simp only [hbuild] at hread hloaded ⊢
            exact ⟨hloaded, hloaded, hread⟩
  case modules =>
    intro m
    refine ⟨?loaded, Iff.rfl, ?read⟩
    case loaded =>
      rw [ofJson, ofOctets_eq_ok_iff]
      constructor
      · intro hdump
        exact ⟨m.toDump, hdump, build_eq_ok_iff.mpr ⟨rfl, rfl⟩⟩
      · rintro ⟨d, hdump, hbuild⟩
        obtain ⟨hname, hforest⟩ := build_eq_ok_iff.mp hbuild
        rw [hdump, toDump, hname, hforest]
    case read =>
      cases hdump : Dump.ofOctets (octets s) with
      | ok d =>
          rw [read_of_dump hdump, ofJson, ofOctets_of_dump hdump]
          cases ofDump d <;> simp [Except.mapError]
      | error f =>
          rw [ofJson, ofOctets_of_fault hdump]
          rcases read_of_fault hdump with hread | ⟨-, defect, hread⟩ <;> simp [hread]

end Module

end VmHandler
