import VmHandler.Proofs.Respelling
import VmHandler.Proofs.TextNesting

/-!
# Texts that spell a document

A text spells a document if it holds the document or the same document in another spelling. All that
spell one document are read alike, and none of them nests less deeply than the document: a spelling
may add brackets in what is skipped, but it takes none away.
-/

set_option autoImplicit false

namespace VmHandler.Dump

open VmHandler.Json

/-- The text holds the document, or what any number of steps make of it where `p` stands. -/
def Place.Spells (p : Place) (d : Document) (s : String) : Prop :=
  ∃ d', Relation.ReflTransGen (Respelled p) d d' ∧ d'.Written s

theorem Place.spells_of_written {p : Place} {d : Document} {s : String} (h : d.Written s) :
    p.Spells d s :=
  ⟨d, .refl, h⟩

/-! ## Nesting -/

/-- No step takes brackets away. -/
theorem Respelled.depth_le {p : Place} {d d' : Document} (h : Respelled p d d') :
    d.depth ≤ d'.depth := by
  induction h with
  | reorder hp hperm =>
      exact Nat.succ_le_succ (Document.depthOfEntries_le_of_forall fun e he =>
        ⟨e, hperm.subset he, Nat.le_refl _⟩)
  | add hp hkey es es' d =>
      refine Nat.succ_le_succ (Document.depthOfEntries_le_of_forall fun e he =>
        ⟨e, ?_, Nat.le_refl _⟩)
      rw [List.mem_append] at he ⊢
      exact he.imp_right (List.mem_cons_of_mem _)
  | @value p q key hq es es' d d' _ ih =>
      refine Nat.succ_le_succ (Document.depthOfEntries_le_of_forall fun e he => ?_)
      rw [List.mem_append, List.mem_cons] at he
      rcases he with he | rfl | he
      · exact ⟨e, List.mem_append_left _ he, Nat.le_refl _⟩
      · exact ⟨(some key, d'), List.mem_append_right _ List.mem_cons_self, ih⟩
      · exact ⟨e, List.mem_append_right _ (List.mem_cons_of_mem _ he), Nat.le_refl _⟩
  | @item p q hq ds ds' d d' _ ih =>
      have hbound := Document.depthOfItems_le_iff.mp
        (Nat.le_refl (Document.depthOfItems (ds ++ d' :: ds')))
      refine Nat.succ_le_succ (Document.depthOfItems_le_iff.mpr fun x hx => ?_)
      rw [List.mem_append, List.mem_cons] at hx
      rcases hx with hx | rfl | hx
      · exact hbound x (List.mem_append_left _ hx)
      · exact ih.trans (hbound d' (List.mem_append_right _ List.mem_cons_self))
      · exact hbound x (List.mem_append_right _ (List.mem_cons_of_mem _ hx))
  | toNumeral => exact Nat.le_refl 0
  | toText => exact Nat.le_refl 0
  | flags => exact Nat.le_refl 0

theorem depth_le_of_respelled {p : Place} {d d' : Document}
    (h : Relation.ReflTransGen (Respelled p) d d') : d.depth ≤ d'.depth := by
  induction h with
  | refl => exact Nat.le_refl _
  | tail _ hstep ih => exact ih.trans hstep.depth_le

theorem Place.Spells.depth_le_nesting {p : Place} {d : Document} {s : String}
    (h : p.Spells d s) : d.depth ≤ nesting s := by
  obtain ⟨d', hrespelled, hwritten⟩ := h
  rw [nesting_of_written hwritten]
  exact depth_le_of_respelled hrespelled

/-! ## Reading -/

/-- What is found in the document is read from every text that spells it. -/
theorem Place.Spells.toOption_readWhole {p : Place} {d : Document} {s : String} {α : Type}
    {read : Step α} {brackets : Nat} (h : p.Spells d s) (hsteady : Steady read)
    (halike : ∀ d', p.Alike brackets d d' → found read d = found read d') :
    (readWhole read (octets s)).toOption = found read d := by
  obtain ⟨d', hrespelled, hwritten⟩ := h
  rw [readWhole_of_written hsteady hwritten]
  exact (halike d' (alike_of_respelled hrespelled brackets)).symm

section Reading

variable {d : Document} {s : String}

theorem toOption_methodOfJson (h : Place.method.Spells d s) :
    (Method.ofJson s).toOption = found (readMethod maxBrackets) d :=
  h.toOption_readWhole (steady_readMethod maxBrackets) fun _ halike => halike

theorem toOption_typeOfJson (h : Place.type.Spells d s) :
    (TypeDecl.ofJson s).toOption = found (readType maxBrackets) d :=
  h.toOption_readWhole (steady_readType_and_readTypes maxBrackets).1 fun _ halike => halike

theorem toOption_ofOctets (h : Place.module.Spells d s) :
    (Dump.ofOctets (octets s)).toOption = found (read maxBrackets) d :=
  h.toOption_readWhole (finds_read 126).steady fun _ halike => halike

end Reading

end VmHandler.Dump
