import Mathlib.Data.List.Nodup
import VmHandler.Proofs.Catalog

/-!
# The order of the visit

Every turn of a visit leaves the order alone in which the types will have been visited in the end:
the types visited so far and then the pending trees in preorder. So the visit ends, after as many
turns as there are types, with the preorder of the forest. In that order a type stands directly
before the block of the types nested in it, and that block before the next type beside it.
-/

set_option autoImplicit false

namespace VmHandler

theorem TypeDecl.preorder_eq (t : TypeDecl) : t.preorder = t :: Forest.preorder t.nested := by
  cases t
  rfl

namespace Forest

theorem preorder_cons (t : TypeDecl) (ts : Forest) :
    preorder (t :: ts) = t :: preorder t.nested ++ preorder ts := by
  rw [preorder, t.preorder_eq]

theorem preorder_append (us ts : Forest) : preorder (us ++ ts) = preorder us ++ preorder ts := by
  induction us with
  | nil => rfl
  | cons u us ih => rw [List.cons_append, preorder_cons, preorder_cons, ih, List.append_assoc]

mutual

theorem length_typePreorder : ∀ t : TypeDecl, t.preorder.length = t.size
  | ⟨_, _, _, _, nested⟩ => by
      rw [TypeDecl.preorder, TypeDecl.size, List.length_cons, length_preorder nested]

theorem length_preorder : ∀ ts : Forest, (preorder ts).length = size ts
  | [] => rfl
  | t :: ts => by
      rw [preorder, size, List.length_append, length_typePreorder t, length_preorder ts]

end

end Forest

/-! ## The visit -/

namespace Visit

/-- The types in the order in which they will have been visited in the end. -/
def order (v : Visit) : List TypeDecl :=
  v.visited.toList ++ Forest.preorder v.pending.toList.reverse

theorem order_of_next?_eq_some {v w : Visit} (h : v.next? = some w) : w.order = v.order := by
  obtain ⟨below, t, hpending, rfl⟩ := next?_eq_some_iff.mp h
  simp only [order, hpending, Array.toList_push, Array.toList_append, List.reverse_append,
    List.reverse_reverse, List.reverse_cons, List.reverse_nil, List.nil_append, List.cons_append,
    Forest.preorder_append, Forest.preorder_cons, List.append_assoc]

theorem left_eq_zero_iff {v : Visit} : v.left = 0 ↔ v.next? = none := by
  constructor
  · intro h
    cases hnext : v.next? with
    | none => rfl
    | some w =>
        rw [left_of_next?_eq_some hnext] at h
        contradiction
  · intro h
    rw [left, next?_eq_none_iff.mp h]
    rfl

/-- The visit after a number of turns, unless it ends before. -/
def turns : Nat → Visit → Option Visit
  | 0, v => some v
  | n + 1, v =>
      match v.next? with
      | none => none
      | some w => turns n w

/-- A visit ends after one turn for each type that is left. -/
theorem turns_left (v : Visit) : v.turns v.left = some v.finish ∧ v.finish.next? = none := by
  induction v using Visit.finish.induct with
  | case1 v h =>
      have hfinish : v.finish = v := by
        rw [finish]
        split <;> simp_all
      rw [left_eq_zero_iff.mpr h, hfinish]
      exact ⟨rfl, h⟩
  | case2 v w h hlt ih =>
      have hfinish : v.finish = w.finish := by
        rw [finish]
        split <;> simp_all
      rw [left_of_next?_eq_some h, turns, h, hfinish]
      exact ih

theorem order_of_turns {n : Nat} {v w : Visit} (h : v.turns n = some w) : w.order = v.order := by
  induction n generalizing v with
  | zero => rw [Option.some.inj h]
  | succ n ih =>
      rw [turns] at h
      split at h
      · contradiction
      · rename_i next hnext
        rw [ih h, order_of_next?_eq_some hnext]

theorem visited_of_next?_eq_none {v : Visit} (h : v.next? = none) : v.visited.toList = v.order := by
  rw [order, next?_eq_none_iff.mp h]
  exact (List.append_nil _).symm

theorem order_start (forest : Forest) : (start forest).order = Forest.preorder forest := by
  rw [order, start, List.reverse_reverse]
  rfl

theorem left_start (forest : Forest) : (start forest).left = Forest.size forest :=
  Forest.size_reverse forest

end Visit

namespace Forest

/-- The stack gives the order that the recursion on the trees gives. -/
theorem traverse_eq_preorder (forest : Forest) : traverse forest = preorder forest := by
  obtain ⟨hturns, hend⟩ := (Visit.start forest).turns_left
  rw [traverse, Visit.visited_of_next?_eq_none hend, Visit.order_of_turns hturns,
    Visit.order_start]

end Forest

/-! ## Types of a forest -/

/-- A type is within a forest if it is one of the roots or nested in a root at any depth. -/
inductive Within (t : TypeDecl) : Forest → Prop where
  /-- it is a root -/
  | root {forest : Forest} (mem : t ∈ forest) : Within t forest
  /-- it is nested in a root -/
  | nested {forest : Forest} {u : TypeDecl} (mem : u ∈ forest) (inner : Within t u.nested) :
      Within t forest

/-- Types declared side by side: the roots of a forest, or those nested directly in one type. -/
inductive Siblings (forest : Forest) : List TypeDecl → Prop where
  /-- the roots -/
  | roots : Siblings forest forest
  /-- the types nested directly in one type of the forest -/
  | nested {t : TypeDecl} (within : Within t forest) : Siblings forest t.nested

namespace Forest

/-- The block of a root is a root and the types nested in it. -/
theorem infix_of_mem {forest : Forest} {t : TypeDecl} (h : t ∈ forest) :
    (t :: preorder t.nested) <:+: preorder forest := by
  obtain ⟨before, after, rfl⟩ := List.append_of_mem h
  rw [preorder_append, preorder_cons]
  exact ⟨preorder before, preorder after, by rw [List.append_assoc]⟩

theorem nested_infix_block (t : TypeDecl) : preorder t.nested <:+: t :: preorder t.nested :=
  ⟨[t], [], List.append_nil _⟩

/-- The preorder of a forest holds that of every type in it. -/
theorem infix_of_within {forest : Forest} {t : TypeDecl} (h : Within t forest) :
    (t :: preorder t.nested) <:+: preorder forest := by
  induction h with
  | root mem => exact infix_of_mem mem
  | @nested forest u mem inner ih =>
      exact ih.trans ((nested_infix_block u).trans (infix_of_mem mem))

theorem infix_of_siblings {forest siblings : Forest} (h : Siblings forest siblings) :
    preorder siblings <:+: preorder forest := by
  cases h with
  | roots => exact List.infix_refl _
  | nested within => exact (nested_infix_block _).trans (infix_of_within within)

mutual

theorem within_of_mem_typePreorder {t : TypeDecl} :
    ∀ u : TypeDecl, t ∈ u.preorder → t = u ∨ Within t u.nested
  | ⟨_, _, _, _, nested⟩, h => by
      rw [TypeDecl.preorder, List.mem_cons] at h
      exact h.imp_right (within_of_mem_preorder nested)

theorem within_of_mem_preorder {t : TypeDecl} : ∀ us : Forest, t ∈ preorder us → Within t us
  | [], h => absurd h List.not_mem_nil
  | u :: us, h => by
      rw [preorder, List.mem_append] at h
      rcases h with h | h
      · rcases within_of_mem_typePreorder u h with rfl | h
        · exact .root List.mem_cons_self
        · exact .nested List.mem_cons_self h
      · cases within_of_mem_preorder us h with
        | root mem => exact .root (List.mem_cons_of_mem u mem)
        | nested mem inner => exact .nested (List.mem_cons_of_mem u mem) inner

end

theorem mem_preorder_iff {forest : Forest} {t : TypeDecl} : t ∈ preorder forest ↔ Within t forest :=
  ⟨within_of_mem_preorder forest, fun h => (infix_of_within h).subset List.mem_cons_self⟩

end Forest

/-! ## The types of a module -/

namespace Module

theorem types_eq_preorder (m : Module) : m.types = Forest.preorder m.topLevel := by
  rw [m.types_eq, Forest.traverse_eq_preorder]

theorem nodup_types (m : Module) : m.types.Nodup := List.Nodup.of_map _ m.nodup_tokens

/-- No type stands at two positions. -/
theorem index_eq {m : Module} {i j : Nat} {t : TypeDecl} (hi : m.types[i]? = some t)
    (hj : m.types[j]? = some t) : i = j := by
  obtain ⟨hlt, _⟩ := List.getElem?_eq_some_iff.mp hi
  exact (List.getElem?_inj hlt m.nodup_types).mp (hi.trans hj.symm)

theorem index_eq_length {m : Module} {i : Nat} {t : TypeDecl} {before after : List TypeDecl}
    (hi : m.types[i]? = some t) (hsplit : m.types = before ++ t :: after) : i = before.length := by
  refine index_eq hi ?_
  rw [hsplit, List.getElem?_append_right (Nat.le_refl _), Nat.sub_self, List.getElem?_cons_zero]

/-- The types nested in a type have the positions directly after it. -/
theorem getElem?_nested {m : Module} {i : Nat} {t : TypeDecl} (hi : m.types[i]? = some t)
    {k : Nat} (hk : k < Forest.size t.nested) :
    m.types[i + 1 + k]? = (Forest.preorder t.nested)[k]? := by
  have hwithin : Within t m.topLevel := by
    rw [← Forest.mem_preorder_iff, ← m.types_eq_preorder]
    exact List.mem_of_getElem? hi
  obtain ⟨before, after, hsplit⟩ := Forest.infix_of_within hwithin
  rw [← m.types_eq_preorder, List.append_assoc, List.cons_append] at hsplit
  have hbehind : i + 1 + k - before.length = k + 1 := by
    have := index_eq_length hi hsplit.symm
    omega
  have hinside : k < (Forest.preorder t.nested).length := by rwa [Forest.length_preorder]
  rw [← hsplit, List.getElem?_append_right (by omega), hbehind, List.getElem?_cons_succ,
    List.getElem?_append_left hinside]

/-- The visit of the types of a module ends, and it visits them in preorder. Each type of the forest
has one position, the types nested in it at any depth have the positions directly after it, and a
type beside it that is declared later comes only after those. -/
theorem types_visited_in_preorder (m : Module) :
    (∃ v, (Visit.start m.topLevel).turns (Forest.size m.topLevel) = some v ∧ v.next? = none ∧
      v.visited.toList = m.types) ∧
    m.types = Forest.preorder m.topLevel ∧
    (∀ t, Within t m.topLevel ↔ ∃! i : Nat, m.types[i]? = some t) ∧
    (∀ i t, m.types[i]? = some t → ∀ u, Within u t.nested ↔
      ∃ j, i < j ∧ j ≤ i + Forest.size t.nested ∧ m.types[j]? = some u) ∧
    ∀ before t between u after, Siblings m.topLevel (before ++ t :: between ++ u :: after) →
      ∀ i j, m.types[i]? = some t → m.types[j]? = some u → i + Forest.size t.nested < j := by
  refine ⟨?_, m.types_eq_preorder, ?_, ?_, ?_⟩
  · obtain ⟨hturns, hend⟩ := (Visit.start m.topLevel).turns_left
    rw [Visit.left_start] at hturns
    exact ⟨_, hturns, hend, m.types_eq.symm⟩
  · intro t
    rw [← Forest.mem_preorder_iff, ← m.types_eq_preorder, List.mem_iff_getElem?]
    constructor
    · rintro ⟨i, hi⟩
      exact ⟨i, hi, fun j hj => index_eq hj hi⟩
    · rintro ⟨i, hi, _⟩
      exact ⟨i, hi⟩
  · intro i t hi u
    rw [← Forest.mem_preorder_iff, List.mem_iff_getElem?]
    constructor
    · rintro ⟨k, hk⟩
      have hlt : k < Forest.size t.nested := by
        rw [← Forest.length_preorder]
        exact (List.getElem?_eq_some_iff.mp hk).1
      exact ⟨i + 1 + k, by omega, by omega, (getElem?_nested hi hlt).trans hk⟩
    · rintro ⟨j, hlt, hle, hj⟩
      obtain ⟨k, rfl⟩ : ∃ k, j = i + 1 + k := ⟨j - (i + 1), by omega⟩
      exact ⟨k, (getElem?_nested hi (by omega)).symm.trans hj⟩
  · intro before t between u after hsiblings i j hi hj
    obtain ⟨left, right, hsplit⟩ := Forest.infix_of_siblings hsiblings
    rw [← m.types_eq_preorder] at hsplit
    have hsplitt : m.types = (left ++ Forest.preorder before) ++ t :: (Forest.preorder t.nested ++
        (Forest.preorder (between ++ u :: after) ++ right)) := by
      rw [← hsplit]
      simp only [Forest.preorder_append, Forest.preorder_cons, List.append_assoc,
        List.cons_append]
    have hsplitu : m.types = (left ++ Forest.preorder before ++ t :: Forest.preorder t.nested ++
        Forest.preorder between) ++ u :: (Forest.preorder u.nested ++
        (Forest.preorder after ++ right)) := by
      rw [hsplitt]
      simp only [Forest.preorder_append, Forest.preorder_cons, List.append_assoc,
        List.cons_append]
    have hpositiont := index_eq_length hi hsplitt
    have hpositionu := index_eq_length hj hsplitu
    simp only [List.length_append, List.length_cons, Forest.length_preorder] at hpositiont hpositionu
    omega

end Module

end VmHandler
