import VmHandler.TypeDecl

/-!
# Forests of types

The types of a module are visited in preorder: a type, then the types nested in it, then the next
type. `preorder` says so by recursion on the trees; `traverse` reaches the same order with a stack
of the types that are still to be visited, and is what runs.
-/

set_option autoImplicit false

namespace VmHandler

/-- Types side by side, each with the types nested in it. -/
abbrev Forest := List TypeDecl

/-! ## By recursion on the trees -/

mutual

/-- The number of types in a tree. -/
def TypeDecl.size : TypeDecl → Nat
  | ⟨_, _, _, _, nested⟩ => Forest.size nested + 1

/-- The number of types in a forest. -/
def Forest.size : List TypeDecl → Nat
  | [] => 0
  | t :: ts => TypeDecl.size t + Forest.size ts

end

mutual

/-- A type, then the types nested in it. -/
def TypeDecl.preorder : TypeDecl → List TypeDecl
  | ⟨token, space, name, methods, nested⟩ =>
      ⟨token, space, name, methods, nested⟩ :: Forest.preorder nested

/-- Each type of the forest, directly followed by the types nested in it. -/
def Forest.preorder : List TypeDecl → List TypeDecl
  | [] => []
  | t :: ts => TypeDecl.preorder t ++ Forest.preorder ts

end

theorem TypeDecl.size_eq (t : TypeDecl) : t.size = Forest.size t.nested + 1 := by
  cases t
  rfl

namespace Forest

theorem size_append (us ts : Forest) : size (us ++ ts) = size us + size ts := by
  induction us with
  | nil => rw [List.nil_append, size, Nat.zero_add]
  | cons u us ih => rw [List.cons_append, size, size, ih, Nat.add_assoc]

theorem size_reverse (ts : Forest) : size ts.reverse = size ts := by
  induction ts with
  | nil => rfl
  | cons t ts ih =>
      rw [List.reverse_cons, size_append, ih, size, size, size, Nat.add_zero, Nat.add_comm]

end Forest

/-! ## With a stack -/

/-- A visit under way. -/
structure Visit where
  /-- The roots of the trees that are still to be visited, the next one last. -/
  pending : Array TypeDecl
  /-- The types visited so far, in order. -/
  visited : Array TypeDecl

namespace Visit

/-- The visit of a forest before any of its types is visited. -/
def start (forest : Forest) : Visit := ⟨forest.reverse.toArray, #[]⟩

/-- The visit after one type more, whose nested types then come next, in order. -/
def next? (v : Visit) : Option Visit :=
  match v.pending.back? with
  | none => none
  | some t => some ⟨v.pending.pop ++ t.nested.reverse.toArray, v.visited.push t⟩

/-- The number of types that are still to be visited. -/
def left (v : Visit) : Nat := Forest.size v.pending.toList

theorem next?_eq_none_iff {v : Visit} : v.next? = none ↔ v.pending = #[] := by
  rw [next?, ← Array.back?_eq_none_iff]
  cases v.pending.back? <;> simp

/-- Each step visits the root of the tree on top and leaves the trees below it. -/
theorem next?_eq_some_iff {v w : Visit} :
    v.next? = some w ↔
      ∃ below t, v.pending = below.push t ∧
        w = ⟨below ++ t.nested.reverse.toArray, v.visited.push t⟩ := by
  rw [next?]
  constructor
  · intro h
    split at h
    · contradiction
    · rename_i t hback
      obtain ⟨below, hpending⟩ := Array.back?_eq_some_iff.mp hback
      refine ⟨below, t, hpending, ?_⟩
      rw [← Option.some.inj h, hpending, Array.pop_push]
  · rintro ⟨below, t, hpending, rfl⟩
    rw [hpending, Array.back?_push, Array.pop_push]

theorem left_of_next?_eq_some {v w : Visit} (h : v.next? = some w) : v.left = w.left + 1 := by
  obtain ⟨below, t, hpending, rfl⟩ := next?_eq_some_iff.mp h
  simp only [left, hpending, Array.toList_push, Array.toList_append, Forest.size_append,
    Forest.size_reverse, Forest.size, t.size_eq, Nat.add_assoc, Nat.add_zero]

/-- The visit once nothing is pending. -/
def finish (v : Visit) : Visit :=
  match h : v.next? with
  | none => v
  | some w =>
      have : w.left < v.left := by
        rw [left_of_next?_eq_some h]
        exact Nat.lt_succ_self _
      finish w
termination_by v.left

end Visit

/-- The types of the forest in the order of the visit. -/
def Forest.traverse (forest : Forest) : List TypeDecl := (Visit.start forest).finish.visited.toList

end VmHandler
