import Mathlib.Data.Finset.Card
import VmHandler.Method

/-!
# Local variables

The types of the local variables of a method count as a set. Asking for names asks whether the set
contains them, so more local variables and fewer names never turn a yes into a no, and neither order
nor repetition matters on either side. The names that are not in the set are listed as they were
asked for, repetitions included.
-/

set_option autoImplicit false

namespace VmHandler

namespace Method

variable {m n : Method} {names names' : List String} {name : String}

/-! ## Declared types -/

theorem declares_iff : m.declares name = true ↔ name ∈ m.locals := by
  rw [declares, List.contains_iff_mem]

theorem declaresAll_iff : m.declaresAll names = true ↔ ∀ name ∈ names, name ∈ m.locals := by
  simp only [declaresAll, List.all_eq_true, declares_iff]

/-- More local variables declare all of fewer names. -/
theorem declaresAll_mono (hlocals : m.locals ⊆ n.locals) (hnames : names' ⊆ names)
    (h : m.declaresAll names = true) : n.declaresAll names' = true := by
  rw [declaresAll_iff] at h ⊢
  intro name hname
  exact hlocals (h name (hnames hname))

/-- Only the sets on both sides decide. -/
theorem declaresAll_congr (hlocals : ∀ name, name ∈ m.locals ↔ name ∈ n.locals)
    (hnames : ∀ name, name ∈ names ↔ name ∈ names') :
    m.declaresAll names = n.declaresAll names' := by
  rw [Bool.eq_iff_iff]
  constructor
  · exact declaresAll_mono (fun name => (hlocals name).mp) fun name => (hnames name).mpr
  · exact declaresAll_mono (fun name => (hlocals name).mpr) fun name => (hnames name).mp

/-- Without the local variables of one of the types they are not all declared. -/
theorem declaresAll_without (hname : name ∈ names) :
    ({ m with locals := m.locals.filter (· ≠ name) } : Method).declaresAll names = false := by
  rw [Bool.eq_false_iff, ne_eq, declaresAll_iff]
  intro h
  have hkept : name ∈ m.locals.filter (· ≠ name) := h name hname
  rw [List.mem_filter] at hkept
  exact of_decide_eq_true hkept.2 rfl

/-! ## Undeclared types -/

theorem mem_undeclared_iff : name ∈ m.undeclared names ↔ name ∈ names ∧ name ∉ m.locals := by
  simp only [undeclared, List.mem_filter, Bool.not_eq_true', ← Bool.not_eq_true, declares_iff]

theorem undeclared_sublist (m : Method) (names : List String) :
    (m.undeclared names).Sublist names :=
  List.filter_sublist

theorem undeclared_eq_nil_iff : m.undeclared names = [] ↔ m.declaresAll names = true := by
  simp only [undeclared, List.filter_eq_nil_iff, declaresAll, List.all_eq_true,
    Bool.not_eq_true', Bool.not_eq_false]

theorem count_undeclared (m : Method) (names : List String) (name : String) :
    (m.undeclared names).count name = if name ∈ m.locals then 0 else names.count name := by
  by_cases hname : name ∈ m.locals
  · rw [if_pos hname, List.count_eq_zero, mem_undeclared_iff]
    exact fun h => h.2 hname
  · have hkept : (!m.declares name) = true := by
      rwa [Bool.not_eq_true', ← Bool.not_eq_true, declares_iff]
    rw [if_neg hname]
    exact List.count_filter hkept

/-- A part of the names, in their order, is that of the undeclared ones if it has each undeclared
name as often as it was asked for and no other name. -/
theorem eq_undeclared_iff {xs : List String} :
    xs = m.undeclared names ↔
      xs.Sublist names ∧
        ∀ name, xs.count name = if name ∈ m.locals then 0 else names.count name := by
  constructor
  · rintro rfl
    exact ⟨m.undeclared_sublist names, m.count_undeclared names⟩
  · rintro ⟨hsublist, hcount⟩
    have hperm : xs.Perm (m.undeclared names) := by
      rw [List.perm_iff_count]
      intro name
      rw [hcount, count_undeclared]
    -- nothing of the part is lost when its declared names are dropped
    have hkept : m.undeclared xs = xs := by
      rw [undeclared, List.filter_eq_self]
      intro name hname
      rw [Bool.not_eq_true', ← Bool.not_eq_true, declares_iff]
      exact (mem_undeclared_iff.mp (hperm.mem_iff.mp hname)).2
    have hsublist' : (m.undeclared xs).Sublist (m.undeclared names) := hsublist.filter _
    rw [hkept] at hsublist'
    exact hsublist'.eq_of_length hperm.length_eq

/-! ## Distinct types -/

/-- Erasing repetitions leaves each member once. The recursion is on the length, since what stands
behind the first member is filtered before it is looked at. -/
theorem nodup_eraseDups {α : Type} [BEq α] [LawfulBEq α] (xs : List α) : xs.eraseDups.Nodup := by
  match xs with
  | [] =>
      rw [List.eraseDups_nil]
      exact List.nodup_nil
  | x :: xs =>
      rw [List.eraseDups_cons, List.nodup_cons]
      refine ⟨fun hx => ?_, nodup_eraseDups _⟩
      obtain ⟨_, hne⟩ := List.mem_filter.mp (List.mem_eraseDups.mp hx)
      rw [beq_self_eq_true] at hne
      exact Bool.false_ne_true hne
termination_by xs.length
decreasing_by exact Nat.lt_succ_of_le (List.length_filter_le _ xs)

theorem length_distinctLocals (m : Method) :
    m.distinctLocals.length = m.locals.toFinset.card := by
  have hset : m.distinctLocals.toFinset = m.locals.toFinset := by
    ext name
    rw [List.mem_toFinset, List.mem_toFinset, distinctLocals, List.mem_eraseDups]
  rw [← hset]
  exact (List.toFinset_card_of_nodup (nodup_eraseDups m.locals)).symm

theorem length_distinctLocals_le (m : Method) : m.distinctLocals.length ≤ m.locals.length := by
  rw [length_distinctLocals]
  exact m.locals.toFinset_card_le

theorem length_distinctLocals_eq_zero_iff : m.distinctLocals.length = 0 ↔ m.locals = [] := by
  rw [length_distinctLocals, Finset.card_eq_zero, List.toFinset_eq_empty_iff]

/-! ## Main result -/

/-- All of some names are declared if each of them is the type of some local variable. Neither the
order of the local variables or the names matters nor how often one is repeated; more local
variables keep all names declared, and without the local variables of one of the types they are not
all declared. The undeclared names are the part of the names, in their order and with their
repetitions, that are the type of no local variable, and there are none exactly if all are declared.
The distinct types are as many as there are different ones among the local variables. -/
theorem locals_count_as_set (m : Method) (names : List String) :
    (m.declaresAll names = true ↔ ∀ name ∈ names, ∃ typeName ∈ m.locals, typeName = name) ∧
    (∀ ls names' : List String, (∀ name, name ∈ ls ↔ name ∈ m.locals) →
      (∀ name, name ∈ names' ↔ name ∈ names) →
        ({ m with locals := ls } : Method).declaresAll names' = m.declaresAll names) ∧
    (∀ ls : List String, m.locals ⊆ ls → m.declaresAll names = true →
      ({ m with locals := ls } : Method).declaresAll names = true) ∧
    (∀ name ∈ names,
      ({ m with locals := m.locals.filter (· ≠ name) } : Method).declaresAll names = false) ∧
    (∀ xs, m.undeclared names = xs ↔
      xs.Sublist names ∧
        ∀ name, xs.count name = if name ∈ m.locals then 0 else names.count name) ∧
    (m.undeclared names = [] ↔ m.declaresAll names = true) ∧
    m.distinctLocals.length = m.locals.toFinset.card ∧
    m.distinctLocals.length ≤ m.locals.length ∧
    (m.distinctLocals.length = 0 ↔ m.locals = []) := by
  refine ⟨?_, ?_, ?_, fun name hname => declaresAll_without hname, ?_, undeclared_eq_nil_iff,
    m.length_distinctLocals, m.length_distinctLocals_le, length_distinctLocals_eq_zero_iff⟩
  · rw [declaresAll_iff]
    simp only [exists_eq_right]
  · intro ls names' hlocals hnames
    exact declaresAll_congr hlocals hnames
  · intro ls hlocals
    exact declaresAll_mono hlocals (List.Subset.refl names)
  · intro xs
    rw [eq_comm, eq_undeclared_iff]

/-- A method with two local variables of one type and one of another. -/
def twoIntegers : Method :=
  { token := ⟨0x06000001⟩, locals := ["System.Int32", "System.Object", "System.Int32"] }

/-- Another order without the repetition, one type more, and no integer any more. -/
theorem locals_count_as_set_twoIntegers :
    twoIntegers.declaresAll ["System.Object", "System.Int32", "System.Object"] = true ∧
    ({ twoIntegers with locals := ["System.Object", "System.Int32"] } : Method).declaresAll
      ["System.Int32", "System.Object"] = true ∧
    ({ twoIntegers with locals := "System.Type[]" :: twoIntegers.locals } : Method).declaresAll
      ["System.Object", "System.Int32", "System.Object"] = true ∧
    ({ twoIntegers with locals := twoIntegers.locals.filter (· ≠ "System.Int32") } :
      Method).declaresAll ["System.Object", "System.Int32", "System.Object"] = false ∧
    twoIntegers.undeclared ["System.Type[]", "System.Object", "System.Type[]"] =
      ["System.Type[]", "System.Type[]"] ∧
    twoIntegers.distinctLocals.length = 2 := by
  obtain ⟨hall, hsets, hmore, hwithout, _, _, hdistinct, _⟩ :=
    locals_count_as_set twoIntegers ["System.Object", "System.Int32", "System.Object"]
  have hdeclared : twoIntegers.declaresAll
      ["System.Object", "System.Int32", "System.Object"] = true := hall.mpr (by decide)
  have hother : ({ twoIntegers with locals := ["System.Object", "System.Int32"] } :
      Method).declaresAll ["System.Int32", "System.Object"] = true := by
    rw [hsets _ _ (by simp [twoIntegers, or_comm]) (by simp [or_comm])]
    exact hdeclared
  exact ⟨hdeclared, hother, hmore _ (List.subset_cons_self _ _) hdeclared,
    hwithout "System.Int32" (by decide), by decide, hdistinct.trans (by decide)⟩

end Method

end VmHandler
