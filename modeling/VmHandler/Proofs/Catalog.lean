import VmHandler.Module

/-!
# What is in a catalog

Filling a catalog succeeds exactly if the tokens of the types are fresh, and so are those of all
their methods: none is null, none is taken, and no two are equal. What it leaves are the entries of
the types and of the methods, in tables whose order does not matter. Both tables are filled in the
same way, so what it takes to add one more token, or several, is said once for both.
-/

set_option autoImplicit false

namespace VmHandler

namespace Catalog

/-! ## Fresh tokens -/

section Fresh

variable {β : Type}

/-- Tokens that can be added to a table one after the other. -/
structure Fresh (table : Std.ExtTreeMap Token β) (tokens : List Token) : Prop where
  notNull : ∀ t ∈ tokens, t.isNull = false
  notTaken : ∀ t ∈ tokens, t ∉ table
  nodup : tokens.Nodup

variable {table : Std.ExtTreeMap Token β} {tokens : List Token}

theorem mem_insert_iff {k t : Token} {x : β} : t ∈ table.insert k x ↔ t = k ∨ t ∈ table := by
  rw [Std.ExtTreeMap.mem_insert, Std.LawfulEqCmp.compare_eq_iff_eq, eq_comm]

theorem fresh_nil : Fresh table [] :=
  ⟨fun _ h => absurd h List.not_mem_nil, fun _ h => absurd h List.not_mem_nil, List.nodup_nil⟩

/-- The first token is judged by the table, and the others by the table that has it already. -/
theorem fresh_cons_iff {t : Token} (x : β) :
    Fresh table (t :: tokens) ↔
      t.isNull = false ∧ t ∉ table ∧ Fresh (table.insert t x) tokens := by
  constructor
  · rintro ⟨hnull, htaken, hnodup⟩
    obtain ⟨hnew, hnodup⟩ := List.nodup_cons.mp hnodup
    obtain ⟨hnull, hnulls⟩ := List.forall_mem_cons.mp hnull
    obtain ⟨htaken, htakens⟩ := List.forall_mem_cons.mp htaken
    refine ⟨hnull, htaken, hnulls, ?_, hnodup⟩
    intro u hu hmem
    rcases mem_insert_iff.mp hmem with rfl | hmem
    · exact hnew hu
    · exact htakens u hu hmem
  · rintro ⟨hnull, htaken, hnulls, htakens, hnodup⟩
    have hnew : t ∉ tokens := fun hmem => htakens t hmem (mem_insert_iff.mpr (Or.inl rfl))
    refine ⟨List.forall_mem_cons.mpr ⟨hnull, hnulls⟩, ?_, List.nodup_cons.mpr ⟨hnew, hnodup⟩⟩
    refine List.forall_mem_cons.mpr ⟨htaken, fun u hu hmem => ?_⟩
    exact htakens u hu (mem_insert_iff.mpr (Or.inr hmem))

/-- Some tokens are judged by the table, and further ones by the table that has those already. -/
theorem fresh_append_iff {entries : List (Token × β)} :
    Fresh table (entries.map Prod.fst ++ tokens) ↔
      Fresh table (entries.map Prod.fst) ∧ Fresh (table.insertMany entries) tokens := by
  induction entries generalizing table with
  | nil =>
      rw [List.map_nil, List.nil_append, Std.ExtTreeMap.insertMany_nil]
      exact ⟨fun h => ⟨fresh_nil, h⟩, And.right⟩
  | cons entry entries ih =>
      obtain ⟨k, x⟩ := entry
      rw [List.map_cons, List.cons_append, fresh_cons_iff x, ih, fresh_cons_iff x,
        Std.ExtTreeMap.insertMany_cons]
      simp only [and_assoc]

theorem fresh_empty_iff :
    Fresh (∅ : Std.ExtTreeMap Token β) tokens ↔
      (∀ t ∈ tokens, t.isNull = false) ∧ tokens.Nodup :=
  ⟨fun h => ⟨h.notNull, h.nodup⟩, fun h => ⟨h.1, fun _ _ => Std.ExtTreeMap.not_mem_empty, h.2⟩⟩

/-- Entries with distinct tokens are found where they were put. -/
theorem getElem?_ofList_eq_some_iff {entries : List (Token × β)}
    (h : (entries.map Prod.fst).Nodup) {t : Token} {x : β} :
    (Std.ExtTreeMap.ofList entries)[t]? = some x ↔ (t, x) ∈ entries := by
  have hdistinct : entries.Pairwise fun a b => ¬ compare a.1 b.1 = .eq :=
    (List.pairwise_map.mp h).imp fun hne heq => hne (Std.LawfulEqCmp.eq_of_compare heq)
  constructor
  · intro hget
    have hmem : t ∈ entries.map Prod.fst := by
      have hin : t ∈ Std.ExtTreeMap.ofList entries := by
        rw [Std.ExtTreeMap.mem_iff_isSome_getElem?, hget]
        rfl
      rwa [Std.ExtTreeMap.mem_ofList, List.contains_iff_mem] at hin
    obtain ⟨⟨k, y⟩, hentry, rfl⟩ := List.mem_map.mp hmem
    rw [Std.ExtTreeMap.getElem?_ofList_of_mem Std.ReflOrd.compare_self hdistinct hentry] at hget
    rwa [← Option.some.inj hget]
  · exact Std.ExtTreeMap.getElem?_ofList_of_mem Std.ReflOrd.compare_self hdistinct

theorem size_ofList_of_nodup {entries : List (Token × β)} (h : (entries.map Prod.fst).Nodup) :
    (Std.ExtTreeMap.ofList entries).size = entries.length :=
  Std.ExtTreeMap.size_ofList
    ((List.pairwise_map.mp h).imp fun hne heq => hne (Std.LawfulEqCmp.eq_of_compare heq))

end Fresh

/-! ## Methods -/

/-- A method is added where its token is neither null nor taken. -/
theorem addMethod_eq_ok_iff {c c' : Catalog} {owner : TypeDecl} {m : Method} :
    c.addMethod owner m = .ok c' ↔
      m.token.isNull = false ∧ m.token ∉ c.methods ∧
        c' = { c with methods := c.methods.insert m.token (owner, m) } := by
  unfold addMethod
  split
  · rename_i hnull
    simp [hnull]
  · rename_i hnull
    split
    · rename_i htaken
      have hmem : m.token ∈ c.methods := Std.ExtTreeMap.contains_iff_mem.mp htaken
      simp [hmem]
    · rename_i htaken
      have hmem : m.token ∉ c.methods := fun h =>
        htaken (Std.ExtTreeMap.contains_iff_mem.mpr h)
      simp [hnull, hmem, eq_comm]

theorem addMethods_cons_eq_ok_iff {c c' : Catalog} {owner : TypeDecl} {m : Method}
    {ms : List Method} :
    c.addMethods owner (m :: ms) = .ok c' ↔
      ∃ next, c.addMethod owner m = .ok next ∧ next.addMethods owner ms = .ok c' := by
  rw [addMethods]
  cases c.addMethod owner m <;> simp

/-- The entries of the methods that a type declares. -/
def ownEntries (owner : TypeDecl) (ms : List Method) : List (Token × (TypeDecl × Method)) :=
  ms.map fun m => (m.token, (owner, m))

/-- Methods are added where their tokens are fresh. -/
theorem addMethods_eq_ok_iff {owner : TypeDecl} {ms : List Method} {c c' : Catalog} :
    c.addMethods owner ms = .ok c' ↔
      Fresh c.methods ((ownEntries owner ms).map Prod.fst) ∧
        c' = { c with methods := c.methods.insertMany (ownEntries owner ms) } := by
  induction ms generalizing c with
  | nil =>
      rw [addMethods, ownEntries, List.map_nil, Std.ExtTreeMap.insertMany_nil, Except.ok.injEq]
      exact ⟨fun h => ⟨fresh_nil, h.symm⟩, fun h => h.2.symm⟩
  | cons m ms ih =>
      rw [ownEntries, List.map_cons, List.map_cons, ← ownEntries, fresh_cons_iff (owner, m),
        addMethods_cons_eq_ok_iff, Std.ExtTreeMap.insertMany_cons]
      simp only [addMethod_eq_ok_iff, ih]
      constructor
      · rintro ⟨_, ⟨hnull, htaken, rfl⟩, hfresh, rfl⟩
        exact ⟨⟨hnull, htaken, hfresh⟩, rfl⟩
      · rintro ⟨⟨hnull, htaken, hfresh⟩, rfl⟩
        exact ⟨_, ⟨hnull, htaken, rfl⟩, hfresh, rfl⟩

/-! ## Types -/

/-- A type is added where its token is neither null nor taken and its methods can be added. -/
theorem addType_eq_ok_iff {c c' : Catalog} {t : TypeDecl} :
    c.addType t = .ok c' ↔
      t.token.isNull = false ∧ t.token ∉ c.types ∧
        addMethods { c with types := c.types.insert t.token t } t t.methods = .ok c' := by
  unfold addType
  split
  · rename_i hnull
    simp [hnull]
  · rename_i hnull
    split
    · rename_i htaken
      have hmem : t.token ∈ c.types := Std.ExtTreeMap.contains_iff_mem.mp htaken
      simp [hmem]
    · rename_i htaken
      have hmem : t.token ∉ c.types := fun h =>
        htaken (Std.ExtTreeMap.contains_iff_mem.mpr h)
      simp [hnull, hmem]

theorem addTypes_cons_eq_ok_iff {c c' : Catalog} {t : TypeDecl} {ts : List TypeDecl} :
    c.addTypes (t :: ts) = .ok c' ↔ ∃ next, c.addType t = .ok next ∧ next.addTypes ts = .ok c' := by
  rw [addTypes]
  cases c.addType t <;> simp

/-- The entries of types. -/
def typeEntries (ts : List TypeDecl) : List (Token × TypeDecl) := ts.map fun t => (t.token, t)

/-- The entries of the methods that types declare. -/
def methodEntries (ts : List TypeDecl) : List (Token × (TypeDecl × Method)) :=
  ts.flatMap fun t => ownEntries t t.methods

/-- Types are added where their tokens are fresh and those of their methods are fresh. -/
theorem addTypes_eq_ok_iff {ts : List TypeDecl} {c c' : Catalog} :
    c.addTypes ts = .ok c' ↔
      Fresh c.types ((typeEntries ts).map Prod.fst) ∧
        Fresh c.methods ((methodEntries ts).map Prod.fst) ∧
        c' = ⟨c.types.insertMany (typeEntries ts), c.methods.insertMany (methodEntries ts)⟩ := by
  induction ts generalizing c with
  | nil =>
      rw [addTypes, typeEntries, List.map_nil, methodEntries, List.flatMap_nil,
        Std.ExtTreeMap.insertMany_nil, Std.ExtTreeMap.insertMany_nil, Except.ok.injEq]
      exact ⟨fun h => ⟨fresh_nil, fresh_nil, h.symm⟩, fun h => h.2.2.symm⟩
  | cons t ts ih =>
      rw [typeEntries, List.map_cons, List.map_cons, ← typeEntries, fresh_cons_iff t,
        methodEntries, List.flatMap_cons, ← methodEntries, List.map_append, fresh_append_iff,
        addTypes_cons_eq_ok_iff, Std.ExtTreeMap.insertMany_cons, Std.ExtTreeMap.insertMany_append]
      simp only [addType_eq_ok_iff, addMethods_eq_ok_iff, ih]
      constructor
      · rintro ⟨_, ⟨hnull, htaken, hown, rfl⟩, htypes, hmethods, rfl⟩
        exact ⟨⟨hnull, htaken, htypes⟩, ⟨hown, hmethods⟩, rfl⟩
      · rintro ⟨⟨hnull, htaken, htypes⟩, ⟨hown, hmethods⟩, rfl⟩
        exact ⟨_, ⟨hnull, htaken, hown, rfl⟩, htypes, hmethods, rfl⟩

theorem map_fst_typeEntries (ts : List TypeDecl) :
    (typeEntries ts).map Prod.fst = ts.map TypeDecl.token := by
  rw [typeEntries, List.map_map]
  rfl

theorem map_fst_methodEntries (ts : List TypeDecl) :
    (methodEntries ts).map Prod.fst = (ts.flatMap TypeDecl.methods).map Method.token := by
  rw [methodEntries, List.map_flatMap, List.map_flatMap]
  congr 1
  funext t
  rw [ownEntries, List.map_map]
  rfl

/-- The catalog of types has their entries and those of their methods. There is one exactly if no
token is null and neither two types nor two methods share a token. -/
theorem ofTypes_eq_ok_iff {ts : List TypeDecl} {c : Catalog} :
    ofTypes ts = .ok c ↔
      ((∀ t ∈ ts, t.token.isNull = false) ∧ (ts.map TypeDecl.token).Nodup) ∧
      ((∀ t ∈ ts, ∀ m ∈ t.methods, m.token.isNull = false) ∧
        ((ts.flatMap TypeDecl.methods).map Method.token).Nodup) ∧
      c = ⟨.ofList (typeEntries ts), .ofList (methodEntries ts)⟩ := by
  rw [ofTypes, addTypes_eq_ok_iff, empty, fresh_empty_iff, fresh_empty_iff, map_fst_typeEntries,
    map_fst_methodEntries, List.forall_mem_map, List.forall_mem_map, List.forall_mem_flatMap,
    Std.ExtTreeMap.ofList_eq_insertMany_empty, Std.ExtTreeMap.ofList_eq_insertMany_empty]

end Catalog

/-! ## A module -/

/-- The types of a module have pairwise distinct tokens. -/
theorem Module.nodup_tokens (m : Module) : (m.types.map TypeDecl.token).Nodup :=
  (Catalog.ofTypes_eq_ok_iff.mp m.catalog_eq).1.2

end VmHandler
