import Mathlib.Order.Bounds.Basic
import VmHandler.Proofs.Edits
import VmHandler.Proofs.Lookup
import VmHandler.Dump.Load

/-!
# Types that are put together

A draft holds what the edits have made it, so whether it is a type is a matter of the token that was
set last and of the methods that were added. The methods are judged one by one, and the first one
with the token of an earlier method ends the judging; another method with the token that is repeated
may come later, and the one that has it first comes earlier. The types of a module need no such
judging: whoever puts one together again from its parts gets it back.
-/

set_option autoImplicit false

namespace VmHandler

namespace TypeDecl

/-! ## What edits leave -/

namespace Edit

/-- The token that an edit sets. -/
def token? : Edit → Option Token
  | token t => some t
  | _ => none

/-- The namespace that an edit sets. -/
def space? : Edit → Option String
  | space s => some s
  | _ => none

/-- The name that an edit sets. -/
def name? : Edit → Option String
  | name s => some s
  | _ => none

/-- The method that an edit adds. -/
def method? : Edit → Option Method
  | method m => some m
  | _ => none

/-- The nested type that an edit adds. -/
def nested? : Edit → Option TypeDecl
  | nested t => some t
  | _ => none

end Edit

/-- The draft in which each part is as it was set last, and lists are as they were added to. -/
def Draft.settled (edits : List Edit) : Draft where
  token := (edits.filterMap Edit.token?).getLast?
  space := (edits.filterMap Edit.space?).getLast?.getD ""
  name := (edits.filterMap Edit.name?).getLast?.getD ""
  methods := edits.filterMap Edit.method?
  nested := edits.filterMap Edit.nested?

theorem Draft.ofEdits_eq_settled (edits : List Edit) : ofEdits edits = settled edits := by
  have htoken := foldl_last apply Draft.token Edit.token? (by intro d e; cases e <;> rfl) edits {}
  have hspace := foldl_last_getD apply Draft.space Edit.space?
    (by intro d e; cases e <;> rfl) edits {}
  have hname := foldl_last_getD apply Draft.name Edit.name?
    (by intro d e; cases e <;> rfl) edits {}
  have hmethods := foldl_appended apply Draft.methods Edit.method?
    (by intro d e; cases e <;> simp [apply, Edit.method?]) edits {}
  have hnested := foldl_appended apply Draft.nested Edit.nested?
    (by intro d e; cases e <;> simp [apply, Edit.nested?]) edits {}
  rw [Option.or_none] at htoken
  rw [List.nil_append] at hmethods hnested
  unfold ofEdits settled
  rw [← htoken, ← hspace, ← hname, ← hmethods, ← hnested]

/-! ## Tokens that are repeated -/

/-- An earlier place of the list holds the same token. -/
def RepeatsAt (tokens : List Token) (i : Nat) : Prop :=
  ∃ t, tokens[i]? = some t ∧ ∃ j < i, tokens[j]? = some t

section Repeated

variable {seen tokens : List Token} {t : Token}

theorem nodup_iff_not_repeatsAt : tokens.Nodup ↔ ∀ i, ¬RepeatsAt tokens i := by
  rw [List.nodup_iff_getElem?_ne_getElem?]
  constructor
  · rintro h i ⟨t, hi, j, hlt, hj⟩
    obtain ⟨hlength, -⟩ := List.getElem?_eq_some_iff.mp hi
    exact h j i hlt hlength (hj.trans hi.symm)
  · intro h j i hlt hlength heq
    have hi : tokens[i]? = some tokens[i] := List.getElem?_eq_getElem hlength
    exact h i ⟨_, hi, j, hlt, heq.trans hi⟩

theorem firstRepeated?_cons_of_mem (h : t ∈ seen) :
    firstRepeated? seen (t :: tokens) = some t := by
  rw [firstRepeated?, if_pos (List.contains_iff_mem.mpr h)]

theorem firstRepeated?_cons_of_not_mem (h : t ∉ seen) :
    firstRepeated? seen (t :: tokens) = firstRepeated? (t :: seen) tokens := by
  rw [firstRepeated?, if_neg (mt List.contains_iff_mem.mp h)]

theorem firstRepeated?_eq_none_iff :
    firstRepeated? seen tokens = none ↔ (∀ t ∈ tokens, t ∉ seen) ∧ tokens.Nodup := by
  induction tokens generalizing seen with
  | nil => simp [firstRepeated?]
  | cons u tokens ih =>
      by_cases hmem : u ∈ seen
      · rw [firstRepeated?_cons_of_mem hmem]
        exact iff_of_false nofun fun h => h.1 u List.mem_cons_self hmem
      · rw [firstRepeated?_cons_of_not_mem hmem, ih, List.forall_mem_cons, List.nodup_cons]
        constructor
        · rintro ⟨hnew, hnodup⟩
          refine ⟨⟨hmem, fun t ht hseen => ?_⟩, fun hu => ?_, hnodup⟩
          · exact hnew t ht (List.mem_cons_of_mem u hseen)
          · exact hnew u hu List.mem_cons_self
        · rintro ⟨⟨-, hnew⟩, hu, hnodup⟩
          refine ⟨fun t ht hseen => ?_, hnodup⟩
          rcases List.mem_cons.mp hseen with rfl | hseen
          · exact hu ht
          · exact hnew t ht hseen

/-- What is found stands among the tokens seen before, or earlier in the list, and no token before
it does. -/
theorem firstRepeated?_eq_some_iff :
    firstRepeated? seen tokens = some t ↔
      ∃ before after, tokens = before ++ t :: after ∧ (t ∈ seen ∨ t ∈ before) ∧
        firstRepeated? seen before = none := by
  induction tokens generalizing seen with
  | nil => simp [firstRepeated?]
  | cons u tokens ih =>
      by_cases hmem : u ∈ seen
      · rw [firstRepeated?_cons_of_mem hmem]
        constructor
        · intro h
          rw [← Option.some.inj h]
          exact ⟨[], tokens, rfl, .inl hmem, rfl⟩
        · rintro ⟨before, after, htokens, -, hnone⟩
          cases before with
          | nil => rw [(List.cons.inj htokens).1]
          | cons b before =>
              rw [← (List.cons.inj htokens).1, firstRepeated?_cons_of_mem hmem] at hnone
              contradiction
      · rw [firstRepeated?_cons_of_not_mem hmem, ih]
        constructor
        · rintro ⟨before, after, rfl, hearlier, hnone⟩
          refine ⟨u :: before, after, rfl, ?_, ?_⟩
          · rw [List.mem_cons] at hearlier ⊢
            rwa [or_assoc, or_left_comm] at hearlier
          · rwa [firstRepeated?_cons_of_not_mem hmem]
        · rintro ⟨before, after, htokens, hearlier, hnone⟩
          cases before with
          | nil =>
              obtain ⟨rfl, -⟩ := List.cons.inj htokens
              exact absurd hearlier (by simp [hmem])
          | cons b before =>
              obtain ⟨rfl, rfl⟩ := List.cons.inj htokens
              refine ⟨before, after, rfl, ?_, ?_⟩
              · rw [List.mem_cons] at hearlier ⊢
                rwa [or_assoc, or_left_comm]
              · rwa [firstRepeated?_cons_of_not_mem hmem] at hnone

/-- What is found stands at the first place of the list that repeats an earlier one. -/
theorem exists_isLeast_of_firstRepeated? (h : firstRepeated? [] tokens = some t) :
    ∃ i, IsLeast {i | RepeatsAt tokens i} i ∧ tokens[i]? = some t := by
  obtain ⟨before, after, rfl, hearlier, hnone⟩ := firstRepeated?_eq_some_iff.mp h
  obtain ⟨-, hnodup⟩ := firstRepeated?_eq_none_iff.mp hnone
  have hbefore : t ∈ before := hearlier.resolve_left List.not_mem_nil
  have hfound : (before ++ t :: after)[before.length]? = some t := by simp
  refine ⟨before.length, ⟨⟨t, hfound, ?_⟩, fun i hi => ?_⟩, hfound⟩
  · obtain ⟨j, hlt, hj⟩ := List.mem_iff_getElem.mp hbefore
    exact ⟨j, hlt, by rw [List.getElem?_append_left hlt, List.getElem?_eq_getElem hlt, hj]⟩
  · -- no place among the distinct tokens repeats an earlier one
    by_contra hlt
    rw [Nat.not_le] at hlt
    obtain ⟨u, hu, j, hj, hju⟩ := hi
    rw [List.getElem?_append_left hlt] at hu
    rw [List.getElem?_append_left (Nat.lt_trans hj hlt)] at hju
    exact nodup_iff_not_repeatsAt.mp hnodup i ⟨u, hu, j, hj, hju⟩

end Repeated

/-! ## Building -/

section Lookup

variable {t : TypeDecl} {token : Token} {m : Method}

theorem method?_eq_some_iff_of_nodup (h : (t.methods.map Method.token).Nodup) :
    t.method? token = some m ↔ m ∈ t.methods ∧ m.token = token := by
  unfold method?
  constructor
  · intro hfind
    exact ⟨List.mem_of_find?_eq_some hfind, by simpa using List.find?_some hfind⟩
  · rintro ⟨hm, rfl⟩
    cases hfind : t.methods.find? fun n => n.token = m.token with
    | none =>
        have hnone := List.find?_eq_none.mp hfind m hm
        exact absurd (decide_eq_true rfl) hnone
    | some n =>
        have hn : n.token = m.token := by simpa using List.find?_some hfind
        rw [List.inj_on_of_nodup_map h (List.mem_of_find?_eq_some hfind) hm hn]

/-- Where the tokens of methods are distinct, what has a token is what is found under it. -/
theorem filter_methods_eq_toList (h : (t.methods.map Method.token).Nodup) (token : Token) :
    t.methods.filter (fun m => m.token = token) = (t.method? token).toList := by
  apply Module.filter_eq_toList (List.Nodup.of_map _ h)
  intro m
  rw [method?_eq_some_iff_of_nodup h, decide_eq_true_eq]

end Lookup

namespace Draft

variable {d : Draft} {t : TypeDecl} {owner : Token}

theorem build_eq_ok_iff :
    d.build = .ok t ↔
      d.token = some t.token ∧ t.token.isNull = false ∧ (d.methods.map Method.token).Nodup ∧
        d.space = t.space ∧ d.name = t.name ∧ d.methods = t.methods ∧ d.nested = t.nested := by
  obtain ⟨token, space, name, methods, nested⟩ := t
  have hdistinct : firstRepeated? [] (d.methods.map Method.token) = none ↔
      (d.methods.map Method.token).Nodup := by
    simp [firstRepeated?_eq_none_iff]
  rw [build, ← hdistinct]
  cases d.token with
  | none => simp
  | some owner =>
      by_cases hnull : owner.isNull = true
      · simp only [hnull, if_true, reduceCtorEq, Option.some.injEq, false_iff]
        rintro ⟨rfl, hgood, -⟩
        exact absurd hnull (by simp [hgood])
      · cases hrepeated : firstRepeated? [] (d.methods.map Method.token) with
        | some repeated => simp [hnull]
        | none =>
            simp only [hnull, Bool.false_eq_true, if_false, Except.ok.injEq, TypeDecl.mk.injEq,
              Option.some.injEq, true_and]
            constructor
            · rintro ⟨rfl, hparts⟩
              exact ⟨rfl, by simpa using hnull, hparts⟩
            · rintro ⟨rfl, -, hparts⟩
              exact ⟨rfl, hparts⟩

/-- The token that is reported is the one at the first place that repeats an earlier one. -/
theorem exists_build_eq_error (htoken : d.token = some owner) (hnull : owner.isNull = false)
    (hrepeated : ¬(d.methods.map Method.token).Nodup) :
    ∃ i token, IsLeast {i | RepeatsAt (d.methods.map Method.token) i} i ∧
      (d.methods.map Method.token)[i]? = some token ∧
      d.build = .error (.repeatedMethod owner token) := by
  cases hfound : firstRepeated? [] (d.methods.map Method.token) with
  | none => exact absurd (firstRepeated?_eq_none_iff.mp hfound).2 hrepeated
  | some token =>
      obtain ⟨i, hleast, hi⟩ := exists_isLeast_of_firstRepeated? hfound
      exact ⟨i, token, hleast, hi, by simp [build, htoken, hnull, hfound]⟩

end Draft

/-! ## Putting together what there is -/

/-- The edits hand over the parts of a type, whatever comes between them: its token, namespace and
name come last among their kind, and its methods and nested types are added in order. -/
structure HandedOver (t : TypeDecl) (edits : List Edit) : Prop where
  token : (edits.filterMap Edit.token?).getLast? = some t.token
  space : (edits.filterMap Edit.space?).getLast?.getD "" = t.space
  name : (edits.filterMap Edit.name?).getLast?.getD "" = t.name
  methods : edits.filterMap Edit.method? = t.methods
  nested : edits.filterMap Edit.nested? = t.nested

/-- Parts of a type, one after the other, without the namespace or the name where there is none. -/
def editsOf (token : Token) (space name : Option String) (methods : List Method)
    (nested : List TypeDecl) : List Edit :=
  .token token :: ((space.map Edit.space).toList ++ ((name.map Edit.name).toList ++
    (methods.map .method ++ nested.map .nested)))

theorem handedOver_editsOf (token : Token) (space name : Option String) (methods : List Method)
    (nested : List TypeDecl) :
    HandedOver ⟨token, space.getD "", name.getD "", methods, nested⟩
      (editsOf token space name methods nested) := by
  have hmap {α β : Type} (put : α → Edit) (get? : Edit → Option β) (xs : List α) :
      (xs.map put).filterMap get? = xs.filterMap fun x => get? (put x) := by
    rw [List.filterMap_map]
    rfl
  have hoptional {α β : Type} (put : α → Edit) (get? : Edit → Option β) (x : Option α) :
      (x.map put).toList.filterMap get? = (x.bind fun x => get? (put x)).toList := by
    cases x with
    | none => rfl
    | some x => cases h : get? (put x) <;> simp [h]
  have htoken : (editsOf token space name methods nested).filterMap Edit.token? = [token] := by
    simp [editsOf, hmap, hoptional, Edit.token?]
  have hspace : (editsOf token space name methods nested).filterMap Edit.space? =
      space.toList := by
    simp [editsOf, List.filterMap_cons, hmap, hoptional, Edit.space?]
  have hname : (editsOf token space name methods nested).filterMap Edit.name? = name.toList := by
    simp [editsOf, List.filterMap_cons, hmap, hoptional, Edit.name?]
  have hmethods : (editsOf token space name methods nested).filterMap Edit.method? = methods := by
    simp [editsOf, List.filterMap_cons, hmap, hoptional, Edit.method?]
  have hnested : (editsOf token space name methods nested).filterMap Edit.nested? = nested := by
    simp [editsOf, List.filterMap_cons, hmap, hoptional, Edit.nested?]
  refine ⟨by rw [htoken]; rfl, ?_, ?_, hmethods, hnested⟩
  · rw [hspace]
    cases space <;> rfl
  · rw [hname]
    cases name <;> rfl

/-- The parts of a type, one after the other. -/
def edits (t : TypeDecl) : List Edit :=
  .token t.token :: .space t.space :: .name t.name ::
    (t.methods.map .method ++ t.nested.map .nested)

theorem handedOver_edits (t : TypeDecl) : t.HandedOver t.edits := by
  obtain ⟨token, space, name, methods, nested⟩ := t
  exact handedOver_editsOf token (some space) (some name) methods nested

/-- A type is built again from its parts if its token is good and its methods are distinct. -/
theorem build_of_handedOver {t : TypeDecl} {edits : List Edit} (h : t.HandedOver edits)
    (hnull : t.token.isNull = false) (hdistinct : (t.methods.map Method.token).Nodup) :
    (Draft.ofEdits edits).build = .ok t := by
  rw [Draft.ofEdits_eq_settled, Draft.build_eq_ok_iff, Draft.settled, h.methods]
  exact ⟨h.token, hnull, hdistinct, h.space, h.name, rfl, h.nested⟩

end TypeDecl

namespace Module

variable {m : Module} {t : TypeDecl}

theorem isNull_token_eq_false (ht : t ∈ m.types) : t.token.isNull = false :=
  (Catalog.ofTypes_eq_ok_iff.mp m.catalog_eq).1.1 t ht

/-- The methods of one type are among those of all types, so they are distinct as well. -/
theorem nodup_tokens_of_mem (ht : t ∈ m.types) : (t.methods.map Method.token).Nodup := by
  have hsublist := (List.singleton_sublist.mpr ht).flatMap TypeDecl.methods
  rw [List.flatMap_singleton] at hsublist
  exact m.nodup_methodTokens.sublist (hsublist.map Method.token)

end Module

namespace TypeDecl

/-- Edits make a type exactly if the token that they set last is there and not null and the methods
that they add have distinct tokens. The type has this token, the namespace and the name that were
set last, and what was added in order, and it finds under each token the one method that has it. If
the methods repeat a token, the one that is reported stands at the first place where an earlier
method has the same token. Every type of a module is made again, equal, by all edits that hand over
its parts, and so by those that name them one after the other. -/
theorem built_from_edits :
    (∀ edits : List Edit,
      ((∃ t, (Draft.ofEdits edits).build = .ok t) ↔
        ∃ token, (edits.filterMap Edit.token?).getLast? = some token ∧ token.isNull = false ∧
          ((edits.filterMap Edit.method?).map Method.token).Nodup) ∧
      (∀ t, (Draft.ofEdits edits).build = .ok t →
        t.HandedOver edits ∧
          ∀ token, t.methods.filter (fun m => m.token = token) = (t.method? token).toList) ∧
      ∀ owner, (edits.filterMap Edit.token?).getLast? = some owner → owner.isNull = false →
        ¬((edits.filterMap Edit.method?).map Method.token).Nodup →
        ∃ i m, IsLeast {i | RepeatsAt ((edits.filterMap Edit.method?).map Method.token) i} i ∧
          (edits.filterMap Edit.method?)[i]? = some m ∧
          (Draft.ofEdits edits).build = .error (.repeatedMethod owner m.token) ∧
          (Malformed.type (.repeatedMethod owner m.token)).message =
            "Malformed - TypeDef " ++ owner.text ++ " declares method " ++ m.token.text ++
              " twice") ∧
    ∀ (name : String) (forest : Forest) (m : Module), Module.build name forest = .ok m →
      ∀ t ∈ m.types, (Draft.ofEdits t.edits).build = .ok t ∧
        ∀ edits : List Edit, t.HandedOver edits → (Draft.ofEdits edits).build = .ok t := by
  refine ⟨fun edits => ⟨?accepted, ?built, ?reported⟩, fun name forest m _ t ht => ?rebuilt⟩
  case accepted =>
    rw [Draft.ofEdits_eq_settled]
    simp only [Draft.build_eq_ok_iff, Draft.settled]
    constructor
    · rintro ⟨t, htoken, hnull, hdistinct, -⟩
      exact ⟨t.token, htoken, hnull, hdistinct⟩
    · rintro ⟨token, htoken, hnull, hdistinct⟩
      exact ⟨⟨token, _, _, _, _⟩, htoken, hnull, hdistinct, rfl, rfl, rfl, rfl⟩
  case built =>
    intro t h
    rw [Draft.ofEdits_eq_settled, Draft.build_eq_ok_iff] at h
    obtain ⟨htoken, -, hdistinct, hspace, hname, hmethods, hnested⟩ := h
    rw [hmethods] at hdistinct
    exact ⟨⟨htoken, hspace, hname, hmethods, hnested⟩, filter_methods_eq_toList hdistinct⟩
  case reported =>
    intro owner htoken hnull hrepeated
    rw [Draft.ofEdits_eq_settled]
    obtain ⟨i, token, hleast, hi, hbuild⟩ :=
      Draft.exists_build_eq_error (d := .settled edits) htoken hnull hrepeated
    rw [List.getElem?_map, Option.map_eq_some_iff] at hi
    obtain ⟨m, hm, rfl⟩ := hi
    exact ⟨i, m, hleast, hm, hbuild, rfl⟩
  case rebuilt =>
    have hnull := Module.isNull_token_eq_false ht
    have hdistinct := Module.nodup_tokens_of_mem ht
    exact ⟨build_of_handedOver t.handedOver_edits hnull hdistinct,
      fun edits h => build_of_handedOver h hnull hdistinct⟩

/-- A type for which two methods are added, and then both again in the opposite order. -/
def mirrored : List Edit :=
  [.method { token := ⟨0x06000001⟩ }, .token ⟨0x02000007⟩, .method { token := ⟨0x06000002⟩ },
    .method { token := ⟨0x06000002⟩ }, .token ⟨0x02000002⟩, .method { token := ⟨0x06000001⟩ }]

/-- A type with a method, in which another type is nested. -/
def enclosing : TypeDecl :=
  ⟨⟨0x02000002⟩, "Vm", "Outer", [{ token := ⟨0x06000001⟩ }],
    [⟨⟨0x02000003⟩, "", "Inner", [{ token := ⟨0x06000002⟩ }], []⟩]⟩

/-- The method that was added last is repeated first, so it is the one that is reported. A type in
which another one is nested is built from its parts. -/
theorem built_from_edits_mirrored :
    (Draft.ofEdits mirrored).build = .error (.repeatedMethod ⟨0x02000002⟩ ⟨0x06000002⟩) ∧
    (∃ i, IsLeast
        {i | RepeatsAt ((mirrored.filterMap Edit.method?).map Method.token) i} i ∧
      ((mirrored.filterMap Edit.method?).map Method.token)[i]? = some ⟨0x06000002⟩) ∧
    ∃ m, Module.build "vm" [enclosing] = .ok m ∧
      (Draft.ofEdits enclosing.edits).build = .ok enclosing := by
  obtain ⟨hedits, hmodules⟩ := built_from_edits
  obtain ⟨-, -, hreported⟩ := hedits mirrored
  obtain ⟨i, n, hleast, hn, hbuild, -⟩ := hreported ⟨0x02000002⟩ rfl rfl (by decide)
  have herror : (Draft.ofEdits mirrored).build =
      .error (.repeatedMethod ⟨0x02000002⟩ ⟨0x06000002⟩) := rfl
  rw [herror, Except.error.injEq, Incomplete.repeatedMethod.injEq] at hbuild
  obtain ⟨m, hm, htypes⟩ := Module.exists_build_of_tokens "vm" [enclosing]
    ⟨by decide, by decide⟩ ⟨by decide, by decide⟩
  have hmem : enclosing ∈ m.types := by
    rw [htypes, enclosing, Forest.preorder_cons]
    exact List.mem_cons_self
  refine ⟨herror, ⟨i, hleast, ?_⟩, m, hm, (hmodules "vm" [enclosing] m hm enclosing hmem).1⟩
  rw [List.getElem?_map, hn, hbuild.2]
  rfl

end TypeDecl

end VmHandler
