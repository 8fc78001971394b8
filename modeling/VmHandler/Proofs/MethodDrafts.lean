import Mathlib.Data.List.Induction
import VmHandler.Proofs.Edits
import VmHandler.Method.Draft

/-!
# Methods that are put together

Each edit touches one part of a draft: it leaves the other parts alone, and what it makes of its own
part depends on that part only. So edits of different parts may change places, and the edits of each
part, in their order, say what the draft is. Mostly the last edit of a part decides, or all of them
add up. The modifiers are both replaced and added to: the mark that there is no instance counts until
they are replaced.
-/

set_option autoImplicit false

namespace VmHandler.Method

/-! ## Parts -/

/-- A part of a draft. -/
inductive Part where
  | token
  | name
  | modifiers
  | returns
  | params
  | locals
  deriving DecidableEq, Repr

/-- What a draft holds as one of its parts. -/
def Part.Value : Part → Type
  | token => Option Token
  | name => String
  | modifiers => Modifiers
  | returns => ElementClass
  | params => List ElementClass
  | locals => List String

/-- The part that an edit touches. -/
def Edit.part : Edit → Part
  | token _ => .token
  | name _ => .name
  | modifiers _ => .modifiers
  | markStatic => .modifiers
  | returns _ => .returns
  | param _ => .params
  | localVar _ => .locals
  | localVars _ => .locals

namespace Draft

variable {d d' : Draft} {e f : Edit} {p : Part}

/-- A part of a draft, by its name. -/
def get (d : Draft) : (p : Part) → p.Value
  | .token => d.token
  | .name => d.name
  | .modifiers => d.modifiers
  | .returns => d.returns
  | .params => d.params
  | .locals => d.locals

theorem eq_of_get_eq (h : ∀ p, d.get p = d'.get p) : d = d' := by
  obtain ⟨token, name, modifiers, returns, params, locals⟩ := d
  obtain ⟨token', name', modifiers', returns', params', locals'⟩ := d'
  obtain rfl : token = token' := h .token
  obtain rfl : name = name' := h .name
  obtain rfl : modifiers = modifiers' := h .modifiers
  obtain rfl : returns = returns' := h .returns
  obtain rfl : params = params' := h .params
  obtain rfl : locals = locals' := h .locals
  rfl

/-- An edit leaves the parts that it does not touch. -/
theorem get_apply_of_ne (h : e.part ≠ p) : (d.apply e).get p = d.get p := by
  cases e <;> cases p <;> first | rfl | exact absurd rfl h

/-- What an edit makes of a part depends on that part only. -/
theorem get_apply_congr (h : d.get p = d'.get p) (e : Edit) :
    (d.apply e).get p = (d'.apply e).get p := by
  by_cases htouches : e.part = p
  · subst htouches
    cases e with
    | token _ => rfl
    | name _ => rfl
    | modifiers _ => rfl
    | returns _ => rfl
    | markStatic => exact congrArg Modifiers.markStatic h
    | param c => exact congrArg (· ++ [c]) h
    | localVar s => exact congrArg (· ++ [s]) h
    | localVars ss => exact congrArg (· ++ ss) h
  · rw [get_apply_of_ne htouches, get_apply_of_ne htouches, h]

/-- Edits of different parts may change places. -/
theorem apply_comm (h : e.part ≠ f.part) : (d.apply e).apply f = (d.apply f).apply e := by
  apply eq_of_get_eq
  intro p
  by_cases he : e.part = p
  · have hf : f.part ≠ p := fun hf => h (he.trans hf.symm)
    calc ((d.apply e).apply f).get p = (d.apply e).get p := get_apply_of_ne hf
      _ = ((d.apply f).apply e).get p := get_apply_congr (get_apply_of_ne hf).symm e
  · calc ((d.apply e).apply f).get p = (d.apply f).get p :=
          get_apply_congr (get_apply_of_ne he) f
      _ = ((d.apply f).apply e).get p := (get_apply_of_ne he).symm

-- edits of one part may not: a mark is lost when the modifiers are replaced
example : (({} : Draft).apply .markStatic).apply (.modifiers .none) ≠
    (({} : Draft).apply (.modifiers .none)).apply .markStatic := by decide

/-- Each part of a draft is what the edits of this part make of it. -/
theorem get_ofEdits (edits : List Edit) (p : Part) :
    (ofEdits edits).get p = (ofEdits (edits.filter (·.part = p))).get p :=
  foldl_filter apply (fun d => d.get p) (fun e => e.part = p)
    (fun _ _ h => get_apply_of_ne (of_decide_eq_false h)) (fun _ _ e h => get_apply_congr h e)
    edits rfl

theorem ofEdits_eq_of_filter_eq {edits edits' : List Edit}
    (h : ∀ p, edits.filter (·.part = p) = edits'.filter (·.part = p)) :
    ofEdits edits = ofEdits edits' := by
  apply eq_of_get_eq
  intro p
  rw [get_ofEdits edits, get_ofEdits edits', h p]

end Draft

/-! ## Marks and replaced modifiers -/

namespace Edit

/-- The modifiers that an edit puts in the place of the others. -/
def modifiers? : Edit → Option Modifiers
  | modifiers m => some m
  | _ => none

/-- The modifiers that the edits put last in the place of others; none if they never do. -/
def lastModifiers (edits : List Edit) : Modifiers :=
  (edits.filterMap modifiers?).getLast?.getD .none

/-- There is a mark behind which the modifiers are not replaced. -/
def MarkedSince (edits : List Edit) : Prop :=
  ∃ before after, edits = before ++ markStatic :: after ∧ ∀ m, modifiers m ∉ after

variable {edits : List Edit} {e : Edit} {m : Modifiers}

theorem part_eq_modifiers_iff : e.part = .modifiers ↔ e = markStatic ∨ ∃ m, e = modifiers m := by
  cases e <;> simp [part]

theorem modifiers?_eq_none_of_ne (h : e.part ≠ .modifiers) : e.modifiers? = none := by
  cases e with
  | modifiers m => exact absurd rfl h
  | _ => rfl

theorem lastModifiers_append_modifiers : lastModifiers (edits ++ [modifiers m]) = m := by
  simp [lastModifiers, modifiers?]

theorem lastModifiers_append_of_none (h : e.modifiers? = none) :
    lastModifiers (edits ++ [e]) = lastModifiers edits := by
  rw [lastModifiers, List.filterMap_append, List.filterMap_cons_none h, List.filterMap_nil,
    List.append_nil, lastModifiers]

theorem not_markedSince_nil : ¬MarkedSince [] := by
  rintro ⟨before, after, h, -⟩
  simp at h

/-- What one more edit does to a mark. -/
theorem markedSince_append_iff :
    MarkedSince (edits ++ [e]) ↔ e = markStatic ∨ MarkedSince edits ∧ ∀ m, e ≠ modifiers m := by
  constructor
  · rintro ⟨before, after, hedits, hafter⟩
    rcases List.eq_nil_or_concat after with rfl | ⟨after, last, rfl⟩
    · obtain ⟨-, hlast⟩ := List.append_inj' hedits rfl
      exact .inl (List.singleton_inj.mp hlast)
    · rw [List.concat_eq_append, ← List.cons_append, ← List.append_assoc] at hedits
      obtain ⟨hinit, hlast⟩ := List.append_inj' hedits rfl
      rw [List.concat_eq_append] at hafter
      refine .inr ⟨⟨before, after, hinit, fun m hm => ?_⟩, fun m hm => ?_⟩
      · exact hafter m (List.mem_append_left _ hm)
      · rw [← hlast, hm] at hafter
        exact hafter m (List.mem_append_right _ (List.mem_singleton_self _))
  · rintro (rfl | ⟨⟨before, after, rfl, hafter⟩, hne⟩)
    · exact ⟨edits, [], rfl, fun _ => List.not_mem_nil⟩
    · refine ⟨before, after ++ [e], by simp, fun m hm => ?_⟩
      rcases List.mem_append.mp hm with hm | hm
      · exact hafter m hm
      · exact hne m (List.mem_singleton.mp hm).symm

theorem markedSince_append_of_ne (h : e.part ≠ .modifiers) :
    MarkedSince (edits ++ [e]) ↔ MarkedSince edits := by
  rw [Ne, part_eq_modifiers_iff, not_or, not_exists] at h
  rw [markedSince_append_iff, or_iff_right h.1, and_iff_left h.2]

/-- The last edit that touches the modifiers tells whether they are marked. -/
theorem markedSince_iff_getLast? :
    MarkedSince edits ↔ (edits.filter (·.part = .modifiers)).getLast? = some markStatic := by
  induction edits using List.reverseRecOn with
  | nil => simp [not_markedSince_nil]
  | append_singleton edits e ih =>
      by_cases htouches : e.part = .modifiers
      · rw [List.filter_append, List.filter_cons_of_pos (by simpa using htouches),
          List.filter_nil, List.getLast?_concat, Option.some.injEq, markedSince_append_iff]
        constructor
        · rintro (h | ⟨-, hne⟩)
          · exact h
          · rcases part_eq_modifiers_iff.mp htouches with h | ⟨m, h⟩
            · exact h
            · exact absurd h (hne m)
        · exact .inl
      · rw [List.filter_append, List.filter_cons_of_neg (by simpa using htouches),
          List.filter_nil, List.append_nil, markedSince_append_of_ne htouches, ih]

instance : Decidable (MarkedSince edits) := decidable_of_iff _ markedSince_iff_getLast?.symm

end Edit

namespace Draft

theorem ofEdits_append_singleton (edits : List Edit) (e : Edit) :
    ofEdits (edits ++ [e]) = (ofEdits edits).apply e :=
  List.foldl_append

/-- The modifiers are those that were set last, marked if a mark came after them. -/
theorem modifiers_ofEdits (edits : List Edit) :
    (ofEdits edits).modifiers =
      if Edit.MarkedSince edits then (Edit.lastModifiers edits).markStatic
      else Edit.lastModifiers edits := by
  -- the last edit decides whether a mark counts, so the list is taken apart from behind
  induction edits using List.reverseRecOn with
  | nil => rw [if_neg Edit.not_markedSince_nil]; rfl
  | append_singleton edits e ih =>
      rw [ofEdits_append_singleton]
      by_cases htouches : e.part = .modifiers
      · rcases Edit.part_eq_modifiers_iff.mp htouches with rfl | ⟨m, rfl⟩
        · have hmarked : Edit.MarkedSince (edits ++ [.markStatic]) :=
            Edit.markedSince_append_iff.mpr (.inl rfl)
          have happly : ((ofEdits edits).apply .markStatic).modifiers =
              (ofEdits edits).modifiers.markStatic := rfl
          rw [if_pos hmarked, happly, ih, Edit.lastModifiers_append_of_none rfl]
          split
          · exact Modifiers.markStatic_markStatic _
          · rfl
        · have hreplaced : ¬Edit.MarkedSince (edits ++ [.modifiers m]) := by
            simp [Edit.markedSince_append_iff]
          rw [if_neg hreplaced, Edit.lastModifiers_append_modifiers]
          rfl
      · have hleft : ((ofEdits edits).apply e).modifiers = (ofEdits edits).modifiers :=
          get_apply_of_ne (p := .modifiers) htouches
        have hlast : Edit.lastModifiers (edits ++ [e]) = Edit.lastModifiers edits :=
          Edit.lastModifiers_append_of_none (Edit.modifiers?_eq_none_of_ne htouches)
        simp only [hleft, ih, hlast, Edit.markedSince_append_of_ne htouches]

end Draft

/-! ## What edits leave -/

namespace Edit

/-- The token that an edit sets. -/
def token? : Edit → Option Token
  | token t => some t
  | _ => none

/-- The name that an edit sets. -/
def name? : Edit → Option String
  | name s => some s
  | _ => none

/-- The element class that an edit sets for the return value. -/
def returns? : Edit → Option ElementClass
  | returns c => some c
  | _ => none

/-- The parameter that an edit adds. -/
def param? : Edit → Option ElementClass
  | param c => some c
  | _ => none

/-- The local variables that an edit adds. -/
def locals : Edit → List String
  | localVar s => [s]
  | localVars ss => ss
  | _ => []

end Edit

/-- The parts of a method are what the edits have made them. -/
structure MadeBy (m : Method) (edits : List Edit) : Prop where
  token : (edits.filterMap Edit.token?).getLast? = some m.token
  name : m.name = (edits.filterMap Edit.name?).getLast?.getD ""
  modifiers : m.modifiers.bits = (Edit.lastModifiers edits).bits |||
    if Edit.MarkedSince edits then Modifiers.staticBit else 0
  returns : m.returns = (edits.filterMap Edit.returns?).getLast?.getD .void
  params : m.params = edits.filterMap Edit.param?
  locals : m.locals = edits.flatMap Edit.locals

namespace Draft

variable {d : Draft} {t : Token}

theorem token_ofEdits (edits : List Edit) :
    (ofEdits edits).token = (edits.filterMap Edit.token?).getLast? := by
  have hlast := foldl_last apply Draft.token Edit.token? (by intro d e; cases e <;> rfl) edits {}
  rwa [Option.or_none] at hlast

theorem name_ofEdits (edits : List Edit) :
    (ofEdits edits).name = (edits.filterMap Edit.name?).getLast?.getD "" :=
  foldl_last_getD apply Draft.name Edit.name? (by intro d e; cases e <;> rfl) edits {}

theorem returns_ofEdits (edits : List Edit) :
    (ofEdits edits).returns = (edits.filterMap Edit.returns?).getLast?.getD .void :=
  foldl_last_getD apply Draft.returns Edit.returns? (by intro d e; cases e <;> rfl) edits {}

theorem params_ofEdits (edits : List Edit) :
    (ofEdits edits).params = edits.filterMap Edit.param? :=
  foldl_appended apply Draft.params Edit.param?
    (by intro d e; cases e <;> simp [apply, Edit.param?]) edits {}

theorem locals_ofEdits (edits : List Edit) :
    (ofEdits edits).locals = edits.flatMap Edit.locals :=
  foldl_added apply Draft.locals Edit.locals
    (by intro d e; cases e <;> simp [apply, Edit.locals]) edits {}

theorem bits_modifiers_ofEdits (edits : List Edit) :
    (ofEdits edits).modifiers.bits =
      (Edit.lastModifiers edits).bits |||
        if Edit.MarkedSince edits then Modifiers.staticBit else 0 := by
  rw [modifiers_ofEdits]
  split
  · exact Modifiers.markStatic_bits _
  · exact UInt32.or_zero.symm

theorem isStatic_modifiers_ofEdits_iff (edits : List Edit) :
    (ofEdits edits).modifiers.isStatic = true ↔
      (Edit.lastModifiers edits).isStatic = true ∨ Edit.MarkedSince edits := by
  rw [modifiers_ofEdits]
  by_cases hmarked : Edit.MarkedSince edits
  · rw [if_pos hmarked]
    exact iff_of_true (Modifiers.isStatic_markStatic _) (.inr hmarked)
  · rw [if_neg hmarked]
    exact (or_iff_left hmarked).symm

/-! ## Building -/

theorem exists_build_eq_error_iff :
    (∃ reason, d.build = .error reason) ↔
      d.token = none ∨ ∃ t, d.token = some t ∧ t.isNull = true := by
  rw [build]
  cases d.token with
  | none => simp
  | some t => cases h : t.isNull <;> simp [h]

theorem build_eq_ok_of_token (htoken : d.token = some t) (hnull : t.isNull = false) :
    d.build = .ok ⟨t, d.name, d.modifiers, d.returns, d.params, d.locals⟩ := by
  simp [build, htoken, hnull]

/-- With a good token, the method that is built has what the edits have left. -/
theorem exists_build_eq_ok {edits : List Edit}
    (htoken : (edits.filterMap Edit.token?).getLast? = some t) (hnull : t.isNull = false) :
    ∃ m, (ofEdits edits).build = .ok m ∧ m.MadeBy edits ∧
      m.modifiers = (ofEdits edits).modifiers := by
  have hbuild := build_eq_ok_of_token ((token_ofEdits edits).trans htoken) hnull
  refine ⟨_, hbuild, ⟨htoken, ?_, ?_, ?_, ?_, ?_⟩, rfl⟩
  · exact name_ofEdits edits
  · exact bits_modifiers_ofEdits edits
  · exact returns_ofEdits edits
  · exact params_ofEdits edits
  · exact locals_ofEdits edits

end Draft

/-- Edits make no method exactly if they set no token or the one that they set last is null. The
method that they make otherwise has the token, the name and the class of the return value that were
set last, and all parameters and local variables that were added, in order. Its modifiers are those
that were set last, and a mark that comes after them adds that there is no instance; so there is none
exactly if the modifiers that were set last say so or a mark comes after them. An edit leaves all
parts but the one that it touches, edits of different parts may change places, and lists in which the
edits of each part are the same, in the same order, make the same. -/
theorem made_of_edits :
    (∀ edits : List Edit,
      ((∃ reason, (Draft.ofEdits edits).build = .error reason) ↔
        (edits.filterMap Edit.token?).getLast? = none ∨
          ∃ token, (edits.filterMap Edit.token?).getLast? = some token ∧ token.isNull = true) ∧
      ∀ token, (edits.filterMap Edit.token?).getLast? = some token → token.isNull = false →
        ∃ m, (Draft.ofEdits edits).build = .ok m ∧ m.MadeBy edits ∧
          (m.isStatic = true ↔
            (Edit.lastModifiers edits).isStatic = true ∨ Edit.MarkedSince edits)) ∧
    (∀ (d : Draft) (e : Edit) (p : Part), e.part ≠ p → (d.apply e).get p = d.get p) ∧
    (∀ (d : Draft) (e f : Edit), e.part ≠ f.part → (d.apply e).apply f = (d.apply f).apply e) ∧
    ∀ edits edits' : List Edit,
      (∀ p, edits.filter (·.part = p) = edits'.filter (·.part = p)) →
        Draft.ofEdits edits = Draft.ofEdits edits' := by
  refine ⟨fun edits => ⟨?refused, ?made⟩, fun _ _ _ h => Draft.get_apply_of_ne h,
    fun _ _ _ h => Draft.apply_comm h, fun _ _ h => Draft.ofEdits_eq_of_filter_eq h⟩
  case refused =>
    rw [Draft.exists_build_eq_error_iff, Draft.token_ofEdits]
  case made =>
    intro token htoken hnull
    obtain ⟨m, hbuild, hmade, hmodifiers⟩ := Draft.exists_build_eq_ok htoken hnull
    refine ⟨m, hbuild, hmade, ?_⟩
    rw [isStatic, hmodifiers, Draft.isStatic_modifiers_ofEdits_iff]

/-- A method that is marked before and after its modifiers are replaced, and whose token is null at
first. -/
def restless : List Edit :=
  [.markStatic, .localVar "System.Int32", .token ⟨0⟩, .modifiers (.ofFlags 0x0096), .name "Run",
    .modifiers (.ofFlags 0x0080), .param .object, .localVars ["System.Object", "System.Int32"],
    .name "Step", .markStatic, .param .int32, .token ⟨0x06000002⟩]

/-- The same edits, sorted by the parts that they touch. -/
def restlessByPart : List Edit :=
  [.token ⟨0⟩, .token ⟨0x06000002⟩, .name "Run", .name "Step", .markStatic,
    .modifiers (.ofFlags 0x0096), .modifiers (.ofFlags 0x0080), .markStatic, .param .object,
    .param .int32, .localVar "System.Int32", .localVars ["System.Object", "System.Int32"]]

/-- Only the second mark counts, and the order of the parts does not. -/
theorem made_of_edits_restless :
    (∃ m, (Draft.ofEdits restless).build = .ok m ∧ m.MadeBy restless ∧ m.isStatic = true ∧
      m.modifiers.bits = 0x0090 ∧ m.name = "Step" ∧ m.params = [.object, .int32] ∧
      m.locals = ["System.Int32", "System.Object", "System.Int32"]) ∧
    (∀ d : Draft, (d.apply .markStatic).locals = d.locals ∧
      (d.apply .markStatic).apply (.name "Step") = (d.apply (.name "Step")).apply .markStatic) ∧
    Draft.ofEdits restless = Draft.ofEdits restlessByPart := by
  obtain ⟨hedits, hframe, hcomm, hparts⟩ := made_of_edits
  obtain ⟨m, hbuild, hmade, hstatic⟩ := (hedits restless).2 ⟨0x06000002⟩ rfl rfl
  have hmarked : Edit.MarkedSince restless := by decide
  refine ⟨⟨m, hbuild, hmade, hstatic.mpr (.inr hmarked), ?_, hmade.name, hmade.params,
    hmade.locals⟩, fun d => ⟨hframe d _ .locals (by decide), hcomm d _ _ (by decide)⟩,
    hparts _ _ fun p => ?_⟩
  · rw [hmade.modifiers, if_pos hmarked]
    decide
  · cases p <;> decide

end VmHandler.Method
