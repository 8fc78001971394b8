import VmHandler.Proofs.OptionalFields
import VmHandler.Proofs.TypeDrafts
import VmHandler.Proofs.MethodDrafts

/-!
# Descriptions

A description says of a method, a type or a module what there is to be said, and leaves out the
rest. It can be handed to the drafts, part by part, and it can be written as a document, entry by
entry. Both fill in for themselves what is left out. What a draft makes of a description and what a
reader finds in its document are the same.
-/

set_option autoImplicit false

namespace VmHandler

open VmHandler.Json VmHandler.Dump

/-! ## Lists -/

section Lists

variable {α β : Type}

theorem exists_forall₂_of_forall_exists {R : α → β → Prop} {xs : List α}
    (h : ∀ x ∈ xs, ∃ y, R x y) : ∃ ys, List.Forall₂ R xs ys := by
  induction xs with
  | nil => exact ⟨[], .nil⟩
  | cons x xs ih =>
      obtain ⟨hx, hxs⟩ := List.forall_mem_cons.mp h
      obtain ⟨y, hy⟩ := hx
      obtain ⟨ys, hys⟩ := ih hxs
      exact ⟨y :: ys, .cons hy hys⟩

theorem mapM_eq_ok_of_forall₂ {ε : Type} {f : α → Except ε β} {xs : List α} {ys : List β}
    (h : List.Forall₂ (fun x y => f x = .ok y) xs ys) : xs.mapM f = .ok ys := by
  induction h with
  | nil => rfl
  | cons hx _ ih =>
      rw [List.mapM_cons, hx, ih]
      rfl

end Lists

/-! ## Methods -/

namespace Method

/-- What is said of a method, of which only the token has to be said. -/
structure Description where
  token : Token
  name : Option String := none
  /-- The attributes, of which only the modifiers count. -/
  flags : Option UInt32 := none
  returns : Option ElementClass := none
  params : Option (List ElementClass) := none
  locals : Option (List String) := none

namespace Description

/-- The document with an entry for all that is said. -/
def document (d : Description) : Document :=
  .object ([(some "token", tokenDocument d.token)] ++
    (entryOf "name" (d.name.map textDocument) ++
    (entryOf "flags" (d.flags.map flagsDocument) ++
    (entryOf "return_type" (d.returns.map classDocument) ++
    (entryOf "params" (d.params.map fun cs => .list (cs.map classDocument)) ++
    entryOf "locals" (d.locals.map fun ss => .list (ss.map textDocument)))))))

/-- The edits that hand over all that is said. -/
def edits (d : Description) : List Edit :=
  .token d.token :: ((d.name.map Edit.name).toList ++
    ((d.flags.map fun flags => Edit.modifiers (.ofFlags flags)).toList ++
    ((d.returns.map Edit.returns).toList ++
    ((d.params.getD []).map .param ++ (d.locals.map Edit.localVars).toList))))

/-- The method that is built of what is said. -/
def build (d : Description) : Except Malformed Method :=
  (Draft.ofEdits d.edits).build.mapError .method

/-- The method of which this is said, with the defaults for all the rest. -/
def method (d : Description) : Method where
  token := d.token
  name := d.name.getD ""
  modifiers := (d.flags.map .ofFlags).getD .none
  returns := d.returns.getD .void
  params := d.params.getD []
  locals := d.locals.getD []

theorem foldl_params (cs : List ElementClass) (draft : Draft) :
    (cs.map .param).foldl Draft.apply draft = { draft with params := draft.params ++ cs } :=
  foldl_map_added Draft.apply .param (fun draft cs => { draft with params := draft.params ++ cs })
    (by simp) (by simp [Draft.apply]) cs draft

theorem ofEdits_edits (d : Description) :
    Draft.ofEdits d.edits =
      ⟨some d.token, d.method.name, d.method.modifiers, d.method.returns, d.method.params,
        d.method.locals⟩ := by
  obtain ⟨token, name, flags, returns, params, locals⟩ := d
  simp only [Draft.ofEdits, edits, List.foldl_cons, List.foldl_append, foldl_params]
  cases name <;> cases flags <;> cases returns <;> cases locals <;> rfl

theorem build_eq_ok {d : Description} (h : d.token.isNull = false) : d.build = .ok d.method := by
  rw [build, ofEdits_edits, Draft.build_eq_ok_of_token rfl h]
  rfl

/-- Whether its token is null or not, the method is found in the document. -/
theorem means_document (d : Description) : Means readMethod d.document d.method := by
  have hclasses := means_list_map (fun b => (finds_readClass b).steady) means_class
  have htexts := means_list_map (fun _ => finds_readText.steady) means_text
  -- Each entry fills the part of its field, or leaves it empty if there is none.
  refine means_record steady_methodFields
    (.append (enters_field (fun _ => rfl) rfl (means_token d.token))
    (.append (enters_entryOf (fun _ => rfl) rfl
      (MethodParts.mk (some d.token) · none none none none)
      rfl (fun _ => rfl) (rel_self_of_forall means_text d.name))
    (.append (enters_entryOf (fun _ => rfl) rfl
      (MethodParts.mk (some d.token) d.name · none none none)
      rfl (fun _ => rfl) (rel_map_of_forall means_flags d.flags))
    (.append (enters_entryOf (fun _ => rfl) rfl
      (MethodParts.mk (some d.token) d.name (d.flags.map .ofFlags) · none none)
      rfl (fun _ => rfl) (rel_self_of_forall means_class d.returns))
    (.append (enters_entryOf (fun _ => rfl) rfl
      (MethodParts.mk (some d.token) d.name (d.flags.map .ofFlags) d.returns · none)
      rfl (fun _ => rfl) (rel_self_of_forall hclasses d.params))
    (enters_entryOf (fun _ => rfl) rfl
      (MethodParts.mk (some d.token) d.name (d.flags.map .ofFlags) d.returns d.params)
      rfl (fun _ => rfl) (rel_self_of_forall htexts d.locals)))))))
    rfl

end Description

end Method

/-! ## Types -/

namespace TypeDecl

/-- What is said of a type, of which only the token has to be said. -/
structure Description where
  token : Token
  space : Option String := none
  name : Option String := none
  methods : Option (List Method.Description) := none
  nested : Option (List Description) := none

namespace Description

mutual

/-- The document with an entry for all that is said. -/
def document : Description → Document
  | ⟨token, space, name, methods, nested⟩ =>
      .object ([(some "token", tokenDocument token)] ++
        (entryOf "namespace" (space.map textDocument) ++
        (entryOf "name" (name.map textDocument) ++
        (entryOf "methods" (methods.map fun ms => .list (ms.map Method.Description.document)) ++
        entryOf "nested_types"
          (match nested with
          | none => none
          | some ts => some (.list (documents ts)))))))

/-- The documents of several types. -/
def documents : List Description → List Document
  | [] => []
  | d :: ds => d.document :: documents ds

end

mutual

/-- The type that is built of what is said, once its methods and its nested types are. -/
def build : Description → Except Malformed TypeDecl
  | ⟨token, space, name, methods, nested⟩ => do
      let methods ← (methods.getD []).mapM Method.Description.build
      let nested ← match nested with
        | none => pure []
        | some ts => buildAll ts
      (Draft.ofEdits (editsOf token space name methods nested)).build.mapError .type

/-- The types that are built of several descriptions, one after the other. -/
def buildAll : List Description → Except Malformed (List TypeDecl)
  | [] => pure []
  | d :: ds => do
      let t ← d.build
      let ts ← buildAll ds
      pure (t :: ts)

end

theorem documents_eq_map (ds : List Description) : documents ds = ds.map document := by
  induction ds with
  | nil => rfl
  | cons d ds ih => rw [documents, ih, List.map_cons]

theorem buildAll_eq_mapM (ds : List Description) : buildAll ds = ds.mapM build := by
  induction ds with
  | nil => rfl
  | cons d ds ih => rw [buildAll, ih, List.mapM_cons]

theorem document_eq (d : Description) :
    d.document = .object ([(some "token", tokenDocument d.token)] ++
      (entryOf "namespace" (d.space.map textDocument) ++
      (entryOf "name" (d.name.map textDocument) ++
      (entryOf "methods" (d.methods.map fun ms => .list (ms.map Method.Description.document)) ++
      entryOf "nested_types" (d.nested.map fun ts => .list (ts.map document)))))) := by
  obtain ⟨token, space, name, methods, nested⟩ := d
  cases nested with
  | none => rfl
  | some ts => rw [document, documents_eq_map]; rfl

theorem build_eq {d : Description} {methods : List Method} {nested : List TypeDecl}
    (hmethods : (d.methods.getD []).mapM Method.Description.build = .ok methods)
    (hnested : (d.nested.getD []).mapM build = .ok nested) :
    d.build =
      (Draft.ofEdits (editsOf d.token d.space d.name methods nested)).build.mapError .type := by
  obtain ⟨token, space, name, methods?, nested?⟩ := d
  cases nested? with
  | none =>
      cases hnested
      rw [build, hmethods]
      rfl
  | some ts =>
      have hall : buildAll ts = .ok nested := (buildAll_eq_mapM ts).trans hnested
      rw [build, hmethods]
      simp only [hall]
      rfl

/-- No token that is said is null, and the methods of each type have distinct tokens. -/
inductive Sound : Description → Prop where
  /-- the type, its methods and its nested types are sound -/
  | intro {d : Description} (token : d.token.isNull = false)
      (methods : ∀ m ∈ d.methods.getD [], m.token.isNull = false)
      (distinct : ((d.methods.getD []).map Method.Description.token).Nodup)
      (nested : ∀ t ∈ d.nested.getD [], Sound t) : Sound d

/-- A type is built of a sound description, and the same type is found in the document. -/
theorem Sound.exists_build {d : Description} (h : d.Sound) :
    ∃ t, d.build = .ok t ∧ Means readType d.document t := by
  induction h with
  | @intro d hnull hmethods hdistinct _ ih =>
      obtain ⟨nested, hnested⟩ := exists_forall₂_of_forall_exists ih
      obtain ⟨methods, hmethods⟩ : ∃ methods, List.Forall₂ (fun m x =>
          m.build = .ok x ∧ Means readMethod m.document x ∧ x.token = m.token)
          (d.methods.getD []) methods :=
        exists_forall₂_of_forall_exists fun m hm =>
          ⟨m.method, m.build_eq_ok (hmethods m hm), m.means_document, rfl⟩
      refine ⟨⟨d.token, d.space.getD "", d.name.getD "", methods, nested⟩, ?built, ?found⟩
      case built =>
        have htokens : (d.methods.getD []).map Method.Description.token =
            methods.map Method.token := by
          rw [← List.forall₂_eq_eq_eq, List.forall₂_map_left_iff, List.forall₂_map_right_iff]
          exact hmethods.imp fun _ _ h => h.2.2.symm
        rw [build_eq (mapM_eq_ok_of_forall₂ (hmethods.imp fun _ _ h => h.1))
            (mapM_eq_ok_of_forall₂ (hnested.imp fun _ _ h => h.1)),
          build_of_handedOver (handedOver_editsOf ..) hnull (htokens ▸ hdistinct)]
        rfl
      case found =>
        have hlists : readTypes = fun brackets => readList (inside readType brackets) :=
          funext readTypes_eq
        have hmethodList := rel_means_list steady_readMethod (hmethods.imp fun _ _ h => h.2.1)
        have hnestedList := rel_means_list (fun b => (steady_readType_and_readTypes b).1)
          (hnested.imp fun _ _ h => h.2)
        rw [← hlists] at hnestedList
        rw [funext readType_eq, document_eq]
        refine means_record
          (fun b => steady_typeFields b (steady_readType_and_readTypes b).2)
          (.append (enters_field (fun _ => rfl) rfl (means_token d.token))
          (.append (enters_entryOf (fun _ => rfl) rfl
            (TypeParts.mk (some d.token) · none none none)
            rfl (fun _ => rfl) (rel_self_of_forall means_text d.space))
          (.append (enters_entryOf (fun _ => rfl) rfl
            (TypeParts.mk (some d.token) d.space · none none)
            rfl (fun _ => rfl) (rel_self_of_forall means_text d.name))
          (.append (enters_entryOf (fun _ => rfl) rfl
            (TypeParts.mk (some d.token) d.space d.name · none)
            rfl (fun _ => rfl) hmethodList)
          (enters_entryOf (fun _ => rfl) rfl
            (TypeParts.mk (some d.token) d.space d.name (d.methods.map fun _ => methods))
            rfl (fun _ => rfl) hnestedList)))))
          ?_
        simp only [typeSchema, getD_map_const hmethods, getD_map_const hnested]

end Description

end TypeDecl

/-! ## Modules -/

namespace Module

/-- What is said of a module. -/
structure Description where
  name : Option String := none
  /-- The types that are not nested in others. -/
  types : Option (List TypeDecl.Description) := none

namespace Description

/-- The document with an entry for all that is said. -/
def document (d : Description) : Document :=
  .object (entryOf "name" (d.name.map textDocument) ++
    entryOf "types" (d.types.map fun ts => .list (ts.map TypeDecl.Description.document)))

/-- The module that is built of what is said, once its types are. -/
def build (d : Description) : Except Malformed Module := do
  let types ← (d.types.getD []).mapM TypeDecl.Description.build
  (Draft.ofEdits ((d.name.map Edit.name).toList ++ types.map .type)).build.mapError .defect

theorem foldl_types (ts : List TypeDecl) (draft : Draft) :
    (ts.map .type).foldl Draft.apply draft = { draft with types := draft.types ++ ts } :=
  foldl_map_added Draft.apply .type (fun draft ts => { draft with types := draft.types ++ ts })
    (by simp) (by simp [Draft.apply]) ts draft

/-- Where its types are sound, the module that is built of a description, or the defect of the
forest, is that of the dump which is found in the document. -/
theorem exists_build {d : Description} (h : ∀ t ∈ d.types.getD [], t.Sound) :
    ∃ dump, d.build = ofDump dump ∧ Means Dump.read d.document dump := by
  obtain ⟨types, htypes⟩ := exists_forall₂_of_forall_exists fun t ht => (h t ht).exists_build
  refine ⟨⟨d.name.getD "", types⟩, ?built, ?found⟩
  case built =>
    have hdraft : Draft.ofEdits ((d.name.map Edit.name).toList ++ types.map .type) =
        ⟨d.name.getD "", types⟩ := by
      rw [Draft.ofEdits, List.foldl_append, foldl_types]
      cases d.name <;> rfl
    have hbuilt := mapM_eq_ok_of_forall₂ (htypes.imp fun _ _ h => h.1)
    rw [build, hbuilt]
    show (Draft.ofEdits _).build.mapError Malformed.defect = _
    rw [hdraft, Draft.build, ofDump]
    cases Module.build (d.name.getD "") types <;> rfl
  case found =>
    have hlists : readTypes = fun brackets => readList (inside readType brackets) :=
      funext readTypes_eq
    have htypeList := rel_means_list (fun b => (steady_readType_and_readTypes b).1)
      (htypes.imp fun _ _ h => h.2)
    rw [← hlists] at htypeList
    refine means_record steady_fields
      (.append (enters_entryOf (fun _ => rfl) rfl (Parts.mk · none)
        rfl (fun _ => rfl) (rel_self_of_forall means_text d.name))
      (enters_entryOf (fun _ => rfl) rfl (Parts.mk d.name)
        rfl (fun _ => rfl) htypeList))
      ?_
    simp only [schema, getD_map_const htypes]

end Description

end Module

end VmHandler
