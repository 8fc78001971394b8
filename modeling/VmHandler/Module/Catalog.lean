import Std.Data.ExtTreeMap.Lemmas
import VmHandler.TypeDecl

/-!
# Catalogs

A catalog finds types and methods by token. It is filled type by type, and the first token that is
null or that is taken ends the filling: within a type its own token comes first, then the tokens of
its methods in order, and of each token null comes first. Types and methods are kept apart, so a
type and a method may share a token.

Two catalogs with the same entries are equal, in whatever order they were filled. So a copy, which
is filled from the entries of another catalog, is that catalog again.
-/

set_option autoImplicit false

namespace VmHandler

/-- The defect of a forest for which there is no catalog. -/
inductive Defect where
  /-- the type has the null token -/
  | nullType (name : String)
  /-- an earlier type has the token -/
  | repeatedType (token : Token)
  /-- the method has the null token -/
  | nullMethod (name : String) (owner : Token)
  /-- an earlier method has the token -/
  | repeatedMethod (token : Token)
  deriving DecidableEq, Repr

/-- What the defect says. -/
def Defect.message : Defect → String
  | nullType name => s!"Type '{name}' has a null token"
  | repeatedType token => s!"Duplicate type token {token}"
  | nullMethod name owner => s!"Method '{name}' of type {owner} has a null token"
  | repeatedMethod token => s!"Duplicate method token {token}"

/-- Types and methods by token, the methods with their declaring types. -/
structure Catalog where
  types : Std.ExtTreeMap Token TypeDecl
  /-- The declaring types and the methods. -/
  methods : Std.ExtTreeMap Token (TypeDecl × Method)

namespace Catalog

/-- The catalog without entries. -/
def empty : Catalog := ⟨∅, ∅⟩

/-- The catalog with one method more. -/
def addMethod (c : Catalog) (owner : TypeDecl) (m : Method) : Except Defect Catalog :=
  if m.token.isNull then .error (.nullMethod m.name owner.token)
  else if c.methods.contains m.token then .error (.repeatedMethod m.token)
  else .ok { c with methods := c.methods.insert m.token (owner, m) }

/-- The catalog with several methods of one type more. -/
def addMethods (c : Catalog) (owner : TypeDecl) : List Method → Except Defect Catalog
  | [] => .ok c
  | m :: ms =>
      match c.addMethod owner m with
      | .error d => .error d
      | .ok c => addMethods c owner ms

/-- The catalog with one type and its methods more; nested types are not added. -/
def addType (c : Catalog) (t : TypeDecl) : Except Defect Catalog :=
  if t.token.isNull then .error (.nullType t.name)
  else if c.types.contains t.token then .error (.repeatedType t.token)
  else addMethods { c with types := c.types.insert t.token t } t t.methods

/-- The catalog with several types and their methods more. -/
def addTypes (c : Catalog) : List TypeDecl → Except Defect Catalog
  | [] => .ok c
  | t :: ts =>
      match c.addType t with
      | .error d => .error d
      | .ok c => addTypes c ts

/-- The catalog of a list of types. -/
def ofTypes (ts : List TypeDecl) : Except Defect Catalog := empty.addTypes ts

/-- The type with a given token. -/
def type? (c : Catalog) (token : Token) : Option TypeDecl := c.types[token]?

/-- The method with a given token. -/
def method? (c : Catalog) (token : Token) : Option Method := c.methods[token]?.map Prod.snd

/-- The type that declares the method with a given token. -/
def owner? (c : Catalog) (token : Token) : Option TypeDecl := c.methods[token]?.map Prod.fst

/-! ## Copies -/

/-- The catalog filled anew, in the order of the tokens, from its own entries. -/
def copy (c : Catalog) : Catalog := ⟨.ofList c.types.toList, .ofList c.methods.toList⟩

theorem ofList_toList {β : Type} (entries : Std.ExtTreeMap Token β) :
    Std.ExtTreeMap.ofList entries.toList = entries := by
  apply Std.ExtTreeMap.ext_getElem?
  intro token
  cases h : entries[token]? with
  | some x =>
      exact Std.ExtTreeMap.getElem?_ofList_of_mem Std.ReflOrd.compare_self
        Std.ExtTreeMap.distinct_keys_toList
        (Std.ExtTreeMap.mem_toList_iff_getElem?_eq_some.mpr h)
  | none =>
      apply Std.ExtTreeMap.getElem?_ofList_of_contains_eq_false
      rw [Std.ExtTreeMap.map_fst_toList_eq_keys, List.contains_eq_mem, decide_eq_false_iff_not,
        Std.ExtTreeMap.mem_keys]
      rw [Std.ExtTreeMap.mem_iff_isSome_getElem?, h]
      exact Bool.false_ne_true

theorem copy_eq (c : Catalog) : c.copy = c := by
  rw [copy, ofList_toList, ofList_toList]

end Catalog

end VmHandler
