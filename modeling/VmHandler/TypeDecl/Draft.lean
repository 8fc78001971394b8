import VmHandler.TypeDecl

/-!
# Type drafts

A type is put together by edits in any order. The draft becomes a type once it has a token that is
not null and no two of its methods share a token.
-/

set_option autoImplicit false

namespace VmHandler.TypeDecl

/-- A type whose token may not be known yet. -/
structure Draft where
  token : Option Token := none
  space : String := ""
  name : String := ""
  methods : List Method := []
  nested : List TypeDecl := []
  deriving Repr

/-- One step of putting a type together. -/
inductive Edit where
  | token (token : Token)
  | space (space : String)
  | name (name : String)
  | method (method : Method)
  | nested (nested : TypeDecl)
  deriving Repr

/-- Why a draft is no type. -/
inductive Incomplete where
  | tokenMissing
  | tokenNull
  /-- a method has the token of an earlier one -/
  | repeatedMethod (owner method : Token)
  deriving DecidableEq, Repr

/-- What the reason says. -/
def Incomplete.message : Incomplete → String
  | tokenMissing => "TypeDef requires a token"
  | tokenNull => "TypeDef token cannot be null"
  | repeatedMethod owner method => s!"TypeDef {owner} declares method {method} twice"

/-- The first token of the list that stands among `seen` or earlier in the list. -/
def firstRepeated? (seen : List Token) : List Token → Option Token
  | [] => none
  | t :: ts => if seen.contains t then some t else firstRepeated? (t :: seen) ts

namespace Draft

/-- The draft after one edit. -/
def apply (d : Draft) : Edit → Draft
  | .token t => { d with token := some t }
  | .space s => { d with space := s }
  | .name s => { d with name := s }
  | .method m => { d with methods := d.methods ++ [m] }
  | .nested t => { d with nested := d.nested ++ [t] }

/-- The draft that a list of edits makes of an empty one. -/
def ofEdits (edits : List Edit) : Draft := edits.foldl apply {}

/-- The type of the draft. -/
def build (d : Draft) : Except Incomplete TypeDecl :=
  match d.token with
  | none => .error .tokenMissing
  | some t =>
      if t.isNull then .error .tokenNull
      else
        match firstRepeated? [] (d.methods.map Method.token) with
        | some m => .error (.repeatedMethod t m)
        | none => .ok ⟨t, d.space, d.name, d.methods, d.nested⟩

end Draft

end VmHandler.TypeDecl
