import VmHandler.Method

/-!
# Method drafts

A method is put together by edits in any order: one that sets a part replaces what was set before,
one that adds a part keeps it. The draft becomes a method once it has a token that is not null.
-/

set_option autoImplicit false

namespace VmHandler.Method

/-- A method whose token may not be known yet. -/
structure Draft where
  token : Option Token := none
  name : String := ""
  modifiers : Modifiers := .none
  returns : ElementClass := .void
  params : List ElementClass := []
  locals : List String := []
  deriving DecidableEq, Repr

/-- One step of putting a method together. -/
inductive Edit where
  | token (token : Token)
  | name (name : String)
  /-- replaces the modifiers -/
  | modifiers (modifiers : Modifiers)
  /-- adds to the modifiers that the method has no instance -/
  | markStatic
  | returns (cls : ElementClass)
  | param (cls : ElementClass)
  | localVar (typeName : String)
  | localVars (typeNames : List String)
  deriving DecidableEq, Repr

/-- Why a draft is no method. -/
inductive Incomplete where
  | tokenMissing
  | tokenNull
  deriving DecidableEq, Repr

/-- What the reason says. -/
def Incomplete.message : Incomplete → String
  | tokenMissing => "MethodDef requires a token"
  | tokenNull => "MethodDef token cannot be null"

namespace Draft

/-- The draft after one edit. -/
def apply (d : Draft) : Edit → Draft
  | .token t => { d with token := some t }
  | .name s => { d with name := s }
  | .modifiers m => { d with modifiers := m }
  | .markStatic => { d with modifiers := d.modifiers.markStatic }
  | .returns c => { d with returns := c }
  | .param c => { d with params := d.params ++ [c] }
  | .localVar s => { d with locals := d.locals ++ [s] }
  | .localVars ss => { d with locals := d.locals ++ ss }

/-- The draft that a list of edits makes of an empty one. -/
def ofEdits (edits : List Edit) : Draft := edits.foldl apply {}

/-- The method of the draft. -/
def build (d : Draft) : Except Incomplete Method :=
  match d.token with
  | none => .error .tokenMissing
  | some t =>
      if t.isNull then .error .tokenNull
      else .ok ⟨t, d.name, d.modifiers, d.returns, d.params, d.locals⟩

end Draft

end VmHandler.Method
