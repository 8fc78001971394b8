import VmHandler.Module

/-!
# Module drafts

A module is put together by setting its name and adding types. Its tokens are only judged when it
is built.
-/

set_option autoImplicit false

namespace VmHandler.Module

/-- The parts of a module. -/
structure Draft where
  name : String := ""
  types : Forest := []
  deriving Repr

/-- One step of putting a module together. -/
inductive Edit where
  | name (name : String)
  /-- adds a type that is not nested in another -/
  | type (type : TypeDecl)
  deriving Repr

namespace Draft

/-- The draft after one edit. -/
def apply (d : Draft) : Edit → Draft
  | .name s => { d with name := s }
  | .type t => { d with types := d.types ++ [t] }

/-- The draft that a list of edits makes of an empty one. -/
def ofEdits (edits : List Edit) : Draft := edits.foldl apply {}

/-- The module of the draft. -/
def build (d : Draft) : Except Defect Module := Module.build d.name d.types

end Draft

end VmHandler.Module
