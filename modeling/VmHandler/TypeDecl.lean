import VmHandler.Method

/-!
# Type declarations

A type declares methods and further types nested in it, so the types of a module form a forest.
-/

set_option autoImplicit false

namespace VmHandler

/-- A type with its methods and nested types, both in order of declaration. -/
structure TypeDecl where
  token : Token
  /-- The namespace; empty for a type outside all namespaces. -/
  space : String
  /-- The name inside the namespace. -/
  name : String
  methods : List Method
  /-- The types nested directly in this one. -/
  nested : List TypeDecl
  deriving Repr

namespace TypeDecl

/-- The name, behind the namespace and a dot where there is a namespace. -/
def fullName (t : TypeDecl) : String :=
  if t.space.isEmpty then t.name else t.space ++ "." ++ t.name

/-- The first method with a given token. -/
def method? (t : TypeDecl) (token : Token) : Option Method :=
  t.methods.find? (·.token = token)

end TypeDecl

end VmHandler
