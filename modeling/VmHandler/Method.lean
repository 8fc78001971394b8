import VmHandler.Token
import VmHandler.ElementClass
import VmHandler.Modifiers

/-!
# Methods

What the search looks at in a method: whether it has an instance, the element classes of its return
value and its parameters, and the declared types of its local variables. Code is no part of it.
-/

set_option autoImplicit false

namespace VmHandler

/-- A method. The instance is not among the parameters. -/
structure Method where
  token : Token
  /-- The name, for information only. -/
  name : String := ""
  modifiers : Modifiers := .none
  /-- The element class of the return value. -/
  returns : ElementClass := .void
  /-- The element classes of the declared parameters, in order. -/
  params : List ElementClass := []
  /-- The full names of the types of the local variables, in order of declaration. -/
  locals : List String := []
  deriving DecidableEq, Repr

namespace Method

/-- Whether the method has no instance. -/
def isStatic (m : Method) : Bool := m.modifiers.isStatic

/-! ## Local variables

Only the set of the declared types counts: neither their order nor how often one is declared. -/

/-- Whether a local variable of the named type is declared. -/
def declares (m : Method) (typeName : String) : Bool := m.locals.contains typeName

/-- Whether a local variable of each of the named types is declared. -/
def declaresAll (m : Method) (typeNames : List String) : Bool := typeNames.all m.declares

/-- The named types of which no local variable is declared, in the order of the names. -/
def undeclared (m : Method) (typeNames : List String) : List String :=
  typeNames.filter fun typeName => !m.declares typeName

/-- The types of the local variables, each once. -/
def distinctLocals (m : Method) : List String := m.locals.eraseDups

end Method

end VmHandler
