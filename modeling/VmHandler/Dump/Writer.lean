import VmHandler.Dump.Reader
import VmHandler.Json.Value
import VmHandler.Module

/-!
# Writing dumps

Every field is written, whether or not it has its default, in the order in which the reader lists
them; tokens as their texts and modifiers as a number.
-/

set_option autoImplicit false

namespace VmHandler

open VmHandler.Json

/-- A token as a text. -/
def Token.toValue (t : Token) : Value := .text t.text

/-- An element class as its name. -/
def ElementClass.toValue (c : ElementClass) : Value := .text c.name

/-- A method with all its fields. -/
def Method.toValue (m : Method) : Value :=
  .object
    [("token", m.token.toValue), ("name", .text m.name),
      ("flags", .natural m.modifiers.bits.toNat), ("return_type", m.returns.toValue),
      ("params", .list (m.params.map ElementClass.toValue)),
      ("locals", .list (m.locals.map Value.text))]

mutual

/-- A type with all its fields. -/
def TypeDecl.toValue : TypeDecl → Value
  | ⟨token, space, name, methods, nested⟩ =>
      .object
        [("token", token.toValue), ("namespace", .text space), ("name", .text name),
          ("methods", .list (methods.map Method.toValue)),
          ("nested_types", .list (Forest.toValues nested))]

/-- The types of a forest with all their fields. -/
def Forest.toValues : List TypeDecl → List Value
  | [] => []
  | t :: ts => TypeDecl.toValue t :: Forest.toValues ts

end

/-- A dump with all its fields. -/
def Dump.toValue (d : Dump) : Value :=
  .object [("name", .text d.name), ("types", .list (Forest.toValues d.types))]

/-- The dump of a module. -/
def Module.toDump (m : Module) : Dump := ⟨m.name, m.topLevel⟩

/-- The text of a token. -/
def Token.toJson (t : Token) : String := t.toValue.compact

/-- The text of an element class. -/
def ElementClass.toJson (c : ElementClass) : String := c.toValue.compact

/-- The text of a method. -/
def Method.toJson (m : Method) : String := m.toValue.compact

/-- The text of a type. -/
def TypeDecl.toJson (t : TypeDecl) : String := t.toValue.compact

/-- The text of a dump. -/
def Dump.toJson (d : Dump) : String := d.toValue.compact

/-- The text of a module. -/
def Module.toJson (m : Module) : String := m.toDump.toJson

end VmHandler
