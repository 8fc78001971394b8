import VmHandler.Method

/-!
# Handler signatures

A signature is what the function handler of some generation of the protector looks like: a shape,
which is judged by the declaration of a method, and the types of local variables that the method
has to declare. Two shapes have names; any other is described by a pattern.
-/

set_option autoImplicit false

namespace VmHandler

/-! ## Shapes -/

/-- Constraints on the declaration of a method; what is absent is not constrained. -/
structure Pattern where
  /-- Whether the method is to be without an instance. -/
  static : Option Bool := none
  /-- The element class of the return value. -/
  returns : Option ElementClass := none
  /-- The element classes of the parameters, of which some may be left open. -/
  params : Option (List (Option ElementClass)) := none
  deriving DecidableEq, Repr

/-- Whether a constraint, where there is one, is met. -/
def Pattern.agrees {α : Type} [DecidableEq α] (wanted : Option α) (actual : α) : Bool :=
  match wanted with
  | none => true
  | some x => x = actual

/-- Whether there are as many parameters as constraints, and each meets its own. -/
def Pattern.paramsAgree : List (Option ElementClass) → List ElementClass → Bool
  | [], [] => true
  | wanted :: ws, actual :: cs => Pattern.agrees wanted actual && paramsAgree ws cs
  | _, _ => false

/-- Whether a method meets all constraints. -/
def Pattern.accepts (p : Pattern) (m : Method) : Bool :=
  Pattern.agrees p.static m.isStatic && Pattern.agrees p.returns m.returns
    && match p.params with
      | none => true
      | some wanted => Pattern.paramsAgree wanted m.params

/-- Whether a method has an instance, takes a class and a truth value and returns a class. -/
def Method.hasLegacyShape (m : Method) : Bool :=
  !m.isStatic && m.params.length = 2 && m.returns = .classType
    && m.params[0]? = some .classType && m.params[1]? = some .boolean

/-- Whether a method has an instance and no parameters. -/
def Method.hasParameterlessShape (m : Method) : Bool :=
  !m.isStatic && m.params.length = 0

/-- The shape of a handler. -/
inductive Shape where
  /-- the shape of old generations: a class and a truth value in, a class out -/
  | legacy
  /-- the shape of new generations: no parameters, any return value -/
  | parameterless
  /-- any shape that a pattern describes -/
  | pattern (pattern : Pattern)
  deriving DecidableEq, Repr

/-- Whether a method has the shape. -/
def Shape.accepts (m : Method) : Shape → Bool
  | legacy => m.hasLegacyShape
  | parameterless => m.hasParameterlessShape
  | pattern p => p.accepts m

/-! ## Signatures -/

/-- A shape and the local variables that go with it. -/
structure Signature where
  /-- The name under which a match is reported. -/
  name : String
  shape : Shape
  /-- The full names of the types of which a local variable has to be declared. -/
  locals : List String
  deriving DecidableEq, Repr

namespace Signature

/-- Whether a method has the shape and declares the local variables. -/
def accepts (s : Signature) (m : Method) : Bool :=
  s.shape.accepts m && m.declaresAll s.locals

/-- The types of local variables by which the handlers of all known generations are told. -/
def handlerLocals : List String :=
  ["System.Object", "System.Int32", "System.Reflection.MethodInfo",
    "System.Reflection.ParameterInfo[]", "System.Type[]",
    "System.Reflection.Emit.DynamicMethod", "System.Reflection.Emit.ILGenerator"]

/-- The handlers of old generations. -/
def legacy : Signature := ⟨"legacy", .legacy, handlerLocals⟩

/-- The handlers of new generations. -/
def parameterless : Signature := ⟨"parameterless", .parameterless, handlerLocals⟩

/-- The signatures of all known generations, the one to try first in front. -/
def known : List Signature := [legacy, parameterless]

end Signature

end VmHandler
