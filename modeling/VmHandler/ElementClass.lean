/-!
# Element classes

The leading element type of a return value or a parameter, which is all that the shape of a method
is judged by. Each class but one has a byte in a method signature and all of them have a name. The
class of all objects has a byte of its own and is not a class type.
-/

set_option autoImplicit false

namespace VmHandler

/-- The classification of a return value or parameter by its element type. -/
inductive ElementClass where
  /-- none of the element types below -/
  | unknown
  | void
  | boolean
  | char
  | int8
  | uint8
  | int16
  | uint16
  | int32
  | uint32
  | int64
  | uint64
  | float32
  | float64
  | string
  /-- an unmanaged pointer -/
  | pointer
  /-- a managed reference to a place -/
  | reference
  | valueType
  | classType
  /-- a parameter of the generic type -/
  | typeParameter
  /-- an array of any rank -/
  | array
  /-- an instance of a generic type -/
  | genericInstance
  /-- a reference that carries its type -/
  | typedReference
  | nativeInt
  | nativeUInt
  | functionPointer
  /-- the class of all objects -/
  | object
  /-- an array of rank one that begins at zero -/
  | vector
  /-- a parameter of the generic method -/
  | methodParameter
  deriving DecidableEq, Repr

namespace ElementClass

instance : Inhabited ElementClass := ⟨unknown⟩

/-- Every class, in the order in which diagnostics list them. -/
def all : List ElementClass :=
  [unknown, void, boolean, char, int8, uint8, int16, uint16, int32, uint32, int64, uint64,
    float32, float64, string, pointer, reference, valueType, classType, typeParameter, array,
    genericInstance, typedReference, nativeInt, nativeUInt, functionPointer, object, vector,
    methodParameter]

theorem mem_all (c : ElementClass) : c ∈ all := by
  cases c <;> decide

/-- The name of a class. -/
def name : ElementClass → String
  | unknown => "unknown"
  | void => "void"
  | boolean => "boolean"
  | char => "char"
  | int8 => "i1"
  | uint8 => "u1"
  | int16 => "i2"
  | uint16 => "u2"
  | int32 => "i4"
  | uint32 => "u4"
  | int64 => "i8"
  | uint64 => "u8"
  | float32 => "r4"
  | float64 => "r8"
  | string => "string"
  | pointer => "ptr"
  | reference => "byref"
  | valueType => "valuetype"
  | classType => "class"
  | typeParameter => "var"
  | array => "array"
  | genericInstance => "genericinst"
  | typedReference => "typedbyref"
  | nativeInt => "i"
  | nativeUInt => "u"
  | functionPointer => "fnptr"
  | object => "object"
  | vector => "szarray"
  | methodParameter => "mvar"

/-- The class of a name; names are matched as they are written. -/
def ofName? (s : String) : Option ElementClass := all.find? (·.name = s)

/-- The byte that stands for a class in a method signature. -/
def byte? : ElementClass → Option Nat
  | unknown => none
  | void => some 0x01
  | boolean => some 0x02
  | char => some 0x03
  | int8 => some 0x04
  | uint8 => some 0x05
  | int16 => some 0x06
  | uint16 => some 0x07
  | int32 => some 0x08
  | uint32 => some 0x09
  | int64 => some 0x0A
  | uint64 => some 0x0B
  | float32 => some 0x0C
  | float64 => some 0x0D
  | string => some 0x0E
  | pointer => some 0x0F
  | reference => some 0x10
  | valueType => some 0x11
  | classType => some 0x12
  | typeParameter => some 0x13
  | array => some 0x14
  | genericInstance => some 0x15
  | typedReference => some 0x16
  | nativeInt => some 0x18
  | nativeUInt => some 0x19
  | functionPointer => some 0x1B
  | object => some 0x1C
  | vector => some 0x1D
  | methodParameter => some 0x1E

/-- The class of a byte; a byte that no class has is of the unknown class. -/
def ofByte (b : Nat) : ElementClass := (all.find? (·.byte? = some b)).getD unknown

theorem ofName?_name (c : ElementClass) : ofName? c.name = some c := by
  cases c <;> decide

theorem name_of_ofName? {s : String} {c : ElementClass} (h : ofName? s = some c) :
    c.name = s := by
  simpa using List.find?_some h

theorem ofByte_of_byte? {c : ElementClass} {b : Nat} (h : c.byte? = some b) :
    ofByte b = c := by
  cases c <;> simp only [byte?, Option.some.injEq, reduceCtorEq] at h <;> subst h <;> decide

end ElementClass

end VmHandler
