/-!
# Method modifiers

The attributes of a method form a word of flags. Only the modifiers are kept of it; the access
level and the layout of the method table are not.
-/

set_option autoImplicit false

namespace VmHandler

/-- The modifiers of a method: a word of flags in which only modifier bits are set. This leaves out
the words with further bits, which a caller who retains every bit of a word could make and hand to
the draft of a method. -/
structure Modifiers where
  bits : UInt32
  /-- No other bit is set. -/
  kept : bits &&& 0xFEF8 = bits := by decide
  deriving DecidableEq, Repr

namespace Modifiers

/-- The bits that are modifiers. -/
def mask : UInt32 := 0xFEF8

/-- The modifiers of a method without any. -/
def none : Modifiers := ⟨0, by decide⟩

instance : Inhabited Modifiers := ⟨none⟩

/-- The modifiers among the attributes of a method. -/
def ofFlags (flags : UInt32) : Modifiers :=
  ⟨flags &&& mask, by simp only [mask, UInt32.and_assoc, UInt32.and_self]⟩

/-- The flag of a method without an instance. -/
def staticBit : UInt32 := 0x0010

/-- Whether the method has no instance. -/
def isStatic (m : Modifiers) : Bool := m.bits &&& staticBit = staticBit

/-- The modifiers with the method marked as one without an instance. -/
def markStatic (m : Modifiers) : Modifiers := ofFlags (m.bits ||| staticBit)

/-- The modifiers one by one, with the names under which they are listed. -/
def named : List (String × UInt32) :=
  [("STATIC", 0x0010), ("FINAL", 0x0020), ("VIRTUAL", 0x0040), ("HIDE_BY_SIG", 0x0080),
    ("STRICT", 0x0200), ("ABSTRACT", 0x0400), ("SPECIAL_NAME", 0x0800),
    ("RTSPECIAL_NAME", 0x1000), ("PINVOKE_IMPL", 0x2000), ("HAS_SECURITY", 0x4000),
    ("REQUIRE_SEC_OBJECT", 0x8000), ("UNMANAGED_EXPORT", 0x0008)]

/-- The names of the modifiers that are set. -/
def names (m : Modifiers) : List String :=
  (named.filter fun entry => m.bits &&& entry.2 = entry.2).map Prod.fst

@[ext] theorem ext {a b : Modifiers} (h : a.bits = b.bits) : a = b := by
  cases a; cases b; cases h; rfl

@[simp] theorem ofFlags_bits (m : Modifiers) : ofFlags m.bits = m :=
  ext m.kept

@[simp] theorem markStatic_bits (m : Modifiers) : m.markStatic.bits = m.bits ||| staticBit := by
  have hkept : m.bits &&& mask = m.bits := m.kept
  have hstatic : staticBit &&& mask = staticBit := by decide
  change (m.bits ||| staticBit) &&& mask = m.bits ||| staticBit
  apply UInt32.toBitVec_inj.mp
  rw [UInt32.toBitVec_and, UInt32.toBitVec_or, BitVec.and_or_distrib_right,
    ← UInt32.toBitVec_and, ← UInt32.toBitVec_and, hkept, hstatic]

@[simp] theorem isStatic_markStatic (m : Modifiers) : m.markStatic.isStatic = true := by
  have habsorbs : (m.bits ||| staticBit) &&& staticBit = staticBit := by
    apply UInt32.toBitVec_inj.mp
    ext i
    simp only [UInt32.toBitVec_and, UInt32.toBitVec_or, BitVec.getElem_and, BitVec.getElem_or]
    cases staticBit.toBitVec[i] <;> simp
  rw [isStatic, markStatic_bits, habsorbs, decide_eq_true_eq]

/-- A second mark adds nothing. -/
@[simp] theorem markStatic_markStatic (m : Modifiers) : m.markStatic.markStatic = m.markStatic := by
  apply ext
  rw [markStatic_bits, markStatic_bits, UInt32.or_assoc, UInt32.or_self]

end Modifiers

end VmHandler
