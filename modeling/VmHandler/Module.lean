import VmHandler.Forest
import VmHandler.Module.Catalog
import VmHandler.Text.Quoted

/-!
# Modules

A module is a name and a forest of types whose tokens tell its types and its methods apart. The
order of the visit and the catalog follow from the forest, so two modules with one name and one
forest are equal.
-/

set_option autoImplicit false

namespace VmHandler

/-- A module together with its types in the order of the visit and its catalog. -/
structure Module where
  name : String
  /-- The types that are not nested in others. -/
  topLevel : Forest
  /-- All types, in the order of the visit. -/
  types : List TypeDecl
  catalog : Catalog
  types_eq : types = Forest.traverse topLevel
  catalog_eq : Catalog.ofTypes types = .ok catalog

namespace Module

/-- The module of a name and a forest, or the first defect of the forest. -/
def build (name : String) (topLevel : Forest) : Except Defect Module :=
  match h : Catalog.ofTypes (Forest.traverse topLevel) with
  | .error d => .error d
  | .ok catalog => .ok ⟨name, topLevel, Forest.traverse topLevel, catalog, rfl, h⟩

/-- The number of methods of all types. -/
def methodCount (m : Module) : Nat := m.catalog.methods.size

/-- The type with a given token. -/
def type? (m : Module) (token : Token) : Option TypeDecl := m.catalog.type? token

/-- The method with a given token. -/
def method? (m : Module) (token : Token) : Option Method := m.catalog.method? token

/-- The type that declares the method with a given token. -/
def owner? (m : Module) (token : Token) : Option TypeDecl := m.catalog.owner? token

/-- The module with a catalog filled anew from the entries of its own. -/
def copy (m : Module) : Module :=
  { m with catalog := m.catalog.copy, catalog_eq := by rw [m.catalog.copy_eq]; exact m.catalog_eq }

/-- The name and the counts of a module in one line. -/
def summary (m : Module) : String :=
  "ModuleDef \x7b name: " ++ Text.quoted m.name ++ ", types: " ++ toString m.types.length
    ++ ", methods: " ++ toString m.methodCount ++ " \x7d"

/-- Name and forest determine a module. -/
theorem eq_of_topLevel {a b : Module} (hname : a.name = b.name)
    (hforest : a.topLevel = b.topLevel) : a = b := by
  obtain ⟨an, af, at', ac, ha, hac⟩ := a
  obtain ⟨bn, bf, bt, bc, hb, hbc⟩ := b
  cases hname
  cases hforest
  cases ha.trans hb.symm
  cases hac.symm.trans hbc
  rfl

end Module

end VmHandler
