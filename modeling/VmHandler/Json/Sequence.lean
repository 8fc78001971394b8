import VmHandler.Json.Scalar
import VmHandler.Json.Skip

/-!
# Lists and records

A list holds any number of values of one kind. A record is an object with known fields, in any
order and each at most once, or a list of their values in the order of the fields, which may end
early. Keys that name no field are skipped with their values.

A reader that may open no further bracket is handed none for what stands inside; it refuses the
bracket as soon as it sees it.
-/

set_option autoImplicit false

namespace VmHandler.Json

/-- Where a list or an object goes on. -/
inductive Advance where
  /-- it has ended, and this is the rest behind it -/
  | closed (rest : Octets)
  /-- an element or a key begins -/
  | entry (rest : Octets)
  deriving DecidableEq, Repr

/-! ## Lists -/

/-- The next element of a list; a comma comes before each one but the first. -/
def nextElement (isFirst : Bool) (bs : Octets) : Except Fault Advance :=
  match skipBlanks bs with
  | [] => .error .endInList
  | b :: rest =>
      if b = octet ']' then .ok (.closed rest)
      else if isFirst then .ok (.entry (b :: rest))
      else if b = octet ',' then
        match skipBlanks rest with
        | [] => .error .endInValue
        | c :: rest =>
            if c = octet ']' then .error .trailingComma else .ok (.entry (c :: rest))
      else .error .listEndWanted

/-- The elements of a list up to its end. The elements read so far are `done`, last one first; the
first list is at least as long as the text and only bounds the number of rounds. -/
def readElements {α : Type} (item : Step α) : Octets → Bool → List α → Step (List α)
  | [], _, _, _ => .error .endInList
  | _ :: bound, isFirst, done, bs =>
      match nextElement isFirst bs with
      | .error f => .error f
      | .ok (.closed rest) => .ok (done.reverse, rest)
      | .ok (.entry rest) =>
          match item rest with
          | .error f => .error f
          | .ok (x, rest) => readElements item bound false (x :: done) rest

/-- Reads a list. -/
def readList {α : Type} (item : Option (Step α)) : Step (List α) := fun bs =>
  match skipBlanks bs with
  | [] => .error .endInValue
  | b :: rest =>
      if b = octet '[' then
        match item with
        | none => .error .tooDeep
        | some item => readElements item (b :: rest) true [] rest
      else .error (misfit "a sequence" (b :: rest))

/-! ## Records -/

/-- A field of a record whose parts are collected in a value of type `δ`. -/
structure FieldReader (δ : Type) where
  key : String
  /-- Whether the field has been read. -/
  present : δ → Bool
  read : δ → Step δ

/-- A kind of record. -/
structure Schema (δ α : Type) where
  /-- How diagnostics call the record. -/
  title : String
  /-- The parts before any field is read. -/
  blank : δ
  /-- The record of the parts, or the key of a field that has to be present. -/
  finish : δ → Except String α

/-- The next key of an object, behind its opening quote; a comma comes before each key but the
first. -/
def nextKey (isFirst : Bool) (bs : Octets) : Except Fault Advance :=
  match skipBlanks bs with
  | [] => .error .endInObject
  | b :: rest =>
      if b = octet '\x7d' then .ok (.closed rest)
      else if isFirst then
        if b = octet '"' then .ok (.entry rest) else .error .keyWanted
      else if b = octet ',' then
        match skipBlanks rest with
        | [] => .error .endInValue
        | c :: rest =>
            if c = octet '"' then .ok (.entry rest)
            else if c = octet '\x7d' then .error .trailingComma
            else .error .keyWanted
      else .error .objectEndWanted

/-- The text behind the colon that follows a key. -/
def afterColon (bs : Octets) : Except Fault Octets :=
  match skipBlanks bs with
  | [] => .error .endInObject
  | b :: rest => if b = octet ':' then .ok rest else .error .colonWanted

/-- The parts after the value of a key, which is read if the key names a field. -/
def readEntry {δ : Type} (fields : List (FieldReader δ)) (key : String) (parts : δ) : Step δ :=
  fun bs =>
    match fields.find? (·.key = key) with
    | some field =>
        if field.present parts then .error (.repeatedField key)
        else
          match afterColon bs with
          | .error f => .error f
          | .ok rest => field.read parts rest
    | none =>
        match afterColon bs with
        | .error f => .error f
        | .ok rest =>
            match skipValue rest with
            | .error f => .error f
            | .ok rest => .ok (parts, rest)

/-- The parts after the entries of an object up to its end; the first list only bounds the number
of rounds. -/
def readEntries {δ : Type} (fields : List (FieldReader δ)) : Octets → Bool → δ → Step δ
  | [], _, _, _ => .error .endInObject
  | _ :: bound, isFirst, parts, bs =>
      match nextKey isFirst bs with
      | .error f => .error f
      | .ok (.closed rest) => .ok (parts, rest)
      | .ok (.entry rest) =>
          match readQuoted rest with
          | .error f => .error f
          | .ok (key, rest) =>
              match readEntry fields key parts rest with
              | .error f => .error f
              | .ok (parts, rest) => readEntries fields bound false parts rest

/-- The end of a list of fields, all of which have been read. -/
def afterFields (bs : Octets) : Except Fault Octets :=
  match skipBlanks bs with
  | [] => .error .endInList
  | b :: rest =>
      if b = octet ']' then .ok rest
      else if b = octet ',' then
        match skipBlanks rest with
        | [] => .error .trailingText
        | c :: _ => if c = octet ']' then .error .trailingComma else .error .trailingText
      else .error .trailingText

/-- The parts after the values of a list of fields up to its end. -/
def readFields {δ : Type} : List (FieldReader δ) → Bool → δ → Step δ
  | [], _, parts, bs =>
      match afterFields bs with
      | .error f => .error f
      | .ok rest => .ok (parts, rest)
  | field :: fields, isFirst, parts, bs =>
      match nextElement isFirst bs with
      | .error f => .error f
      | .ok (.closed rest) => .ok (parts, rest)
      | .ok (.entry rest) =>
          match field.read parts rest with
          | .error f => .error f
          | .ok (parts, rest) => readFields fields false parts rest

/-- The fault of a list of fields that ends before the one with the given key. -/
def shortFault {δ : Type} (title : String) (fields : List (FieldReader δ)) (key : String) :
    Fault :=
  .tooShort (fields.findIdx (·.key = key)) s!"{title} with {fields.length} elements"

/-- Reads a record. -/
def readRecord {δ α : Type} (schema : Schema δ α) (fields : Option (List (FieldReader δ))) :
    Step α :=
  fun bs =>
    match skipBlanks bs with
    | [] => .error .endInValue
    | b :: rest =>
        if b = octet '\x7b' then
          match fields with
          | none => .error .tooDeep
          | some fields =>
              match readEntries fields (b :: rest) true schema.blank rest with
              | .error f => .error f
              | .ok (parts, rest) =>
                  match schema.finish parts with
                  | .error key => .error (.missingField key)
                  | .ok x => .ok (x, rest)
        else if b = octet '[' then
          match fields with
          | none => .error .tooDeep
          | some fields =>
              match readFields fields true schema.blank rest with
              | .error f => .error f
              | .ok (parts, rest) =>
                  match schema.finish parts with
                  | .error key => .error (shortFault schema.title fields key)
                  | .ok x => .ok (x, rest)
        else .error (misfit schema.title (b :: rest))

/-! ## Whole texts -/

/-- Reads a text that holds one value and blanks. -/
def readWhole {α : Type} (step : Step α) (bs : Octets) : Except Fault α :=
  match step bs with
  | .error f => .error f
  | .ok (x, rest) => if (skipBlanks rest).isEmpty then .ok x else .error .trailingText

end VmHandler.Json
