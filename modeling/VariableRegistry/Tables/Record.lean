/-
# Table sets as records

In a file a table set is a record of its tables, and so are its templates, its descriptors and its
options. All fields of a table set and of its options may be left out, and of a descriptor its last
two. The plain tables stand in front of those whose items are records. The blob is kept as the list
of its texts.
-/
import VariableRegistry.Shape
import VariableRegistry.Tables.TableSet

namespace VariableRegistry

/-! ## Templates -/

namespace Template

variable {t : NumType}

/-- A template is a record of three numbers. -/
def shape (t : NumType) : Shape :=
  .record <|
    .required "def_value" (.number t) <|
    .required "min" (.number t) <|
    .required "max" (.number t) .nil

/-- The template as a record. -/
def toRecord (x : Template t.Carrier) : (shape t).Value := (x.default, x.min, x.max, ())

/-- The template with a record. -/
def ofRecord : (shape t).Value → Template t.Carrier
  | (default, min, max, ()) => ⟨default, min, max⟩

@[simp] theorem ofRecord_toRecord (x : Template t.Carrier) : ofRecord x.toRecord = x := rfl

end Template

/-! ## Descriptors -/

namespace RawDescriptor

/-- A descriptor is a record of nine words. -/
def shape : Shape :=
  .record <|
    .required "hnd" .word <|
    .required "scpi_idx" .word <|
    .required "type" .word <|
    .required "vec_items" .word <|
    .required "acc_rights" .word <|
    .required "descr_idx" .word <|
    .required "data_idx" .word <|
    .optional "storage" .word <|
    .optional "fmt" .word .nil

/-- The descriptor as a record. -/
def toRecord (v : RawDescriptor) : shape.Value :=
  (v.handle, v.name, v.type, v.channels, v.rights, v.source, v.data, v.storage, v.format, ())

/-- The descriptor with a record. -/
def ofRecord : shape.Value → RawDescriptor
  | (handle, name, type, channels, rights, source, data, storage, format, ()) =>
    ⟨handle, name, type, channels, rights, source, data, storage, format⟩

@[simp] theorem ofRecord_toRecord (v : RawDescriptor) : ofRecord v.toRecord = v := rfl

end RawDescriptor

/-! ## Options -/

namespace AccessPolicy

/-- A policy is one of two names. -/
def shape : Shape := .choice "exact" ["subset"]

/-- The position of the name of a policy. -/
def toChoice : AccessPolicy → Fin 2
  | exact => 0
  | subset => 1

/-- The policy whose name has a position. -/
def ofChoice (i : Fin 2) : AccessPolicy := if i = 0 then exact else subset

@[simp] theorem ofChoice_toChoice (p : AccessPolicy) : ofChoice p.toChoice = p := by
  cases p <;> rfl

end AccessPolicy

/-! ## Table sets -/

namespace TableSet

/-- The options are a record of the policy. -/
def optionsShape : Shape := .record (.optional "access_policy" AccessPolicy.shape .nil)

/-- A table set is a record of its tables and its options. -/
def shape : Shape :=
  .record <|
    .optional "data_s16_cnt" .word <|
    .optional "data_s32_cnt" .word <|
    .optional "data_f32_cnt" .word <|
    .optional "data_f64_cnt" .word <|
    .optional "data_str_cnt" .word <|
    .optional "data_enum_cnt" .word <|
    .optional "const_str" (.list .text) <|
    .optional "enum_members" (.list (.number .int16)) <|
    .optional "descr_s16" (.list (Template.shape .int16)) <|
    .optional "descr_s32" (.list (Template.shape .int32)) <|
    .optional "descr_f32" (.list (Template.shape .float)) <|
    .optional "descr_f64" (.list (Template.shape .double)) <|
    .optional "vars" (.list RawDescriptor.shape) <|
    .optional "options" optionsShape .nil

/-- The templates of a number type as records. -/
def templateRecords (s : TableSet) (t : NumType) : List (Template.shape t).Value :=
  (s.templates.get t).toList.map Template.toRecord

/-- The table set as a record. -/
def toRecord (s : TableSet) : shape.Value :=
  (s.cells.int16, s.cells.int32, s.cells.float, s.cells.double, s.stringCells, s.enumCells,
    s.blob.toStrings, s.enumWords.toList, s.templateRecords .int16, s.templateRecords .int32,
    s.templateRecords .float, s.templateRecords .double, s.vars.toList.map RawDescriptor.toRecord,
    (s.policy.toChoice, ()), ())

/-- The templates with some records. -/
def templatesOf {t : NumType} (records : List (Template.shape t).Value) :
    Array (Template t.Carrier) :=
  (records.map Template.ofRecord).toArray

/-- The table set with a record. -/
def ofRecord : shape.Value → TableSet
  | (int16, int32, float, double, strings, enums, texts, words, templates16, templates32,
      templatesF, templatesD, vars, (policy, ()), ()) => {
    cells := ⟨int16, int32, float, double⟩
    stringCells := strings
    enumCells := enums
    blob := .ofStrings texts
    enumWords := words.toArray
    templates := ⟨templatesOf templates16, templatesOf templates32, templatesOf templatesF,
      templatesOf templatesD⟩
    vars := (vars.map RawDescriptor.ofRecord).toArray
    policy := .ofChoice policy }

end TableSet

end VariableRegistry
