/-
# The directory

The directory is the typed, checked view of a table set. Every raw descriptor is checked against
the tables that it points into and turned into a typed one, so that no access has to trust a raw
word again. Variables may share the words of an enumeration; its members are then read once.
-/
import VariableRegistry.Fallible
import VariableRegistry.Registry.Descriptor
import VariableRegistry.Tables.Fault

namespace VariableRegistry

/-! ## The directory -/

/-- The number of cells of each array. -/
structure CellCounts where
  numbers : PerType fun _ => Nat
  enums : Nat
  strings : Nat

/-- The number of cells of an array. -/
def CellCounts.get (c : CellCounts) : DataArray → Nat
  | .number t => c.numbers.get t
  | .enums => c.enums
  | .strings => c.strings

/-- What a registry knows about its variables, none of which changes. -/
structure Directory where
  vars : Array Descriptor
  templates : PerType fun t => Array (Template t.Carrier)
  enums : Array Enumeration
  blob : Blob
  counts : CellCounts

namespace Directory

/-- The variable with a handle. -/
def var (d : Directory) (h : Handle) : Except AccessError Descriptor :=
  demand d.vars[h.index]? .unknownHandle

/-- The handles of all variables in order. -/
def handles (d : Directory) : List Handle :=
  (List.range d.vars.size).map fun i => ⟨UInt16.ofNat i⟩

/-- The members at a position. -/
def enumeration (d : Directory) (position : Nat) : Except AccessError Enumeration :=
  demand d.enums[position]? .generic

end Directory

/-! ## Checks -/

namespace TableSet

/-- The number of cells of each array. -/
def counts (t : TableSet) : CellCounts where
  numbers := PerType.ofFn fun u => (t.cells.get u).toNat
  enums := t.enumCells.toNat
  strings := t.stringCells.toNat

/-- The cells of a variable lie in their array. -/
def checkCells (t : TableSet) (array : DataArray) (first : Nat) (raw : RawDescriptor) :
    Except VariableFault Unit :=
  let stop := first + raw.channels.toNat
  let size := t.counts.get array
  require (stop ≤ size) (.cellsOutside first stop array size)

/-- The text at an offset, unless the word says that there is none. -/
def readText (t : TableSet) (offset : UInt16) (fault : VariableFault) :
    Except VariableFault (Option String) :=
  if offset = Handle.none.word then .ok none
  else (demand (t.blob.textAt? offset.toNat) fault).map some

/-! ### Enumerations -/

/-- Reads the three words of a member. -/
def readMember (t : TableSet) (handle value symbol : Int16) : Except VariableFault Member := do
  let handle : Handle := ⟨handle.toUInt16⟩
  require (handle.isNone || handle.index < t.vars.size) (.enumHandle handle)
  let symbol ← t.readText symbol.toUInt16 .symbolOutside
  return { handle, value, symbol }

/-- Reads words in groups of three as members. -/
def readMembers (t : TableSet) : List Int16 → Except VariableFault (List Member)
  | handle :: value :: symbol :: words => do
    let member ← t.readMember handle value symbol
    let members ← readMembers t words
    return member :: members
  | _ => .ok []

/-- Reads the enumeration whose words begin at a position. -/
def readEnumeration (t : TableSet) (start : Nat) : Except VariableFault Enumeration := do
  let default ← demand t.enumWords[start]? .enumOutside
  let count ← demand t.enumWords[start + 1]? .enumOutside
  require (0 < count.toInt) .enumEmpty
  require (0 ≤ default.toInt && default.toInt < count.toInt)
    (.enumDefault default.toInt count.toInt)
  let first := start + enumHeaderWords
  let stop := first + count.toInt.toNat * enumMemberWords
  require (stop ≤ t.enumWords.size) .enumTruncated
  let members ← t.readMembers (t.enumWords.extract first stop).toList
  return { default := default.toInt.toNat, members }

/-! ### Variables -/

/-- The enumerations read so far, with the position in the words at which each begins. -/
structure EnumPool where
  starts : Array UInt16
  enums : Array Enumeration

/-- The position in the pool of the enumeration whose words begin at a position; it is read and
added if it is not there. -/
def poolEnumeration (t : TableSet) (pool : EnumPool) (start : UInt16) :
    Except VariableFault (Nat × EnumPool) :=
  match pool.starts.idxOf? start with
  | some position => .ok (position, pool)
  | none => do
    let e ← t.readEnumeration start.toNat
    return (pool.enums.size, ⟨pool.starts.push start, pool.enums.push e⟩)

/-- Checks the places of a variable of a type. -/
def readKind (t : TableSet) (pool : EnumPool) (raw : RawDescriptor) (type : VarType)
    (constant : Bool) : Except VariableFault (VarKind × EnumPool) :=
  let source := raw.source.toNat
  let data := raw.data.toNat
  match type with
  | .number u => do
    let size := (t.templates.get u).size
    require (source < size) (.templateOutside source size)
    t.checkCells (.number u) data raw
    return (.number u source data, pool)
  | .enumeration => do
    t.checkCells .enums data raw
    let (position, pool) ← t.poolEnumeration pool raw.source
    return (.enumeration position data, pool)
  | .string => do
    let text ← demand (t.blob.bytesAt? source) .textOutside
    if constant then
      return (.constant source, pool)
    else
      require (text.length ≤ maxStringBytes) (.textTooLong text.length)
      require (Utf8.decode? text).isSome .textNotUtf8
      require (data % stringCellBytes = 0) (.textNotAligned data)
      let cell := data / stringCellBytes
      t.checkCells .strings cell raw
      return (.string source cell, pool)
  | .action => .ok (.action, pool)

/-- Checks the descriptor at a position. -/
def readDescriptor (t : TableSet) (pool : EnumPool) (index : Nat) (raw : RawDescriptor) :
    Except VariableFault (Descriptor × EnumPool) := do
  require (raw.handle.toNat = index) (.handle raw.handle)
  let code := raw.type &&& VarType.codeMask
  let type ← demand (VarType.ofCode? code) (.unsupportedType code)
  let flags := raw.type &&& ~~~VarType.codeMask
  require (flags &&& ~~~(VarType.vectorFlag ||| VarType.constFlag) = 0)
    (.unknownTypeFlags raw.type)
  require (raw.channels ≠ 0) .noChannels
  let vector : Bool := flags &&& VarType.vectorFlag ≠ 0
  require (vector = decide (1 < raw.channels)) (.vectorFlag raw.channels)
  let constant : Bool := flags &&& VarType.constFlag ≠ 0
  require (!constant || type = .string) .constFlag
  let rights ← demand (Rights.ofBits? raw.rights) (.unknownRights raw.rights)
  require (!(rights.isLimit && rights.isClip)) .limitAndClip
  require (raw.storage &&& ~~~Storage.mask = 0) (.unknownStorage raw.storage)
  let storage ← demand (Storage.ofBits? raw.storage) (.unknownStorage raw.storage)
  let format ← demand (Format.ofCode? raw.format) (.unknownFormat raw.format)
  let name ← t.readText raw.name .nameOutside
  let (kind, pool) ← t.readKind pool raw type constant
  let var : Descriptor :=
    { handle := ⟨raw.handle⟩, name, kind, channels := raw.channels, vector, rights, storage,
      format }
  return (var, pool)

/-- Checks the descriptors from a position on, adding to those already checked. -/
def readDescriptors (t : TableSet) :
    List RawDescriptor → Array Descriptor → EnumPool →
      Except TableFault (Array Descriptor × EnumPool)
  | [], vars, pool => .ok (vars, pool)
  | raw :: rest, vars, pool =>
    match t.readDescriptor pool vars.size raw with
    | .error fault => .error (.inVariable vars.size fault)
    | .ok (var, pool) => readDescriptors t rest (vars.push var) pool

/-- The first template of a type whose minimum is above its maximum. -/
def checkTemplates (t : TableSet) (u : NumType) : Except TableFault Unit :=
  let templates := t.templates.get u
  match templates.findIdx? fun x => u.lt x.max x.min with
  | none => .ok ()
  | some i =>
    match templates[i]? with
    | some x => .error (.templateBounds u i x.min x.max)
    | none => .ok ()

/-- Checks a table set and turns it into a directory. -/
def directory (t : TableSet) : Except TableFault Directory := do
  require (t.vars.size < 0xFFFF) (TableFault.tooManyVariables t.vars.size)
  t.checkTemplates .int16
  t.checkTemplates .int32
  t.checkTemplates .float
  t.checkTemplates .double
  let (vars, pool) ← t.readDescriptors t.vars.toList #[] ⟨#[], #[]⟩
  return {
    vars
    templates := t.templates
    enums := pool.enums
    blob := t.blob
    counts := t.counts }

end TableSet

end VariableRegistry
