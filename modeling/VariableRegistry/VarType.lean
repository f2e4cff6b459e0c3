/-
# Types of variables

A variable is a number of one of four types, an enumeration, a string or an action. What exists
once for each number type, such as a table or an array of cells, is a `PerType`.
-/
import VariableRegistry.Float.Layout

namespace VariableRegistry

/-! ## Number types -/

/-- The types of variables that hold numbers. -/
inductive NumType where
  | int16
  | int32
  | float
  | double
deriving DecidableEq, Repr

/-- The values of a number type. -/
@[reducible] def NumType.Carrier : NumType → Type
  | .int16 => Int16
  | .int32 => Int32
  | .float => Single
  | .double => Double

/-- One thing for each number type. -/
structure PerType (F : NumType → Type) where
  int16 : F .int16
  int32 : F .int32
  float : F .float
  double : F .double

namespace PerType

variable {F G : NumType → Type}

/-- The thing that belongs to a type. -/
def get (p : PerType F) : (t : NumType) → F t
  | .int16 => p.int16
  | .int32 => p.int32
  | .float => p.float
  | .double => p.double

/-- Replaces the thing that belongs to a type. -/
def set (p : PerType F) : (t : NumType) → F t → PerType F
  | .int16, x => { p with int16 := x }
  | .int32, x => { p with int32 := x }
  | .float, x => { p with float := x }
  | .double, x => { p with double := x }

/-- The things that a function gives. -/
def ofFn (f : (t : NumType) → F t) : PerType F :=
  ⟨f .int16, f .int32, f .float, f .double⟩

/-- Applies a function to each thing. -/
def map (f : (t : NumType) → F t → G t) (p : PerType F) : PerType G :=
  ofFn fun t => f t (p.get t)

@[simp] theorem get_ofFn (f : (t : NumType) → F t) (t : NumType) : (ofFn f).get t = f t := by
  cases t <;> rfl

@[simp] theorem get_set_self (p : PerType F) (t : NumType) (x : F t) : (p.set t x).get t = x := by
  cases t <;> rfl

theorem get_set_of_ne (p : PerType F) {t u : NumType} (h : u ≠ t) (x : F t) :
    (p.set t x).get u = p.get u := by
  cases t <;> cases u <;> first | rfl | exact absurd rfl h

theorem ext_get {p q : PerType F} (h : ∀ t, p.get t = q.get t) : p = q := by
  obtain ⟨a, b, c, d⟩ := p
  obtain ⟨a', b', c', d'⟩ := q
  have h1 : a = a' := h .int16
  have h2 : b = b' := h .int32
  have h3 : c = c' := h .float
  have h4 : d = d' := h .double
  subst h1 h2 h3 h4
  rfl

end PerType

/-! ## Types -/

/-- The type of a variable. -/
inductive VarType where
  | number (type : NumType)
  | enumeration
  | string
  | action
deriving DecidableEq, Repr

namespace VarType

/-- The number of a type; the numbers zero and three have no type. -/
def code : VarType → UInt16
  | number .int16 => 1
  | number .int32 => 2
  | number .float => 4
  | number .double => 5
  | enumeration => 6
  | string => 7
  | action => 8

/-- Every type. -/
def all : List VarType :=
  [number .int16, number .int32, number .float, number .double, enumeration, string, action]

/-- The type with a number. -/
def ofCode? (n : UInt16) : Option VarType := all.find? fun t => t.code = n

/-- Whether variables of the type hold a number with bounds. -/
def isNumeric : VarType → Bool
  | number _ => true
  | _ => false

/-- The name of a type. -/
def name : VarType → String
  | number .int16 => "INT16"
  | number .int32 => "INT32"
  | number .float => "FLOAT"
  | number .double => "DOUBLE"
  | enumeration => "ENUM"
  | string => "STRING"
  | action => "ACTION"

@[simp] theorem ofCode?_code (t : VarType) : ofCode? t.code = some t := by
  rcases t with (_ | _ | _ | _) | _ | _ | _ <;> rfl

/-- The bit beside the number of a type that marks more than one channel. -/
def vectorFlag : UInt16 := 0x1000

/-- The bit beside the number of a type that marks a constant text. -/
def constFlag : UInt16 := 0x2000

/-- The bits of a type word that hold the number of the type. -/
def codeMask : UInt16 := 0x000F

end VarType

end VariableRegistry
