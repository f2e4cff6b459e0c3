/-
# Access rights

Variables and requesters carry one word of rights. Its low byte holds a read and a write capability
for each of four classes of requesters. The top bit marks an administrator, and two further bits
say what a variable does with a value beyond its bounds: refuse it or clip it.
-/

namespace VariableRegistry

/-- A word of rights; all sixteen bits are kept, known or not. -/
structure Rights where
  bits : UInt16
deriving DecidableEq, Repr

namespace Rights

/-! ## Single rights -/

/-- The capabilities of the program. -/
def program : Rights := ⟨0x11⟩

/-- The administrator bit. -/
def admin : Rights := ⟨0x8000⟩

/-- The bit of a variable that refuses values beyond its bounds. -/
def limit : Rights := ⟨0x4000⟩

/-- The bit of a variable that clips values to its bounds. -/
def clip : Rights := ⟨0x2000⟩

/-- The bits that have a meaning. -/
def known : UInt16 := 0xE0FF

/-- The bits of the capabilities. -/
def capabilityMask : UInt16 := 0x00FF

/-! ## Sets of rights -/

/-- Whether all rights of `s` are among those of `r`. -/
def contains (r s : Rights) : Bool := r.bits &&& s.bits = s.bits

/-- The rights of either word. -/
def union (r s : Rights) : Rights := ⟨r.bits ||| s.bits⟩

/-- The rights of both words. -/
def inter (r s : Rights) : Rights := ⟨r.bits &&& s.bits⟩

/-- The rights of `r` that are not rights of `s`. -/
def diff (r s : Rights) : Rights := ⟨r.bits &&& ~~~s.bits⟩

/-- The capabilities alone. -/
def capabilities (r : Rights) : Rights := ⟨r.bits &&& capabilityMask⟩

/-- Whether the administrator bit is set. -/
def isAdmin (r : Rights) : Bool := r.contains admin

/-- Whether values beyond the bounds are refused. -/
def isLimit (r : Rights) : Bool := r.contains limit

/-- Whether values beyond the bounds are clipped. -/
def isClip (r : Rights) : Bool := r.contains clip

/-- The word as rights, if every set bit has a meaning. -/
def ofBits? (bits : UInt16) : Option Rights :=
  if bits &&& ~~~known = 0 then some ⟨bits⟩ else none

end Rights

/-! ## Requests -/

/-- Whether a channel is read or written. -/
inductive Direction where
  | read
  | write
deriving DecidableEq, Repr

/-- How the capabilities of a requester are compared with those of a variable. -/
inductive AccessPolicy where
  /-- They have to be the same. -/
  | exact
  /-- Those of the requester have to be among those of the variable. -/
  | subset
deriving DecidableEq, Repr

end VariableRegistry
