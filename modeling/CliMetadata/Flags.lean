/-!
# Attribute bits

The bits in which types, members, parameters and generic parameters record their attributes. Bits
without a name here are kept as they are. Accessibility and variance are numbers in a few bits and
are read as such.
-/

namespace CliMetadata

/-- Who may use a type or member, from the least to the most visible. -/
inductive Visibility where
  | hidden
  | familyAndAssembly
  | assembly
  | family
  | familyOrAssembly
  | exported
deriving DecidableEq, Repr, Inhabited

namespace Visibility

/-- The place in the order from least to most visible. -/
def rank (visibility : Visibility) : Nat := visibility.ctorIdx

/-- The name of a visibility. -/
def name : Visibility → String
  | hidden => "Private"
  | familyAndAssembly => "PrivateProtected"
  | assembly => "Internal"
  | family => "Protected"
  | familyOrAssembly => "ProtectedInternal"
  | exported => "Public"

/-- Code of other assemblies can see it. -/
def isExternallyVisible : Visibility → Bool
  | exported | family | familyOrAssembly => true
  | _ => false

/-- The more visible of two. -/
def max (a b : Visibility) : Visibility :=
  if a.rank ≤ b.rank then b else a

/-- The visibility in the access bits of a method or field. -/
def ofMemberAccess (bits : UInt16) : Visibility :=
  match (bits &&& 7).toNat with
  | 2 => familyAndAssembly
  | 3 => assembly
  | 4 => family
  | 5 => familyOrAssembly
  | 6 => exported
  | _ => hidden

/-- The visibility in the access bits of a type. -/
def ofTypeAccess (bits : UInt32) : Visibility :=
  match (bits &&& 7).toNat with
  | 1 | 2 => exported
  | 3 => hidden
  | 4 => family
  | 6 => familyAndAssembly
  | 7 => familyOrAssembly
  | _ => assembly

end Visibility

/-! ## Types -/

namespace TypeFlags

/-- The bits that hold the accessibility. -/
def accessMask : UInt32 := 0x7
def topLevelPublic : UInt32 := 0x1
def nestedPublic : UInt32 := 0x2
def nestedPrivate : UInt32 := 0x3
def sequentialLayout : UInt32 := 0x8
def interface : UInt32 := 0x20
def abstract : UInt32 := 0x80
def sealed : UInt32 := 0x100
def serializable : UInt32 := 0x2000

/-- Every bit of the mask is set. -/
def has (bits mask : UInt32) : Bool := bits &&& mask == mask

/-- The accessibility is one of a nested type. -/
def isNested (bits : UInt32) : Bool := bits &&& accessMask > 1

end TypeFlags

/-! ## Members and parameters -/

namespace MemberFlags

/-- Every bit of the mask is set. -/
def has (bits mask : UInt16) : Bool := bits &&& mask == mask

/-- Some bit of the mask is set. -/
def hasSome (bits mask : UInt16) : Bool := bits &&& mask != 0

end MemberFlags

namespace MethodFlags

def accessPrivate : UInt16 := 0x1
def accessPublic : UInt16 := 0x6
def static : UInt16 := 0x10
def final : UInt16 := 0x20
def virtual : UInt16 := 0x40
def hideBySig : UInt16 := 0x80
def newSlot : UInt16 := 0x100
def abstract : UInt16 := 0x400
def specialName : UInt16 := 0x800
def runtimeSpecialName : UInt16 := 0x1000

end MethodFlags

namespace FieldFlags

def accessPublic : UInt16 := 0x6
def static : UInt16 := 0x10
def initOnly : UInt16 := 0x20
def literal : UInt16 := 0x40
def specialName : UInt16 := 0x200
def runtimeSpecialName : UInt16 := 0x400
def hasDefault : UInt16 := 0x8000

end FieldFlags

namespace ParamFlags

def isIn : UInt16 := 0x1
def isOut : UInt16 := 0x2
def optional : UInt16 := 0x10
def hasDefault : UInt16 := 0x1000

end ParamFlags

namespace GenericParamFlags

/-- The bits that hold the variance. -/
def varianceMask : UInt16 := 0x3
def covariant : UInt16 := 0x1
def contravariant : UInt16 := 0x2
/-- The bits that hold the special constraints. -/
def constraintMask : UInt16 := 0x3C
def referenceType : UInt16 := 0x4
def valueType : UInt16 := 0x8
def defaultConstructor : UInt16 := 0x10
def allowByRefLike : UInt16 := 0x20

end GenericParamFlags

namespace SemanticsFlags

def setter : UInt16 := 0x1
def getter : UInt16 := 0x2
def addOn : UInt16 := 0x8
def removeOn : UInt16 := 0x10
def fire : UInt16 := 0x20

end SemanticsFlags

end CliMetadata
