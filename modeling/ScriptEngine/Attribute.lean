import ScriptEngine.Text

/-! Attributes of members and the flags that travel with a request.

Each axis of an attribute is a small code with zero for "says nothing"; codes
beyond the named ones are kept as they are. -/
namespace ScriptEngine

/-- Declaration-time attributes of a member. -/
structure Attribute where
  mutability : UInt8 := 0
  overriding : UInt8 := 0
  access : UInt8 := 0
  visibility : UInt8 := 0
  level : UInt8 := 0
  sync : UInt8 := 0
deriving DecidableEq, Repr, Inhabited

namespace Attribute

def isConst (a : Attribute) : Bool := a.mutability = 2
def isProperty (a : Attribute) : Bool := a.access = 2
def isFinal (a : Attribute) : Bool := a.overriding = 2
def isStatic (a : Attribute) : Bool := a.level = 1

/-- The later axis where it says something, else the earlier one. -/
def mergeAxis (earlier later : UInt8) : UInt8 := if later = 0 then earlier else later

/-- Every axis that the second attribute sets replaces the first's. -/
def merge (a b : Attribute) : Attribute where
  mutability := mergeAxis a.mutability b.mutability
  overriding := mergeAxis a.overriding b.overriding
  access := mergeAxis a.access b.access
  visibility := mergeAxis a.visibility b.visibility
  level := mergeAxis a.level b.level
  sync := mergeAxis a.sync b.sync

/-- Both attributes say something on an axis. -/
def clashAxis (earlier later : UInt8) : Bool := earlier ≠ 0 && later ≠ 0

/-- Whether merging replaces an axis that was already set. -/
def overwrites (a b : Attribute) : Bool :=
  clashAxis a.mutability b.mutability || clashAxis a.overriding b.overriding ||
    clashAxis a.access b.access || clashAxis a.visibility b.visibility ||
    clashAxis a.level b.level || clashAxis a.sync b.sync

/-- The words for the codes of an axis, from code one on. -/
def axisWord (words : List String) (code : UInt8) : List String :=
  if code = 0 then [] else (words[code.toNat - 1]?).toList

/-- The words of all axes that say something. -/
def words (a : Attribute) : List String :=
  axisWord ["var", "const"] a.mutability ++ axisWord ["virtual", "final"] a.overriding ++
    axisWord ["field", "property"] a.access ++
    axisWord ["public", "internal", "protected", "private"] a.visibility ++
    axisWord ["static"] a.level ++ axisWord ["synchronized"] a.sync

/-- The attribute in words. -/
def text (a : Attribute) : Text := Text.joined [0x20] (a.words.map utf8)

/-- One operand word: two bits each for mutability, overriding and access,
three for visibility, one each for level and synchronisation. -/
def pack (a : Attribute) : UInt32 :=
  a.mutability.toUInt32 ||| a.overriding.toUInt32 <<< 2 ||| a.access.toUInt32 <<< 4 |||
    a.visibility.toUInt32 <<< 6 ||| a.level.toUInt32 <<< 9 ||| a.sync.toUInt32 <<< 10

/-- The attribute in an operand word. -/
def unpack (w : UInt32) : Attribute where
  mutability := (w &&& 3).toUInt8
  overriding := (w >>> 2 &&& 3).toUInt8
  access := (w >>> 4 &&& 3).toUInt8
  visibility := (w >>> 6 &&& 7).toUInt8
  level := (w >>> 9 &&& 1).toUInt8
  sync := (w >>> 10 &&& 1).toUInt8

end Attribute

/-- Attributes together with the bits that steer a dispatch. -/
structure Flags where
  attr : Attribute := {}
  control : UInt8 := 0
deriving DecidableEq, Repr, Inhabited

namespace Flags

/-- A write fails on an absent member instead of creating it. -/
def ensureMember : UInt8 := 1
/-- Static members are passed over. -/
def instanceOnly : UInt8 := 2
/-- Only final members match. -/
def finalOnly : UInt8 := 4
/-- The search starts at the class instead of the object. -/
def classRule : UInt8 := 8

/-- Control bits added. -/
def adding (f : Flags) (bits : UInt8) : Flags := { f with control := f.control ||| bits }

/-- Whether all the given control bits are set. -/
def has (f : Flags) (bits : UInt8) : Bool := f.control &&& bits = bits

/-- One operand word, the control bits from bit sixteen on. -/
def pack (f : Flags) : UInt32 := f.attr.pack ||| f.control.toUInt32 <<< 16

/-- The flags in an operand word. -/
def unpack (w : UInt32) : Flags := ⟨.unpack w, (w >>> 16 &&& 0xff).toUInt8⟩

end Flags
end ScriptEngine
