import Metering.Binary64.Numeral

/-!
# Attributes

An attribute is a key with a value. Values have two notions of equality: `==` compares content and
takes floats as numbers, so a NaN differs from itself; `Value.sameMember`, used inside attribute
sets, takes a plain float by its bits.
-/

namespace Metering

/-- The value of an attribute: one scalar, or a list of scalars of one kind. -/
inductive Value where
  | bool (b : Bool)
  | int (n : Int64)
  | float (x : Binary64)
  | text (s : String)
  | bools (bs : List Bool)
  | ints (ns : List Int64)
  | floats (xs : List Binary64)
  | texts (ss : List String)
deriving DecidableEq, Inhabited

namespace Value

/-- Values are equal when they are of one kind and of equal content, floats as numbers. -/
protected def beq : Value → Value → Bool
  | .bool a, .bool b => a == b
  | .int a, .int b => a == b
  | .float a, .float b => a.numEq b
  | .text a, .text b => a == b
  | .bools a, .bools b => a == b
  | .ints a, .ints b => a == b
  | .floats a, .floats b => a.isEqv b Binary64.numEq
  | .texts a, .texts b => a == b
  | _, _ => false

instance : BEq Value := ⟨Value.beq⟩

/-- Equality of the values of two attribute sets: plain floats by their bits, all else by `==`. -/
def sameMember : Value → Value → Bool
  | .float a, .float b => a.bits == b.bits
  | a, b => a == b

/-- What a value contributes to the digest of an attribute set. -/
inductive Imprint where
  | flag (b : Bool)
  | word (w : UInt64)
  | text (s : String)
deriving DecidableEq

/-- The text of a list: its elements between brackets, with commas and no blanks. -/
def listText (elements : List String) : String := "[" ++ ",".intercalate elements ++ "]"

/-- A scalar is imprinted as it is, a float by its bits, and a list as its text, in which strings
stand in plain quotes. -/
def imprint : Value → Imprint
  | .bool b => .flag b
  | .int n => .word n.toUInt64
  | .float x => .word x.bits
  | .text s => .text s
  | .bools bs => .text (listText (bs.map toString))
  | .ints ns => .text (listText (ns.map fun n => toString n.toInt))
  | .floats xs => .text (listText (xs.map (Binary64.numeral .plain)))
  | .texts ss => .text (listText (ss.map fun s => "\"" ++ s ++ "\""))

end Value

/-- A key with its value. -/
structure Attribute where
  key : String
  value : Value
deriving DecidableEq, Inhabited

instance : BEq Attribute := ⟨fun a b => a.key == b.key && a.value == b.value⟩

end Metering
