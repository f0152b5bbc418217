import TableScan.Number.Decimal.Context

/-! Why a value cannot be turned into another form: the cause, its family and its message. -/

namespace TableScan

inductive Fault.Family where
  | type
  | value
  | member
  | arithmetic
deriving DecidableEq, Repr

inductive PartsFault where
  | count
  | sign
  | digits
  | special
  | exponent
deriving DecidableEq, Repr

inductive Fault where
  /-- A value of this kind cannot be kept in a set or be a key. -/
  | unhashable (kind : String)
  | unhashableSignal
  /-- A whole number has too many digits to be written. -/
  | digitLimit
  | unsupported (kind shown : String)
  | nonFinite
  | outOfFormat (conditions : List Decimal.Condition)
  | untagged
  | unknownTag (shown : String)
  | notBinary
  | notNumeric (kind : String)
  | parts (fault : PartsFault)
  /-- A whole number does not fit the machine word of this name. -/
  | wordSize (word : String)
  | notIterable (kind : String)
  | noMember (kind name : String)
  /-- A comparison with a number that cannot be compared. -/
  | invalidOperation
  /-- A bound of this name makes no sense for the value. -/
  | inapplicable (bound shown : String)
  | notInt (kind : String)
deriving DecidableEq, Repr

namespace Decimal.Condition

def name : Condition → String
  | .overflow => "Overflow"
  | .underflow => "Underflow"
  | .inexact => "Inexact"
  | .rounded => "Rounded"
  | .clamped => "Clamped"

end Decimal.Condition

namespace PartsFault

def message : PartsFault → String
  | .count => "argument must be a sequence of length 3"
  | .sign => "sign must be an integer with the value 0 or 1"
  | .digits => "coefficient must be a tuple of digits"
  | .special => "string argument in the third position must be 'F', 'n' or 'N'"
  | .exponent => "exponent must be an integer"

end PartsFault

namespace Fault

def family : Fault → Family
  | .digitLimit | .parts _ => .value
  | .noMember _ _ => .member
  | .outOfFormat _ | .wordSize _ | .invalidOperation => .arithmetic
  | _ => .type

def message : Fault → String
  | .unhashable kind => s!"unhashable type: '{kind}'"
  | .unhashableSignal => "Cannot hash a signaling NaN value"
  | .digitLimit =>
    "Exceeds the limit (4300 digits) for integer string conversion; " ++
      "use sys.set_int_max_str_digits() to increase the limit"
  | .unsupported kind shown => s!"Unsupported type \"<class '{kind}'>\" for value \"{shown}\""
  | .nonFinite => "Infinity and NaN not supported"
  | .outOfFormat conditions =>
    let named (condition : Decimal.Condition) := s!"<class 'decimal.{condition.name}'>"
    "[" ++ ", ".intercalate (conditions.map named) ++ "]"
  | .untagged => "Value must be a nonempty dictionary whose key is a valid dynamodb type."
  | .unknownTag shown => s!"Dynamodb type {shown} is not supported"
  | .notBinary => "Value must be of the following types: <class 'bytearray'>, <class 'bytes'>"
  | .notNumeric kind => s!"conversion from {kind} to Decimal is not supported"
  | .parts fault => fault.message
  | .wordSize word => s!"Python int too large to convert to C {word}"
  | .notIterable kind => s!"'{kind}' object is not iterable"
  | .noMember kind name => s!"'{kind}' object has no attribute '{name}'"
  | .invalidOperation => "[<class 'decimal.InvalidOperation'>]"
  | .inapplicable bound shown => s!"Unable to apply constraint '{bound}' to supplied value {shown}"
  | .notInt kind => s!"Expected int, got <class '{kind}'>"

end Fault

end TableScan
