import TableScan.Failure

/-! Comparisons: the operators that the store knows, and the calls that choose between them. -/

namespace TableScan

inductive Operator where
  | eq
  | ne
  | lt
  | le
  | gt
  | ge
  | null
  | notNull
  | contains
  | notContains
  | beginsWith
  | isIn
  | between
deriving DecidableEq, Repr

namespace Operator

def wireName : Operator → String
  | .eq => "EQ"
  | .ne => "NE"
  | .lt => "LT"
  | .le => "LE"
  | .gt => "GT"
  | .ge => "GE"
  | .null => "NULL"
  | .notNull => "NOT_NULL"
  | .contains => "CONTAINS"
  | .notContains => "NOT_CONTAINS"
  | .beginsWith => "BEGINS_WITH"
  | .isIn => "IN"
  | .between => "BETWEEN"

/-- The operand is compared with one element of a collection rather than with the whole. -/
def onElement : Operator → Bool
  | .contains | .notContains | .beginsWith | .isIn => true
  | _ => false

def ofWireName? (name : String) : Option Operator :=
  [eq, ne, lt, le, gt, ge, null, notNull, contains, notContains, beginsWith, isIn, between].find?
    (·.wireName == name)

end Operator

inductive Comparison where
  | null
  | eq
  | lt
  | le
  | ge
  | gt
  | contains
  | beginsWith
  | isIn
  | between
deriving DecidableEq, Repr

namespace Comparison

def all : List Comparison :=
  [.null, .eq, .lt, .le, .ge, .gt, .contains, .beginsWith, .isIn, .between]

def method : Comparison → String
  | .null => "null"
  | .eq => "eq"
  | .lt => "lt"
  | .le => "le"
  | .ge => "ge"
  | .gt => "gt"
  | .contains => "contains"
  | .beginsWith => "begins_with"
  | .isIn => "in_"
  | .between => "between"

def ofMethod? (name : String) : Option Comparison := all.find? (·.method == name)

def operator : Comparison → Operator
  | .null => .null
  | .eq => .eq
  | .lt => .lt
  | .le => .le
  | .ge => .ge
  | .gt => .gt
  | .contains => .contains
  | .beginsWith => .beginsWith
  | .isIn => .isIn
  | .between => .between

def negated? : Comparison → Option Operator
  | .null => some .notNull
  | .eq => some .ne
  | .lt => some .ge
  | .le => some .gt
  | .ge => some .lt
  | .gt => some .le
  | .contains => some .notContains
  | .beginsWith | .isIn | .between => none

def arity? : Comparison → Option Nat
  | .null => some 0
  | .between => some 2
  | .isIn => none
  | _ => some 1

def resolve (c : Comparison) (negated : Bool) : Except StateFault Operator :=
  if negated then
    match c.negated? with
    | some op => .ok op
    | none => .error (.notNegatable c.method)
  else .ok c.operator

end Comparison

structure Filter where
  name : String
  operator : Operator
  operands : List Value
deriving Repr

end TableScan
