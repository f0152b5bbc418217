import TableScan.Fault

/-! Why a value does not fit a type: what is wrong, and where in the value. -/

namespace TableScan

inductive IssueKind where
  | textType
  | textEncoding
  | bytesType
  | boolType
  | boolParsing
  | intType
  | intParsing
  | intParsingSize
  | intFromFloat
  | finiteNumber
  | floatType
  | floatParsing
  | decimalType
  | decimalParsing
  | datetimeType
  | datetimeParsing
  | datetimeFromDateParsing
  | dateType
  | dateParsing
  | dateFromDatetimeParsing
  | dateFromDatetimeInexact
  | uuidType
  | uuidParsing
  | noneRequired
  | enumeration
  | listType
  | setType
  | frozensetType
  | tupleType
  | mapType
  | itemNotHashable
  | tooLong
  | missing
  | notInstance
  | sequenceText
  | frozenInstance
  | frozenField
  | noSuchAttribute
  | belowMinimum
  | textTooLong
  | bytesTooLong
deriving DecidableEq, Repr

namespace IssueKind

def code : IssueKind → String
  | .textType => "string_type"
  | .textEncoding => "string_unicode"
  | .bytesType => "bytes_type"
  | .boolType => "bool_type"
  | .boolParsing => "bool_parsing"
  | .intType => "int_type"
  | .intParsing => "int_parsing"
  | .intParsingSize => "int_parsing_size"
  | .intFromFloat => "int_from_float"
  | .finiteNumber => "finite_number"
  | .floatType => "float_type"
  | .floatParsing => "float_parsing"
  | .decimalType => "decimal_type"
  | .decimalParsing => "decimal_parsing"
  | .datetimeType => "datetime_type"
  | .datetimeParsing => "datetime_parsing"
  | .datetimeFromDateParsing => "datetime_from_date_parsing"
  | .dateType => "date_type"
  | .dateParsing => "date_parsing"
  | .dateFromDatetimeParsing => "date_from_datetime_parsing"
  | .dateFromDatetimeInexact => "date_from_datetime_inexact"
  | .uuidType => "uuid_type"
  | .uuidParsing => "uuid_parsing"
  | .noneRequired => "none_required"
  | .enumeration => "enum"
  | .listType => "list_type"
  | .setType => "set_type"
  | .frozensetType => "frozen_set_type"
  | .tupleType => "tuple_type"
  | .mapType => "dict_type"
  | .itemNotHashable => "set_item_not_hashable"
  | .tooLong => "too_long"
  | .missing => "missing"
  | .notInstance => "is_instance_of"
  | .sequenceText => "sequence_str"
  | .frozenInstance => "frozen_instance"
  | .frozenField => "frozen_field"
  | .noSuchAttribute => "no_such_attribute"
  | .belowMinimum => "greater_than_equal"
  | .textTooLong => "string_too_long"
  | .bytesTooLong => "bytes_too_long"

end IssueKind

inductive Step where
  | name (key : String)
  | index (i : Int)
deriving DecidableEq, Repr

structure Issue where
  kind : IssueKind
  location : List Step
deriving DecidableEq, Repr

inductive Rejection where
  | issues (found : List Issue)
  | fault (cause : Fault)
deriving DecidableEq, Repr

namespace Rejection

def of (kind : IssueKind) : Rejection := .issues [⟨kind, []⟩]

def under (steps : List Step) : Rejection → Rejection
  | .issues found => .issues (found.map fun issue => ⟨issue.kind, steps ++ issue.location⟩)
  | .fault cause => .fault cause

end Rejection

end TableScan
