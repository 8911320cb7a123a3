import TenantSql.Value.Basic

/-!
# Diagnostics

How a failure is reported: a code that says what kind of failure it is, a
message, and the particulars under names.
-/

namespace TenantSql

inductive ErrorCode where
  | configError | configMissing | configInvalid
  | buildError | buildEmptyQuery | buildConsumed
  | orderInvalidField | orderInvalidDirection
  | operationUnsupported
  | formatError | formatNotFound
  deriving DecidableEq, Repr

namespace ErrorCode

def all : List ErrorCode :=
  [.configError, .configMissing, .configInvalid, .buildError, .buildEmptyQuery, .buildConsumed,
    .orderInvalidField, .orderInvalidDirection, .operationUnsupported, .formatError,
    .formatNotFound]

def name : ErrorCode → String
  | .configError => "CONFIG_ERROR"
  | .configMissing => "CONFIG_MISSING"
  | .configInvalid => "CONFIG_INVALID"
  | .buildError => "BUILD_ERROR"
  | .buildEmptyQuery => "BUILD_EMPTY_QUERY"
  | .buildConsumed => "BUILD_CONSUMED"
  | .orderInvalidField => "ORDER_INVALID_FIELD"
  | .orderInvalidDirection => "ORDER_INVALID_DIRECTION"
  | .operationUnsupported => "OPERATION_UNSUPPORTED"
  | .formatError => "FORMAT_ERROR"
  | .formatNotFound => "FORMAT_NOT_FOUND"

def number : ErrorCode → String
  | .configError => "CONFIG_001"
  | .configMissing => "CONFIG_002"
  | .configInvalid => "CONFIG_003"
  | .buildError => "BUILD_001"
  | .buildEmptyQuery => "BUILD_002"
  | .buildConsumed => "BUILD_003"
  | .orderInvalidField => "ORDER_001"
  | .orderInvalidDirection => "ORDER_002"
  | .operationUnsupported => "OPERATION_001"
  | .formatError => "FORMAT_001"
  | .formatNotFound => "FORMAT_002"

def ofName? (name : String) : Option ErrorCode :=
  all.find? fun code => code.name == name

end ErrorCode

structure Diagnostic where
  code : ErrorCode
  message : String
  details : List (String × Value)
  deriving Repr

namespace Diagnostic

def display (d : Diagnostic) : String :=
  s!"[{d.code.number}] {d.message}"

def withSource (source : Option String) (message : String) : String :=
  match source with
  | none | some "" => message
  | some name => name ++ ": " ++ message

def ofSource (source : Option String) (code : ErrorCode) (message : String)
    (details : List (String × Value)) : Diagnostic where
  code := code
  message := withSource source message
  details :=
    if details.any (·.1 == "source_path") then details
    else details ++ [("source_path", (source.map Value.text).getD .null)]

end Diagnostic

end TenantSql
