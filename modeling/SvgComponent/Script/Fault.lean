/-!
# Faults of scripts

A configuration that is written as a script is refused if the script does not follow the grammar,
if it exports no configuration, or if the configuration is not made of literals alone.
-/

namespace SvgComponent.Script

/-- Why a script gives no configuration. -/
inductive Fault where
  | grammar
  | noExport
  | notLiteral
  | holeOrSpread
  | objectSpread
  | notKeyValue
  | computedKey
  | loneSurrogate
  | hugeNumber
  deriving DecidableEq, Repr

/-- The wording of a fault. -/
def Fault.message : Fault → String
  | grammar => "parse error"
  | noExport => "expected `export const config = \x7b...\x7d` or `export default \x7b...\x7d`"
  | notLiteral => "only literal values are supported"
  | holeOrSpread => "array holes and spreads are not supported"
  | objectSpread => "object spreads are not supported"
  | notKeyValue => "only `key: value` properties are supported"
  | computedKey => "computed keys are not supported"
  | loneSurrogate => "strings must be valid unicode"
  | hugeNumber => "unsupported number inf"

end SvgComponent.Script
