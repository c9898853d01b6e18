/-!
# Faults of JSON texts

A fault is either one of the text, which does not follow the grammar, or one of the value,
which is not what is asked for. `Fault.message` words both.
-/

namespace SvgComponent.Json

/-- What is wrong with a text or with the value it holds. -/
inductive Fault where
  | endInList
  | endInObject
  | endInString
  | endInValue
  | colonExpected
  | listCommaExpected
  | objectCommaExpected
  | literalExpected
  | valueExpected
  | badEscape
  | badNumber
  | hugeNumber
  | controlCharacter
  | keyNotString
  | loneSurrogate
  | brokenPair
  | trailingComma
  | trailingText
  | tooDeep
  | wrongType (found expected : String)
  | wrongLength (found : Nat) (expected : String)
  | repeatedField (name : String)
  | noVariant (type : String)
  deriving DecidableEq, Repr

/-- The wording of a fault. -/
def Fault.message : Fault → String
  | endInList => "EOF while parsing a list"
  | endInObject => "EOF while parsing an object"
  | endInString => "EOF while parsing a string"
  | endInValue => "EOF while parsing a value"
  | colonExpected => "expected `:`"
  | listCommaExpected => "expected `,` or `]`"
  | objectCommaExpected => "expected `,` or `\x7d`"
  | literalExpected => "expected ident"
  | valueExpected => "expected value"
  | badEscape => "invalid escape"
  | badNumber => "invalid number"
  | hugeNumber => "number out of range"
  | controlCharacter => "control character (\\u0000-\\u001F) found while parsing a string"
  | keyNotString => "key must be a string"
  | loneSurrogate => "lone leading surrogate in hex escape"
  | brokenPair => "unexpected end of hex escape"
  | trailingComma => "trailing comma"
  | trailingText => "trailing characters"
  | tooDeep => "recursion limit exceeded"
  | wrongType found expected => s!"invalid type: {found}, expected {expected}"
  | wrongLength found expected => s!"invalid length {found}, expected {expected}"
  | repeatedField name => s!"duplicate field `{name}`"
  | noVariant type => s!"data did not match any variant of untagged enum {type}"

end SvgComponent.Json
