import SvgComponent.Json.Value
import SvgComponent.Script.Fault

/-!
# Expressions of scripts

Of an expression only so much is kept as can be said in JSON : literals, lists and objects of
them, and parentheses around them. All others are told apart no further than the grammar
needs it. `Expression.toJson` gives the value of an expression that is a literal throughout.
-/

namespace SvgComponent.Script

mutual

/-- An expression. -/
inductive Expression where
  | null
  | bool (value : Bool)
  | number (value : Float)
  | string (value : Option String)
  | array (items : List Element)
  | object (members : List Member)
  | paren (inner : Expression)
  | name (text : String)
  /-- A property or another place that can be assigned to. -/
  | place
  /-- A function with an arrow. -/
  | arrow
  /-- An operator in front of an operand. -/
  | signed
  /-- Operands with an operator between or behind them. -/
  | operation
  | other

/-- An entry of a list. -/
inductive Element where
  | hole
  | spread
  | value (expression : Expression)

/-- A member of an object. -/
inductive Member where
  | spread
  | pair (key : Option String) (value : Expression)
  | shorthand
  | method

end

namespace Expression

/-- Whether an expression can stand in front of a plain equals sign or of an operator with
one. -/
def isTarget : Expression → Bool
  | name _ => true
  | place => true
  | paren _ => true
  | _ => false

mutual

/-- Whether an expression can be read again as a pattern. -/
def fitsPattern : Expression → Bool
  | array items => elementsFit items
  | object members => membersFit members
  | _ => true

def elementsFit : List Element → Bool
  | [] => true
  | .spread :: rest => rest.isEmpty
  | .value e :: rest => fitsPattern e && elementsFit rest
  | .hole :: rest => elementsFit rest

def membersFit : List Member → Bool
  | [] => true
  | .method :: _ => false
  | .pair _ e :: rest => fitsPattern e && membersFit rest
  | _ :: rest => membersFit rest

end

mutual

/-- The value of an expression that is a literal throughout. -/
def toJson : Expression → Except Fault Json
  | null => .ok .null
  | bool value => .ok (.bool value)
  | number value => if value.isFinite then .ok (.number (.double value)) else .error .hugeNumber
  | string (some value) => .ok (.string value)
  | string none => .error .loneSurrogate
  | paren inner => toJson inner
  | array items => do return .array (← itemsToJson items)
  | object members => do return .object (← membersToJson [] members)
  | _ => .error .notLiteral

def itemsToJson : List Element → Except Fault (List Json)
  | [] => .ok []
  | .value e :: rest => do
    let first ← toJson e
    return first :: (← itemsToJson rest)
  | _ :: _ => .error .holeOrSpread

/-- The members behind those that are done; of a repeated key the first place and the last
value remain. -/
def membersToJson (done : List (String × Json)) : List Member → Except Fault (List (String × Json))
  | [] => .ok done
  | .pair (some key) e :: rest => do membersToJson (Json.setMember key (← toJson e) done) rest
  | .pair none _ :: _ => .error .computedKey
  | .spread :: _ => .error .objectSpread
  | _ :: _ => .error .notKeyValue

end

end Expression

end SvgComponent.Script
