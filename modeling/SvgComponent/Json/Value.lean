import SvgComponent.Json.Number
import SvgComponent.Json.Quoted

/-!
# JSON values

Objects keep their members in the order written, repeated keys included. `Json.merged` is
the value with repeated keys merged, the first place and the last value remaining.

`Json.compact` writes a value without blanks, `Json.pretty` with one entry a line.
-/

namespace SvgComponent

/-- A JSON value. -/
inductive Json where
  | null
  | bool (value : Bool)
  | number (value : Json.Number)
  | string (value : String)
  | array (items : List Json)
  | object (members : List (String × Json))
  deriving Inhabited

namespace Json

/-- Writes to a list of members : in place if the key is there, else at the end. -/
def setMember (key : String) (value : Json) : List (String × Json) → List (String × Json)
  | [] => [(key, value)]
  | (k, v) :: rest => if k = key then (k, value) :: rest else (k, v) :: setMember key value rest

mutual

/-- Merges repeated keys in every object. -/
def merged : Json → Json
  | array items => .array (mergedItems items)
  | object members => .object (mergedMembers [] members)
  | value => value

def mergedItems : List Json → List Json
  | [] => []
  | value :: rest => merged value :: mergedItems rest

def mergedMembers (done : List (String × Json)) : List (String × Json) → List (String × Json)
  | [] => done
  | (key, value) :: rest => mergedMembers (setMember key (merged value) done) rest

end

/-- The value of a member of an object. -/
def get? (key : String) : Json → Option Json
  | object members => members.lookup key
  | _ => none

/-! ## Text -/

mutual

/-- The text of a value without blanks. -/
def compact : Json → List Char
  | null => ['n', 'u', 'l', 'l']
  | bool true => ['t', 'r', 'u', 'e']
  | bool false => ['f', 'a', 'l', 's', 'e']
  | number n => n.text
  | string s => quote s.toList
  | array items => '[' :: compactItems true items ++ [']']
  | object members => '{' :: compactMembers true members ++ ['}']

def compactItems (first : Bool) : List Json → List Char
  | [] => []
  | value :: rest => (if first then [] else [',']) ++ compact value ++ compactItems false rest

def compactMembers (first : Bool) : List (String × Json) → List Char
  | [] => []
  | (key, value) :: rest =>
    (if first then [] else [',']) ++ quote key.toList ++ ':' :: compact value ++
      compactMembers false rest

end

/-- A line break and the indentation of a depth. -/
def newline (depth : Nat) : List Char :=
  '\n' :: List.replicate (2 * depth) ' '

mutual

/-- The text of a value with one entry a line. -/
def prettyAt (depth : Nat) : Json → List Char
  | array [] => ['[', ']']
  | array items => '[' :: prettyItems (depth + 1) true items ++ newline depth ++ [']']
  | object [] => ['{', '}']
  | object members => '{' :: prettyMembers (depth + 1) true members ++ newline depth ++ ['}']
  | value => compact value

def prettyItems (depth : Nat) (first : Bool) : List Json → List Char
  | [] => []
  | value :: rest =>
    (if first then [] else [',']) ++ newline depth ++ prettyAt depth value ++
      prettyItems depth false rest

def prettyMembers (depth : Nat) (first : Bool) : List (String × Json) → List Char
  | [] => []
  | (key, value) :: rest =>
    (if first then [] else [',']) ++ newline depth ++ quote key.toList ++ ':' :: ' ' ::
      prettyAt depth value ++ prettyMembers depth false rest

end

/-- The text of a value with one entry a line. -/
def pretty (value : Json) : List Char :=
  prettyAt 0 value

end Json

end SvgComponent
