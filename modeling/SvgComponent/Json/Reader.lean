import SvgComponent.Json.Unquote
import SvgComponent.Json.Value
import SvgComponent.Text.Blank
import SvgComponent.Text.Visible

/-!
# Reading JSON with places

A `Reader` reads from a text and knows where it is (`Cursor`). A text is read directly as
what is asked for, so the first fault from the left is the one reported, be it of the grammar
or of a value. A fault of the grammar has its place at once. A fault of a value gets the
place behind the innermost container that it is noticed in (`Failure.open`, closed by
`readList` and `readObject`).

`value` reads any value, to a depth of `maxDepth` containers. `skipValue` passes over a value of
any depth and asks less : it takes numbers of any size and halves of surrogate pairs.
-/

namespace SvgComponent.Json

open Text Numeral

/-- A line, counted from one, and the number of bytes in front of a place on it. -/
structure Place where
  line : Nat
  column : Nat
  deriving DecidableEq, Repr

/-- What is left to read, and where it starts; `limit` is a number that the characters left do
not exceed. -/
structure Cursor where
  rest : List Char
  place : Place := ⟨1, 0⟩
  limit : Nat := rest.length

namespace Place

/-- The place behind a character. -/
def afterChar (p : Place) (c : Char) : Place :=
  if c = '\n' then ⟨p.line + 1, 0⟩ else ⟨p.line, p.column + c.utf8Size⟩

/-- The place some bytes further on, but not past the end. -/
def after (p : Place) : List Char → (bytes : Nat) → Place
  | [], _ => p
  | c :: cs, n =>
    if n = 0 then p
    else if n < c.utf8Size then ⟨p.line, p.column + n⟩
    else after (p.afterChar c) cs (n - c.utf8Size)

end Place

/-- The cursor behind blanks. -/
def Cursor.gapped (cur : Cursor) : Cursor :=
  let blanks := cur.rest.takeWhile isGap
  ⟨skipGap cur.rest, cur.place.after blanks (width blanks), cur.limit⟩

/-- A fault with its place, or one that is still to get the place of the container it is in,
with what is left to read of that. -/
inductive Failure where
  | placed (fault : Fault) (place : Place)
  | open (fault : Fault) (cursor : Cursor)

/-- A reader of values of a type. -/
abbrev Reader (α : Type) := StateT Cursor (Except Failure) α

namespace Reader

/-- The deepest nesting of containers. -/
def maxDepth : Nat := 127

/-- Fails some bytes behind the cursor. -/
def failAt {α : Type} (shift : Nat) (fault : Fault) : Reader α := fun cur =>
  .error (.placed fault (cur.place.after cur.rest shift))

/-- Fails with a fault of a value. -/
def fail {α : Type} (fault : Fault) : Reader α := fun cur =>
  .error (.open fault cur)

/-- Gives a fault of a value the place of the cursor it was left at. -/
def located {α : Type} (r : Reader α) : Reader α := fun cur =>
  match r cur with
  | .error (.open fault cur) => .error (.placed fault cur.place)
  | result => result

/-- Passes over one character. -/
def next : Reader Unit := fun cur =>
  match cur.rest with
  | [] => .ok ((), cur)
  | c :: cs => .ok ((), ⟨cs, cur.place.afterChar c, cur.limit⟩)

/-- Passes over blanks. -/
def gap : Reader Unit := fun cur =>
  .ok ((), cur.gapped)

/-- The character in front, behind blanks. -/
def peek : Reader (Option Char) := do
  gap
  return (← get).rest.head?

/-- Runs a reader of plain text, which gives the number of bytes read too. -/
def lift {α : Type} (f : List Char → Located (α × Nat × List Char)) : Reader α := fun cur =>
  match f cur.rest with
  | .ok (a, bytes, rest) => .ok (a, ⟨rest, cur.place.after cur.rest bytes, cur.limit⟩)
  | .error (fault, shift) => .error (.placed fault (cur.place.after cur.rest shift))

/-! ## Scalars -/

/-- Reads the letters of a literal. -/
def literal : List Char → Reader Unit
  | [] => return ()
  | expected :: more => do
    match (← get).rest with
    | [] => failAt 0 .endInValue
    | c :: _ =>
      if c = expected then
        next
        literal more
      else failAt 1 .literalExpected

/-- Reads a string behind its opening quote. -/
def quoted : Reader String := do
  return String.ofList (← lift unquote)

/-- Reads a number whose first character is `c`. -/
def numeral (c : Char) : Reader Number := do
  if c = '-' then
    next
    lift (Numeral.read false 0)
  else lift (Numeral.read true 0)

/-! ## Containers

The loops below take one step for each entry, so the number of characters left bounds the
number of steps. -/

/-- The end of a list behind its last entry. -/
def endList : Reader Unit := do
  match ← peek with
  | some ']' => next
  | some ',' =>
    next
    match ← peek with
    | some ']' => failAt 1 .trailingComma
    | _ => failAt 1 .trailingText
  | some _ => failAt 1 .trailingText
  | none => failAt 1 .endInList

/-- The end of an object behind its last member. -/
def endObject : Reader Unit := do
  match ← peek with
  | some '}' => next
  | some ',' => failAt 1 .trailingComma
  | some _ => failAt 1 .trailingText
  | none => failAt 1 .endInObject

/-- Where the attempt to end a list gets to. -/
def endListCursor (cur : Cursor) : Cursor :=
  let cur := cur.gapped
  match cur.rest with
  | ']' :: cs => ⟨cs, cur.place.afterChar ']', cur.limit⟩
  | ',' :: cs => Cursor.gapped ⟨cs, cur.place.afterChar ',', cur.limit⟩
  | _ => cur

/-- Where the attempt to end an object gets to. -/
def endObjectCursor (cur : Cursor) : Cursor :=
  let cur := cur.gapped
  match cur.rest with
  | '}' :: cs => ⟨cs, cur.place.afterChar '}', cur.limit⟩
  | _ => cur

/-- Reads a container of a depth that is left : its opening mark, its entries and its end. A
fault of a value in it gets the place behind it. -/
def container {α : Type} (depth : Nat) (entries : Reader α) (finish : Reader Unit)
    (reach : Cursor → Cursor) : Reader α :=
  if depth = 0 then failAt 1 .tooDeep
  else fun cur =>
    match (next >>= fun _ => entries) cur with
    | .error (.open fault cur) => .error (.placed fault (reach cur).place)
    | .error failure => .error failure
    | .ok (a, cur) =>
      match finish cur with
      | .ok (_, cur) => .ok (a, cur)
      | .error failure => .error failure

/-- Reads a list whose opening bracket is in front. -/
def readList {α : Type} (depth : Nat) (entries : Reader α) : Reader α :=
  container depth entries endList endListCursor

/-- Reads an object whose opening brace is in front. -/
def readObject {α : Type} (depth : Nat) (members : Reader α) : Reader α :=
  container depth members endObject endObjectCursor

/-- Whether a list goes on with an entry, which is then in front. -/
def hasItem (first : Bool) : Reader Bool := do
  match ← peek with
  | none => failAt 1 .endInList
  | some ']' => return false
  | some c =>
    if first then return true
    else if c = ',' then
      next
      match ← peek with
      | some ']' => failAt 1 .trailingComma
      | some _ => return true
      | none => failAt 1 .endInValue
    else failAt 1 .listCommaExpected

/-- Whether an object goes on with a key, which is then in front. -/
def hasKey (first : Bool) : Reader Bool := do
  match ← peek with
  | none => failAt 1 .endInObject
  | some '}' => return false
  | some c =>
    if first then
      if c = '"' then return true else failAt 1 .keyNotString
    else if c = ',' then
      next
      match ← peek with
      | some '"' => return true
      | some '}' => failAt 1 .trailingComma
      | some _ => failAt 1 .keyNotString
      | none => failAt 1 .endInValue
    else failAt 1 .objectCommaExpected

/-- Reads the colon behind a key. -/
def colon : Reader Unit := do
  match ← peek with
  | some ':' => next
  | some _ => failAt 1 .colonExpected
  | none => failAt 1 .endInObject

/-- Reads the entries of a list with a state, in at most `steps` steps. -/
def foldItemsIn {σ : Type} (step : σ → Reader σ) : (steps : Nat) → (first : Bool) → σ → Reader σ
  | 0, _, s => return s
  | n + 1, first, s => do
    if ← hasItem first then foldItemsIn step n false (← step s) else return s

/-- Reads the entries of a list with a state. -/
def foldItems {σ : Type} (step : σ → Reader σ) (s : σ) : Reader σ := do
  foldItemsIn step ((← get).limit + 1) true s

/-- Reads the members of an object with a state, in at most `steps` steps; `step` gets the
key, and reads the colon and the value. -/
def foldMembersIn {σ : Type} (step : σ → String → Reader σ) :
    (steps : Nat) → (first : Bool) → σ → Reader σ
  | 0, _, s => return s
  | n + 1, first, s => do
    if ← hasKey first then
      next
      let key ← quoted
      foldMembersIn step n false (← step s key)
    else return s

/-- Reads the members of an object with a state. -/
def foldMembers {σ : Type} (step : σ → String → Reader σ) (s : σ) : Reader σ := do
  foldMembersIn step ((← get).limit + 1) true s

/-! ## Any value -/

/-- Reads a value whose containers may nest `depth` deep, with a reader of what is in them. -/
def valueWith (depth : Nat) (inner : Reader Json) : Reader Json := do
  match ← peek with
  | none => failAt 1 .endInValue
  | some 'n' => do next; literal ['u', 'l', 'l']; return .null
  | some 't' => do next; literal ['r', 'u', 'e']; return .bool true
  | some 'f' => do next; literal ['a', 'l', 's', 'e']; return .bool false
  | some '"' => do next; return .string (← quoted)
  | some '[' => do
    let items ← readList depth (foldItems (fun items => do return (← inner) :: items) [])
    return .array items.reverse
  | some '{' => do
    let members ← readObject depth (foldMembers (fun members key => do
      colon
      return (key, ← inner) :: members) [])
    return .object members.reverse
  | some c => if c = '-' ∨ c.isDigit then return .number (← numeral c) else failAt 1 .valueExpected

/-- Reads a value with at most `depth` containers around each other. -/
def value : (depth : Nat) → Reader Json
  | 0 => valueWith 0 (failAt 1 .tooDeep)
  | inner + 1 => valueWith (inner + 1) (value inner)

/-! ## Passing over a value -/

/-- Passes over a number whose first character is `c`. -/
def skipNumeral (c : Char) : Reader Unit := do
  if c = '-' then next
  lift fun cs => (Numeral.skip 0 cs).map fun (n, rest) => ((), n, rest)

/-- Passes over a string behind its opening quote. -/
def skipString : Reader Unit :=
  lift fun cs => (skipQuoted cs).map fun (n, rest) => ((), n, rest)

/-- Passes over a key and its colon. -/
def skipKey : Reader Unit := do
  match ← peek with
  | some '"' =>
    next
    skipString
    colon
  | some _ => failAt 1 .keyNotString
  | none => failAt 1 .endInObject

mutual

/-- Passes over a value in at most `steps` steps. -/
def skipValueIn : (steps : Nat) → Reader Unit
  | 0 => return ()
  | n + 1 => do
    match ← peek with
    | none => failAt 1 .endInValue
    | some 'n' => do next; literal ['u', 'l', 'l']
    | some 't' => do next; literal ['r', 'u', 'e']
    | some 'f' => do next; literal ['a', 'l', 's', 'e']
    | some '"' => do next; skipString
    | some '[' => do
      next
      match ← peek with
      | some ']' => next
      | some _ => skipItemsIn n
      | none => failAt 1 .endInList
    | some '{' => do
      next
      match ← peek with
      | some '}' => next
      | some _ => skipMembersIn n
      | none => failAt 1 .endInObject
    | some c => if c = '-' ∨ c.isDigit then skipNumeral c else failAt 1 .valueExpected

/-- Passes over the entries of a list and its end. -/
def skipItemsIn : (steps : Nat) → Reader Unit
  | 0 => return ()
  | n + 1 => do
    skipValueIn n
    match ← peek with
    | some ',' => do next; skipItemsIn n
    | some ']' => next
    | some _ => failAt 1 .listCommaExpected
    | none => failAt 1 .endInList

/-- Passes over the members of an object and its end. -/
def skipMembersIn : (steps : Nat) → Reader Unit
  | 0 => return ()
  | n + 1 => do
    skipKey
    skipValueIn n
    match ← peek with
    | some ',' => do next; skipMembersIn n
    | some '}' => next
    | some _ => failAt 1 .objectCommaExpected
    | none => failAt 1 .endInObject

end

/-- Passes over a value. -/
def skipValue : Reader Unit := do
  skipValueIn (2 * (← get).limit + 1)

/-! ## What is asked for -/

/-- What a value is called in a fault. -/
def describe : Json → String
  | .null => "null"
  | .bool true => "boolean `true`"
  | .bool false => "boolean `false`"
  | .number (.double x) => s!"floating point `{String.ofList (Number.textOfDouble x)}`"
  | .number n => s!"integer `{String.ofList n.text}`"
  | .string s => "string " ++ String.ofList (Text.quoteVisible s.toList)
  | .array _ => "sequence"
  | .object _ => "map"

/-- Fails because the value in front is not what is expected. Scalars are read for that,
containers are not. -/
def unexpected {α : Type} (expected : String) : Reader α := located do
  match ← peek with
  | some '[' => fail (.wrongType "sequence" expected)
  | some '{' => fail (.wrongType "map" expected)
  | _ => do
    let found ← value 0
    fail (.wrongType (describe found) expected)

/-- Reads a string. -/
def string : Reader String := do
  match ← peek with
  | none => failAt 1 .endInValue
  | some '"' => do next; quoted
  | some _ => unexpected "a string"

/-- Reads `null` as none and everything else with a reader. -/
def optional {α : Type} (r : Reader α) : Reader (Option α) := do
  match ← peek with
  | some 'n' => do
    next
    literal ['u', 'l', 'l']
    return none
  | _ => return some (← r)

/-- Nothing but blanks is left. -/
def done : Reader Unit := do
  match ← peek with
  | some _ => failAt 1 .trailingText
  | none => return ()

end Reader

/-- Runs a reader on a whole text. -/
def read {α : Type} (r : Reader α) (text : List Char) : Except (Fault × Option Place) α :=
  match (do let a ← r; Reader.done; return a : Reader α) { rest := text } with
  | .ok (a, _) => .ok a
  | .error (.placed fault place) => .error (fault, some place)
  | .error (.open fault _) => .error (fault, none)

/-- The wording of a fault with its place. -/
def displayFault (fault : Fault) (place : Option Place) : String :=
  match place with
  | some place => s!"{fault.message} at line {place.line} column {place.column}"
  | none => fault.message

end SvgComponent.Json
