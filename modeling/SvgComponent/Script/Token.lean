import SvgComponent.Json.Unquote
import SvgComponent.Text.Cut
import SvgComponent.Text.Identifier

/-!
# Tokens of scripts

A script is cut into words, strings, numbers and marks; blanks and comments between them are
passed over (`skipGap`), but it matters whether there is a line break in them. `Token.scan`
cuts the next token off. What cannot be a token is a bad one, which no rule of the grammar takes.

Two things look like marks and are cut by rules of their own, where the grammar expects
them : regular expressions (`skipPattern?`) and the chunks of templates (`chunk?`).
-/

namespace SvgComponent.Script

open Text

/-! ## Blanks and comments -/

/-- Whether a character ends a line. -/
def isLineEnd (c : Char) : Bool :=
  c = '\n' || c = '\r' || c = '\u2028' || c = '\u2029'

/-- Whether a character is a blank that ends no line. -/
def isSpace (c : Char) : Bool :=
  c = ' ' || c = '\t' || c = '\x0b' || c = '\x0c' || c = '\u00a0' || c = '\ufeff' || c = '\u1680' ||
    ('\u2000' ≤ c && c ≤ '\u200a') || c = '\u202f' || c = '\u205f' || c = '\u3000'

/-- Between tokens, in a comment to the end of the line, or in one between marks, of which the
start is kept. -/
inductive Gap where
  | blank
  | line
  | block (start : List Char)

/-- Passes over blanks and comments; gives what is left, and whether a line break was met. A
comment that does not end is not passed over. -/
def skipGap : Gap → (newline : Bool) → List Char → List Char × Bool
  | .block start, newline, [] => (start, newline)
  | _, newline, [] => ([], newline)
  | .blank, newline, '/' :: '/' :: cs => skipGap .line newline cs
  | .blank, newline, '/' :: '*' :: cs => skipGap (.block ('/' :: '*' :: cs)) newline cs
  | .blank, newline, '<' :: '!' :: '-' :: '-' :: cs => skipGap .line newline cs
  | .blank, true, '-' :: '-' :: '>' :: cs => skipGap .line true cs
  | .blank, newline, c :: cs =>
    if isLineEnd c then skipGap .blank true cs
    else if isSpace c then skipGap .blank newline cs
    else (c :: cs, newline)
  | .line, newline, c :: cs =>
    if isLineEnd c then skipGap .blank true cs else skipGap .line newline cs
  | .block _, newline, '*' :: '/' :: cs => skipGap .blank newline cs
  | .block start, newline, c :: cs => skipGap (.block start) (newline || isLineEnd c) cs

/-! ## Tokens -/

/-- A token. A string with half a surrogate pair in it has no value. -/
inductive Token where
  | stop
  | word (text : String)
  | string (value : Option String)
  | number (value : Float)
  | bigNumber
  | mark (text : String)
  | bad

/-- Whether a token is a given word or mark. -/
def Token.is (token : Token) (text : String) : Bool :=
  match token with
  | .word w => w = text
  | .mark m => m = text
  | _ => false

/-! ### Escapes -/

/-- The value of hexadecimal digits. -/
def hexNumber (digits : List Char) : Nat :=
  digits.foldl (fun n c => n * 16 + (Json.hexValue? c).getD 0) 0

/-- Whether a character is a hexadecimal digit. -/
def isHex (c : Char) : Bool := (Json.hexValue? c).isSome

/-- The code that an escape gives behind its letter `u`. -/
def codeEscape? : List Char → Option (Nat × List Char)
  | '{' :: cs =>
    match cs.dropWhile isHex with
    | '}' :: rest =>
      let digits := cs.takeWhile isHex
      let code := hexNumber digits
      if digits ≠ [] ∧ code ≤ 0x10FFFF then some (code, rest) else none
    | _ => none
  | a :: b :: c :: d :: rest => (Json.hexCode? a b c d).map fun code => (code, rest)
  | _ => none

/-- Whether a character is a digit of base eight. -/
def isOctal (c : Char) : Bool := '0' ≤ c && c ≤ '7'

/-- The code of up to three octal digits, as far as it fits into a byte. -/
def octalEscape (first : Char) : List Char → Nat × List Char
  | [] => (first.toNat - 48, [])
  | b :: cs =>
    if isOctal b then
      let two := (first.toNat - 48) * 8 + (b.toNat - 48)
      match cs with
      | c :: rest =>
        let three := two * 8 + (c.toNat - 48)
        if isOctal c ∧ three < 256 then (three, rest) else (two, cs)
      | [] => (two, [])
    else (first.toNat - 48, b :: cs)

/-- The codes that an escape gives behind its backslash; none if it is no escape. -/
def escape? : List Char → Option (List Nat × List Char)
  | [] => none
  | 'x' :: a :: b :: rest =>
    if isHex a ∧ isHex b then some ([hexNumber [a, b]], rest) else none
  | 'x' :: _ => none
  | 'u' :: cs => (codeEscape? cs).map fun (code, rest) => ([code], rest)
  | 'n' :: cs => some ([10], cs)
  | 'r' :: cs => some ([13], cs)
  | 't' :: cs => some ([9], cs)
  | 'b' :: cs => some ([8], cs)
  | 'v' :: cs => some ([11], cs)
  | 'f' :: cs => some ([12], cs)
  | '\r' :: '\n' :: cs => some ([], cs)
  | c :: cs =>
    if isLineEnd c then some ([], cs)
    else if isOctal c then
      let (code, rest) := octalEscape c cs
      some ([code], rest)
    else some ([c.toNat], cs)

/-! ### Words -/

/-- Reads a word in at most `steps` steps, and whether it has an escape in it. -/
def wordFrom : (steps : Nat) → List Char → Option (List Char × Bool × List Char)
  | 0, cs => some ([], false, cs)
  | n + 1, '\\' :: cs =>
    match cs with
    | 'u' :: code => do
      let (code, rest) ← codeEscape? code
      let c := Char.ofNat code
      let (word, _, rest) ← if isIdentifierPart c then wordFrom n rest else none
      return (c :: word, true, rest)
    | _ => none
  | n + 1, c :: cs =>
    if isIdentifierPart c then do
      let (word, escaped, rest) ← wordFrom n cs
      return (c :: word, escaped, rest)
    else some ([], false, c :: cs)
  | _, [] => some ([], false, [])

/-- The words that the grammar keeps for itself. -/
def keywords : List String :=
  ["await", "break", "case", "catch", "class", "const", "continue", "debugger", "default", "delete",
   "do", "else", "export", "extends", "finally", "for", "function", "if", "import", "in",
   "instanceof", "let", "new", "return", "super", "switch", "this", "throw", "try", "typeof", "var",
   "void", "while", "with", "yield", "null", "true", "false"]

/-- The other words that refer to nothing. -/
def reservedWords : List String :=
  ["enum", "implements", "package", "protected", "interface", "private", "public"]

/-- Whether a word can refer to something. -/
def canRefer (word : String) : Bool :=
  word = "let" || (!keywords.contains word && !reservedWords.contains word)

/-- Reads a word; one that the grammar has a use for must not have an escape in it. -/
def scanWord (cs : List Char) : Token × List Char :=
  match wordFrom cs.length cs with
  | some (c :: word, escaped, rest) =>
    let text := String.ofList (c :: word)
    if !isIdentifierStart c ∨ (escaped ∧ !canRefer text) then (.bad, rest)
    else (.word text, rest)
  | _ => (.bad, [])

/-! ### Strings -/

/-- Reads the codes of a string in at most `steps` steps. A string also ends at a line
break, which it does not take, and at the end of the text. -/
def stringFrom (quote : Char) : (steps : Nat) → List Char → Option (List Nat × List Char)
  | 0, cs => some ([], cs)
  | _, [] => some ([], [])
  | n + 1, c :: cs =>
    if c = quote then some ([], cs)
    else if c = '\n' ∨ c = '\r' then some ([], c :: cs)
    else if c = '\\' then do
      let (codes, rest) ← escape? cs
      let (more, rest) ← stringFrom quote n rest
      return (codes ++ more, rest)
    else do
      let (more, rest) ← stringFrom quote n cs
      return (c.toNat :: more, rest)

/-- The characters of codes; two halves of a surrogate pair stand for one. -/
def textOfCodes? : List Nat → Option (List Char)
  | [] => some []
  | first :: second :: rest =>
    if Json.isLeading first ∧ Json.isTrailing second then
      (textOfCodes? rest).map (Json.pairChar first second :: ·)
    else if Json.isLeading first ∨ Json.isTrailing first then none
    else (textOfCodes? (second :: rest)).map (Char.ofNat first :: ·)
  | [code] => if Json.isLeading code ∨ Json.isTrailing code then none else some [Char.ofNat code]

/-- Reads a string behind its opening quote. -/
def scanString (quote : Char) (cs : List Char) : Token × List Char :=
  match stringFrom quote (cs.length + 1) cs with
  | some (codes, rest) => (.string ((textOfCodes? codes).map String.ofList), rest)
  | none => (.bad, [])

/-! ### Numbers -/

/-- The value of digits in a base; underscores between them count for nothing. -/
def numberOf (base : Nat) (digits : List Char) : Nat :=
  digits.foldl (fun n c => if c = '_' then n else n * base + (Json.hexValue? c).getD 0) 0

/-- Whether a character is a digit in a base or an underscore. -/
def isDigitIn (base : Nat) (c : Char) : Bool :=
  c = '_' || (Json.hexValue? c).any (· < base)

/-- No number has more digits in front of its point. -/
def maxDigits : Nat := 400

/-- The double nearest to a decimal. -/
def decimal (digits : List Char) (exponent : Int) : Float :=
  let significand := numberOf 10 digits
  if significand = 0 ∨ exponent < -(digits.length + maxDigits : Int) then 0.0
  else if (maxDigits : Int) < exponent then 1.0 / 0.0
  else Float.ofScientific significand (exponent < 0) exponent.natAbs

/-- A number must not be followed by a letter. -/
def numberToken (token : Token) (rest : List Char) : Token × List Char :=
  match rest with
  | c :: _ => if isIdentifierStart c then (.bad, rest) else (token, rest)
  | [] => (token, [])

/-- Reads the digits of a whole number in a base. -/
def scanWhole (base : Nat) (cs : List Char) : Token × List Char :=
  let digits := cs.takeWhile (isDigitIn base)
  if digits.all (· = '_') then (.bad, cs)
  else
    match cs.dropWhile (isDigitIn base) with
    | 'n' :: rest => numberToken .bigNumber rest
    | rest => numberToken (.number (Float.ofNat (numberOf base digits))) rest

/-- Reads the exponent of a number, if it has one. -/
def scanExponent (digits : List Char) (exponent : Int) (cs : List Char) : Token × List Char :=
  match cs with
  | c :: rest =>
    if c = 'e' ∨ c = 'E' then
      let (down, rest) := match rest with
        | '+' :: rest => (false, rest)
        | '-' :: rest => (true, rest)
        | rest => (false, rest)
      let power : Int := numberOf 10 (rest.takeWhile (isDigitIn 10))
      if (rest.takeWhile (isDigitIn 10)).all (· = '_') then (.bad, rest)
      else
        numberToken (.number (decimal digits (if down then exponent - power else exponent + power)))
          (rest.dropWhile (isDigitIn 10))
    else numberToken (.number (decimal digits exponent)) cs
  | [] => (.number (decimal digits exponent), [])

/-- Reads a decimal number. -/
def scanDecimal (cs : List Char) : Token × List Char :=
  let whole := cs.takeWhile (isDigitIn 10)
  match cs.dropWhile (isDigitIn 10) with
  | 'n' :: rest => numberToken .bigNumber rest
  | '.' :: rest =>
    let fraction := rest.takeWhile (isDigitIn 10)
    scanExponent (whole ++ fraction) (-(fraction.filter (· ≠ '_')).length)
      (rest.dropWhile (isDigitIn 10))
  | rest => scanExponent whole 0 rest

/-- Reads a number. One that starts with a zero has base eight if its digits allow that. -/
def scanNumber (cs : List Char) : Token × List Char :=
  match cs with
  | '0' :: c :: rest =>
    if c = 'x' ∨ c = 'X' then scanWhole 16 rest
    else if c = 'o' ∨ c = 'O' then scanWhole 8 rest
    else if c = 'b' ∨ c = 'B' then scanWhole 2 rest
    else if c.isDigit ∧ (cs.takeWhile Char.isDigit).all isOctal then
      numberToken (.number (Float.ofNat (numberOf 8 (cs.takeWhile Char.isDigit))))
        (cs.dropWhile Char.isDigit)
    else scanDecimal cs
  | _ => scanDecimal cs

/-! ### Marks -/

/-- The marks, each in front of those that it starts with. -/
def marks : List String :=
  [">>>=", "...", "===", "!==", "**=", "<<=", ">>=", ">>>", "&&=", "||=", "??=", "=>", "==", "!=",
   "<=", ">=", "&&", "||", "??", "?.", "++", "--", "+=", "-=", "*=", "/=", "%=", "&=", "|=", "^=",
   "<<", ">>", "**", "\x7b", "\x7d", "(", ")", "[", "]", ".", ";", ",", "<", ">", "+", "-", "*",
   "/", "%", "&", "|", "^", "!", "~", "?", ":", "=", "@", "#", "`"]

/-- Whether a mark can be cut off; a question mark in front of a fraction stands alone. -/
def markFits (mark : String) (cs : List Char) : Bool :=
  match stripMark? mark.toList cs with
  | none => false
  | some rest =>
    match mark, rest with
    | "?.", c :: _ => !c.isDigit
    | _, _ => true

/-- Reads a mark. -/
def scanMark (cs : List Char) : Token × List Char :=
  match marks.find? (markFits · cs) with
  | some mark => (.mark mark, cs.drop mark.length)
  | none => (.bad, cs)

/-- Cuts the next token off a text. -/
def Token.scan (cs : List Char) : Token × List Char :=
  match cs with
  | [] => (.stop, [])
  | '/' :: '*' :: _ => (.bad, [])
  | '.' :: c :: _ => if c.isDigit then scanDecimal cs else scanMark cs
  | c :: rest =>
    if isIdentifierStart c ∨ c = '\\' then scanWord cs
    else if c.isDigit then scanNumber cs
    else if c = '"' ∨ c = '\'' then scanString c rest
    else scanMark cs

/-! ## Cursors -/

/-- A token with the text that starts with it, the text behind it, and whether a line break
stands in front of it; `limit` is a number that the characters left do not exceed. -/
structure Cursor where
  token : Token
  text : List Char
  behind : List Char
  newline : Bool
  limit : Nat

namespace Cursor

/-- The cursor at the token that a text starts with. -/
def ofText (limit : Nat) (text : List Char) (newline : Bool) : Cursor :=
  let (token, behind) := Token.scan text
  ⟨token, text, behind, newline, limit⟩

/-- The cursor at the first token of a text; a first line that starts with `#!` is passed over. -/
def start (text : List Char) : Cursor :=
  let (rest, newline) := match text with
    | '#' :: '!' :: cs => skipGap .line true cs
    | cs => skipGap .blank true cs
  ofText text.length rest newline

/-- The cursor at the first token of what is left. -/
def moved (cursor : Cursor) (rest : List Char) : Cursor :=
  let (rest, newline) := skipGap .blank false rest
  ofText cursor.limit rest newline

/-- The cursor at the next token. -/
def next (cursor : Cursor) : Cursor :=
  cursor.moved cursor.behind

end Cursor

/-! ## Patterns and templates -/

/-- Passes over a regular expression behind its opening slash, and over its flags. -/
def skipPattern? (escaped inClass : Bool) : List Char → Option (List Char)
  | [] => none
  | c :: cs =>
    if isLineEnd c then none
    else if escaped then skipPattern? false inClass cs
    else if c = '\\' then skipPattern? true inClass cs
    else if c = '[' then skipPattern? false true cs
    else if c = ']' then skipPattern? false false cs
    else if c = '/' ∧ !inClass then some (cs.dropWhile isIdentifierPart)
    else skipPattern? false inClass cs

/-- A chunk of a template : whether the template ends with it, whether its escapes are
valid, and what follows. -/
structure Chunk where
  last : Bool
  valid : Bool
  rest : List Char

/-- Whether the text behind a backslash is an escape that a template allows. -/
def isTemplateEscape (cs : List Char) : Bool :=
  (escape? cs).isSome &&
    match cs with
    | '0' :: c :: _ => !c.isDigit
    | c :: _ => c = '0' || !c.isDigit
    | [] => false

/-- Passes over a chunk of a template. -/
def chunk? (valid : Bool) : List Char → Option Chunk
  | [] => none
  | '\x60' :: cs => some ⟨true, valid, cs⟩
  | '$' :: '{' :: cs => some ⟨false, valid, cs⟩
  | '\\' :: c :: cs => chunk? (valid && isTemplateEscape (c :: cs)) cs
  | _ :: cs => chunk? valid cs

end SvgComponent.Script
