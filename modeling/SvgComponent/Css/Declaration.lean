import SvgComponent.Css.Token
import SvgComponent.Text.Blank

/-!
# Declaration lists

A style text is read as a list of declarations, `name: value`, separated by semicolons. Brackets
and what is between them count as one part (`Part`), so only the semicolons outside all
brackets separate. What is no declaration is dropped, and so is `!important`; a rule with
an `@` reaches up to its semicolon or its braces.

A value is the text as written between the colon and the semicolon, blanks at its ends cut.
-/

namespace SvgComponent.Css

open Text

/-- A token outside brackets, or an opening token with all that it encloses. -/
structure Part where
  kind : Kind
  lexeme : List Char
  deriving DecidableEq, Repr

/-! ## Brackets -/

/-- Takes tokens up to the one that closes the brackets in `stack`, whose closing marks are
given the innermost first. A mark that does not close the innermost bracket means nothing. -/
def takeBlock (stack : List Char) : List Token → List Char × List Token
  | [] => ([], [])
  | t :: ts =>
    let next :=
      match t.kind with
      | .opener mark => mark :: stack
      | .closer mark => if stack.head? = some mark then stack.tail else stack
      | _ => stack
    match next with
    | [] => (t.lexeme, ts)
    | _ =>
      let (lexeme, rest) := takeBlock next ts
      (t.lexeme ++ lexeme, rest)

theorem length_takeBlock_le (stack : List Char) (ts : List Token) :
    (takeBlock stack ts).2.length ≤ ts.length := by
  induction ts generalizing stack with
  | nil => simp [takeBlock]
  | cons t ts ih =>
    rw [takeBlock]
    simp only
    split
    · simp
    · exact Nat.le_succ_of_le (ih _)

/-- Puts brackets and what they enclose together. -/
def parts (ts : List Token) : List Part :=
  match ts with
  | [] => []
  | t :: rest =>
    match t.kind with
    | .opener mark =>
      ⟨t.kind, t.lexeme ++ (takeBlock [mark] rest).1⟩ :: parts (takeBlock [mark] rest).2
    | _ => ⟨t.kind, t.lexeme⟩ :: parts rest
termination_by ts.length
decreasing_by
  · have := length_takeBlock_le [mark] rest
    simp only [List.length_cons]
    omega
  · simp

/-- The text of parts. -/
def written (ps : List Part) : List Char :=
  ps.flatMap (·.lexeme)

/-! ## Declarations -/

/-- A name and a value. -/
structure Declaration where
  name : List Char
  value : List Char
  deriving DecidableEq, Repr

/-- Whether a part is blank or a comment. -/
def isIdle (p : Part) : Bool := p.kind = .blank || p.kind = .comment

/-- Drops the blanks and comments in front. -/
def skipIdle (ps : List Part) : List Part := ps.dropWhile isIdle

/-- Whether the parts are `!important` and nothing else. -/
def isImportant (ps : List Part) : Bool :=
  match ps with
  | ⟨.bang, _⟩ :: ps =>
    match skipIdle ps with
    | ⟨.ident name, _⟩ :: ps =>
      name.map Char.toLower = ['i', 'm', 'p', 'o', 'r', 't', 'a', 'n', 't'] && skipIdle ps = []
    | _ => false
  | _ => false

/-- The declaration of a name, from the parts behind it up to the semicolon. -/
def declaration? (name : List Char) (ps : List Part) : Option Declaration :=
  match skipIdle ps with
  | ⟨.colon, _⟩ :: ps =>
    let value := trim (written (ps.takeWhile (·.kind ≠ .bang)))
    let rest := ps.dropWhile (·.kind ≠ .bang)
    if rest = [] ∨ isImportant rest then some ⟨name, value⟩ else none
  | _ => none

/-- Whether a part ends what is read up to a semicolon. -/
def isSemicolon (p : Part) : Bool := p.kind = .semicolon

/-- Whether a part ends a rule with an `@`. -/
def endsRule (p : Part) : Bool := p.kind = .semicolon || p.kind = .opener '}'

/-- What follows the first part that passes a test. -/
def after (ends : Part → Bool) (ps : List Part) : List Part :=
  (ps.dropWhile (!ends ·)).tail

theorem length_after_le (ends : Part → Bool) (ps : List Part) :
    (after ends ps).length ≤ ps.length := by
  unfold after
  have := (List.dropWhile_suffix (l := ps) (!ends ·)).length_le
  rw [List.length_tail]
  omega

/-- The declarations in a list of parts. -/
def collect (ps : List Part) : List Declaration :=
  match ps with
  | [] => []
  | p :: rest =>
    match p.kind with
    | .blank | .comment | .semicolon | .closer '}' => collect rest
    | .atKeyword => collect (after endsRule rest)
    | .ident name =>
      (declaration? name (rest.takeWhile (!isSemicolon ·))).toList ++
        collect (after isSemicolon rest)
    | _ => collect (after isSemicolon rest)
termination_by ps.length
decreasing_by
  all_goals
    have h1 := length_after_le endsRule rest
    have h2 := length_after_le isSemicolon rest
    simp only [List.length_cons]
    omega

/-- The declarations of a style text, in order. -/
def declarations (cs : List Char) : List Declaration :=
  collect (parts (tokens cs))

end SvgComponent.Css
