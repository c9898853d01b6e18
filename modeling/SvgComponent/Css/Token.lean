import SvgComponent.Text.Cut

/-!
# Tokens of style texts

A style text is a sequence of tokens, each with its text as written (`Token.lexeme`). Every
text has tokens : what is left open at the end ends there, a line break ends a string, and a
malformed address runs up to its bracket. Only the kinds that matter for a list of
declarations are told apart (`Kind`).

`tokens` cuts a text into tokens. Each takes at least one character, and what follows it is
left as it is (`readToken_suffix`).
-/

namespace SvgComponent.Css

open Text

/-- The kind of a token. A name is given with its escapes replaced. -/
inductive Kind where
  | ident (name : List Char)
  | atKeyword
  | colon
  | semicolon
  | bang
  | blank
  | comment
  | opener (closer : Char)
  | closer (mark : Char)
  | other
  deriving DecidableEq, Repr

/-- A token as written. -/
structure Token where
  kind : Kind
  lexeme : List Char
  deriving DecidableEq, Repr

/-! ## Characters -/

/-- The line breaks of style texts. -/
def isNewline (c : Char) : Bool := c = '\n' || c = '\r' || c = '\x0c'

/-- The blanks of style texts. -/
def isBlank (c : Char) : Bool := c = ' ' || c = '\t' || isNewline c

/-- What a character that cannot be named is replaced by. -/
def replacement : Char := '\uFFFD'

/-- The characters that a name can start with, an escape and a hyphen aside. -/
def isNameStart (c : Char) : Bool :=
  c.isAlpha || c = '_' || c = '\x00' || c.toNat ≥ 0x80

/-- The characters of a name, an escape aside. -/
def isNameChar (c : Char) : Bool :=
  isNameStart c || c.isDigit || c = '-'

def isHex (c : Char) : Bool :=
  c.isDigit || ('a' ≤ c && c ≤ 'f') || ('A' ≤ c && c ≤ 'F')

/-- Whether a line break is in front. -/
def startsWithNewline : List Char → Bool
  | c :: _ => isNewline c
  | [] => false

/-- Whether a digit is in front. -/
def startsWithDigit : List Char → Bool
  | c :: _ => c.isDigit
  | [] => false

/-- Whether a name is in front. A backslash starts one unless a line break follows, and a
hyphen if something that starts a name, or another hyphen, follows. -/
def startsName : List Char → Bool
  | '\\' :: r => !startsWithNewline r
  | '-' :: '\\' :: r => !startsWithNewline r
  | '-' :: c :: _ => isNameStart c || c = '-'
  | c :: _ => isNameStart c
  | [] => false

/-! ## Escapes and names -/

/-- The value of hexadecimal digits. -/
def hexNumber (cs : List Char) : Nat :=
  cs.foldl (fun n c =>
    n * 16 + (if c.isDigit then c.toNat - '0'.toNat
      else if 'a' ≤ c then c.toNat - 'a'.toNat + 10
      else c.toNat - 'A'.toNat + 10)) 0

/-- The character with a code, or the replacement. -/
def charOfCode (n : Nat) : Char :=
  if h : n.isValidChar then if n = 0 then replacement else Char.ofNatAux n h
  else replacement

/-- Drops one blank, a carriage return and a line feed being one. -/
def dropOneBlank : List Char → List Char
  | '\r' :: '\n' :: r => r
  | c :: r => if isBlank c then r else c :: r
  | [] => []

/-- The digits of an escape by code. -/
def escapeDigits (cs : List Char) : List Char :=
  (cs.take 6).takeWhile isHex

/-- The character that an escape stands for, and what follows the escape, behind its
backslash. -/
def readEscape (cs : List Char) : Char × List Char :=
  match cs with
  | [] => (replacement, [])
  | c :: r =>
    if isHex c then
      (charOfCode (hexNumber (escapeDigits cs)), dropOneBlank (cs.drop (escapeDigits cs).length))
    else if c = '\x00' then (replacement, r)
    else (c, r)

theorem dropOneBlank_suffix (cs : List Char) : dropOneBlank cs <:+ cs := by
  unfold dropOneBlank
  split
  · exact List.suffix_append ['\r', '\n'] _
  · split
    · exact List.suffix_cons _ _
    · exact List.suffix_refl _
  · exact List.suffix_refl _

theorem readEscape_suffix (cs : List Char) : (readEscape cs).2 <:+ cs := by
  unfold readEscape
  split
  · exact List.suffix_refl _
  · split
    · exact (dropOneBlank_suffix _).trans (List.drop_suffix _ _)
    · split <;> exact List.suffix_cons _ _

/-- The name in front, with its escapes replaced, and what follows it. -/
def readName (cs : List Char) : List Char × List Char :=
  match cs with
  | [] => ([], [])
  | c :: r =>
    if c = '\\' then
      if startsWithNewline r then ([], cs)
      else
        let (name, rest) := readName (readEscape r).2
        ((readEscape r).1 :: name, rest)
    else if isNameChar c then
      let (name, rest) := readName r
      ((if c = '\x00' then replacement else c) :: name, rest)
    else ([], cs)
termination_by cs.length
decreasing_by
  · exact Nat.lt_succ_of_le (readEscape_suffix r).length_le
  · simp

theorem readName_suffix (cs : List Char) : (readName cs).2 <:+ cs := by
  fun_induction readName cs with
  | case1 => exact List.suffix_refl _
  | case2 => exact List.suffix_refl _
  | case3 r _ name rest h ih =>
    rw [h] at ih
    exact (ih.trans (readEscape_suffix r)).trans (List.suffix_cons _ _)
  | case4 c r _ _ name rest h ih =>
    rw [h] at ih
    exact ih.trans (List.suffix_cons _ _)
  | case5 => exact List.suffix_refl _

/-! ## Strings, comments and addresses -/

/-- What follows a string behind its opening quote. -/
def skipString (quote : Char) (cs : List Char) : List Char :=
  match cs with
  | [] => []
  | c :: r =>
    if c = quote then r
    else if isNewline c then cs
    else if c = '\\' then
      if startsWithNewline r then skipString quote (dropOneBlank r)
      else skipString quote (readEscape r).2
    else skipString quote r
termination_by cs.length
decreasing_by
  · exact Nat.lt_succ_of_le (dropOneBlank_suffix r).length_le
  · exact Nat.lt_succ_of_le (readEscape_suffix r).length_le
  · simp

/-- What follows a comment behind its opening mark. -/
def skipComment (cs : List Char) : List Char :=
  match cutAt? ['*', '/'] cs with
  | some (_, rest) => rest
  | none => []

/-- What follows a malformed address, from inside it. -/
def skipBadUrl : List Char → List Char
  | [] => []
  | ')' :: r => r
  | '\\' :: ')' :: r => skipBadUrl r
  | '\\' :: '\\' :: r => skipBadUrl r
  | _ :: r => skipBadUrl r

/-- What follows an address behind its last character. -/
def skipUrlEnd (cs : List Char) : List Char :=
  match cs.dropWhile isBlank with
  | [] => []
  | ')' :: r => r
  | _ :: r => skipBadUrl r

/-- The characters that no address holds. -/
def isUrlFault (c : Char) : Bool :=
  c = '"' || c = '\'' || c = '(' || c = '\x7f' || (c.toNat < 0x20 && !isBlank c && c ≠ '\x00')

/-- What follows an address from inside it. -/
def skipUrlText (cs : List Char) : List Char :=
  match cs with
  | [] => []
  | c :: r =>
    if c = ')' then r
    else if isBlank c then skipUrlEnd cs
    else if isUrlFault c then skipBadUrl r
    else if c = '\\' then
      if startsWithNewline r then skipBadUrl r else skipUrlText (readEscape r).2
    else skipUrlText r
termination_by cs.length
decreasing_by
  · exact Nat.lt_succ_of_le (readEscape_suffix r).length_le
  · simp

/-- What follows an address without quotes behind its opening bracket; none if a quote comes,
which makes it a function. -/
def skipUrl? (cs : List Char) : Option (List Char) :=
  match cs.dropWhile isBlank with
  | [] => some []
  | c :: r => if c = '"' ∨ c = '\'' then none else some (skipUrlText (c :: r))

/-! ## Numbers -/

/-- What follows an exponent, if one is in front. -/
def skipExponent (cs : List Char) : List Char :=
  match cs with
  | c :: s :: r =>
    if c = 'e' ∨ c = 'E' then
      if s.isDigit then r.dropWhile Char.isDigit
      else if (s = '+' ∨ s = '-') ∧ startsWithDigit r then r.dropWhile Char.isDigit
      else cs
    else cs
  | _ => cs

/-- What follows the part of a number behind its point, if one is in front. -/
def skipFraction (cs : List Char) : List Char :=
  match cs with
  | '.' :: r => if startsWithDigit r then r.dropWhile Char.isDigit else cs
  | _ => cs

/-- What follows the unit of a number, if one is in front. -/
def skipUnit (cs : List Char) : List Char :=
  match cs with
  | '%' :: r => r
  | _ => if startsName cs then (readName cs).2 else cs

/-- What follows a number and its unit, behind the first character `c`. -/
def skipNumber (c : Char) (cs : List Char) : List Char :=
  let digits := cs.dropWhile Char.isDigit
  skipUnit (skipExponent (if c = '.' then digits else skipFraction digits))

/-- Whether a number is in front. -/
def startsNumber : List Char → Bool
  | '+' :: r => startsWithDigit r || (match r with | '.' :: s => startsWithDigit s | _ => false)
  | '-' :: r => startsWithDigit r || (match r with | '.' :: s => startsWithDigit s | _ => false)
  | '.' :: r => startsWithDigit r
  | c :: _ => c.isDigit
  | [] => false

/-! ## What is left of a text -/

theorem skipString_suffix (quote : Char) (cs : List Char) : skipString quote cs <:+ cs := by
  fun_induction skipString quote cs with
  | case1 => exact List.suffix_refl _
  | case2 => exact List.suffix_cons _ _
  | case3 => exact List.suffix_refl _
  | case4 r _ _ _ ih => exact (ih.trans (dropOneBlank_suffix r)).trans (List.suffix_cons _ _)
  | case5 r _ _ _ ih => exact (ih.trans (readEscape_suffix r)).trans (List.suffix_cons _ _)
  | case6 c r _ _ _ ih => exact ih.trans (List.suffix_cons _ _)

theorem skipComment_suffix (cs : List Char) : skipComment cs <:+ cs := by
  unfold skipComment
  split
  · rename_i h
    exact ⟨_, (eq_append_of_cutAt? h).symm⟩
  · exact List.nil_suffix

theorem skipBadUrl_suffix (cs : List Char) : skipBadUrl cs <:+ cs := by
  fun_induction skipBadUrl cs with
  | case1 => exact List.suffix_refl _
  | case2 => exact List.suffix_cons _ _
  | case3 r ih => exact ih.trans (List.suffix_append ['\\', ')'] r)
  | case4 r ih => exact ih.trans (List.suffix_append ['\\', '\\'] r)
  | case5 c r _ _ _ ih => exact ih.trans (List.suffix_cons _ _)

theorem skipUrlEnd_suffix (cs : List Char) : skipUrlEnd cs <:+ cs := by
  have h : cs.dropWhile isBlank <:+ cs := List.dropWhile_suffix _
  unfold skipUrlEnd
  split
  · exact List.nil_suffix
  · rename_i hd
    rw [hd] at h
    exact (List.suffix_cons _ _).trans h
  · rename_i r _ hd
    rw [hd] at h
    exact ((skipBadUrl_suffix r).trans (List.suffix_cons _ _)).trans h

theorem skipUrlText_suffix (cs : List Char) : skipUrlText cs <:+ cs := by
  fun_induction skipUrlText cs with
  | case1 => exact List.suffix_refl _
  | case2 => exact List.suffix_cons _ _
  | case3 c r _ _ => exact skipUrlEnd_suffix (c :: r)
  | case4 c r => exact (skipBadUrl_suffix r).trans (List.suffix_cons _ _)
  | case5 r => exact (skipBadUrl_suffix r).trans (List.suffix_cons _ _)
  | case6 r _ _ _ _ ih => exact (ih.trans (readEscape_suffix r)).trans (List.suffix_cons _ _)
  | case7 c r _ _ _ _ ih => exact ih.trans (List.suffix_cons _ _)

theorem suffix_of_skipUrl? {cs rest : List Char} (h : skipUrl? cs = some rest) : rest <:+ cs := by
  have hd : cs.dropWhile isBlank <:+ cs := List.dropWhile_suffix _
  unfold skipUrl? at h
  split at h
  · cases h
    exact List.nil_suffix
  · rename_i c r hc
    rw [hc] at hd
    split at h
    · simp at h
    · cases h
      exact (skipUrlText_suffix _).trans hd

theorem skipFraction_suffix (cs : List Char) : skipFraction cs <:+ cs := by
  unfold skipFraction
  split
  · split
    · exact (List.dropWhile_suffix _).trans (List.suffix_cons _ _)
    · exact List.suffix_refl _
  · exact List.suffix_refl _

theorem skipExponent_suffix (cs : List Char) : skipExponent cs <:+ cs := by
  unfold skipExponent
  split
  · rename_i c s r
    have hdigits : r.dropWhile Char.isDigit <:+ c :: s :: r :=
      (List.dropWhile_suffix _).trans (List.suffix_append [c, s] r)
    (repeat' split) <;> first | exact hdigits | exact List.suffix_refl _
  · exact List.suffix_refl _

theorem skipUnit_suffix (cs : List Char) : skipUnit cs <:+ cs := by
  unfold skipUnit
  split
  · exact List.suffix_cons _ _
  · split
    · exact readName_suffix cs
    · exact List.suffix_refl _

theorem skipNumber_suffix (c : Char) (cs : List Char) : skipNumber c cs <:+ cs := by
  refine ((skipUnit_suffix _).trans (skipExponent_suffix _)).trans ?_
  split
  · exact List.dropWhile_suffix _
  · exact (skipFraction_suffix _).trans (List.dropWhile_suffix _)

/-! ## Tokens -/

/-- Whether a name stands for an address in front of a bracket. -/
def isUrlName (name : List Char) : Bool :=
  name.map Char.toLower = ['u', 'r', 'l']

/-- The kind of a token that starts with a name, and what follows it. -/
def readNamed (cs : List Char) : Kind × List Char :=
  match readName cs with
  | (name, '(' :: r) =>
    match if isUrlName name then skipUrl? r else none with
    | some rest => (.other, rest)
    | none => (.opener ')', r)
  | (name, rest) => (.ident name, rest)

/-- The kind of a token that is one mark. -/
def markKind? (c : Char) : Option Kind :=
  match c with
  | '(' => some (.opener ')')
  | '[' => some (.opener ']')
  | '{' => some (.opener '}')
  | ')' | ']' | '}' => some (.closer c)
  | ':' => some .colon
  | ';' => some .semicolon
  | '!' => some .bang
  | _ => none

/-- What follows a token of no special kind : a key of a colour, a number, a mark of a
document comment, or a single character. -/
def skipOther (c : Char) (r : List Char) : List Char :=
  if c = '#' ∧ (startsName r ∨ startsWithDigit r ∨ r.head? = some '-') then (readName r).2
  else if startsNumber (c :: r) then skipNumber c r
  else if c = '-' ∧ (stripMark? ['-', '>'] r).isSome then r.drop 2
  else if c = '<' ∧ (stripMark? ['!', '-', '-'] r).isSome then r.drop 3
  else r

/-- Whether a token starts with a name, rather than with a number or a mark of a document
comment. -/
def isNamed (cs : List Char) : Bool :=
  startsName cs && !startsNumber cs && (stripMark? ['-', '-', '>'] cs).isNone

/-- The kind of the token in front, whose first character is `c`, and what follows it. -/
def readToken (c : Char) (r : List Char) : Kind × List Char :=
  match markKind? c with
  | some kind => (kind, r)
  | none =>
    if isBlank c then (.blank, r.dropWhile isBlank)
    else if c = '"' ∨ c = '\'' then (.other, skipString c r)
    else if c = '/' ∧ r.head? = some '*' then (.comment, skipComment r.tail)
    else if c = '@' ∧ startsName r then (.atKeyword, (readName r).2)
    else if isNamed (c :: r) then readNamed (c :: r)
    else (.other, skipOther c r)

theorem readNamed_suffix (cs : List Char) : (readNamed cs).2 <:+ (readName cs).2 := by
  unfold readNamed
  split
  · rename_i name r hn
    rw [hn]
    split
    · rename_i rest hu
      split at hu
      · exact (suffix_of_skipUrl? hu).trans (List.suffix_cons _ _)
      · simp at hu
    · exact List.suffix_cons _ _
  · rename_i name rest _ hn
    have hrest : (readName cs).2 = rest := by rw [hn]
    exact hrest ▸ List.suffix_refl rest

theorem readName_suffix_of_startsName {c : Char} {r : List Char} (h : startsName (c :: r) = true) :
    (readName (c :: r)).2 <:+ r := by
  by_cases hc : c = '\\'
  · subst hc
    have hnl : startsWithNewline r = false := by simpa [startsName] using h
    rw [readName, if_pos rfl, if_neg (by simp [hnl])]
    exact (readName_suffix _).trans (readEscape_suffix r)
  · have hname : isNameChar c = true := by
      by_cases hd : c = '-'
      · subst hd
        decide
      · have : isNameStart c = true := by
          rw [startsName.eq_def] at h
          split at h <;> simp_all
        simp [isNameChar, this]
    rw [readName, if_neg hc, if_pos hname]
    exact readName_suffix r

theorem skipOther_suffix (c : Char) (r : List Char) : skipOther c r <:+ r := by
  unfold skipOther
  split
  · exact readName_suffix r
  split
  · exact skipNumber_suffix c r
  split
  · exact List.drop_suffix 2 r
  split
  · exact List.drop_suffix 3 r
  exact List.suffix_refl _

theorem readToken_suffix (c : Char) (r : List Char) : (readToken c r).2 <:+ r := by
  unfold readToken
  split
  · exact List.suffix_refl _
  split
  · exact List.dropWhile_suffix _
  split
  · exact skipString_suffix c r
  split
  · exact (skipComment_suffix _).trans (List.tail_suffix r)
  split
  · exact readName_suffix r
  split
  · rename_i h
    simp only [isNamed, Bool.and_eq_true] at h
    exact (readNamed_suffix _).trans (readName_suffix_of_startsName h.1.1)
  exact skipOther_suffix c r

/-- Cuts a text into tokens. -/
def tokens (cs : List Char) : List Token :=
  match cs with
  | [] => []
  | c :: r =>
    let token := readToken c r
    ⟨token.1, (c :: r).take ((c :: r).length - token.2.length)⟩ :: tokens token.2
termination_by cs.length
decreasing_by
  exact Nat.lt_succ_of_le (readToken_suffix c r).length_le

end SvgComponent.Css
