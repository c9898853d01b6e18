import SvgComponent.Text.Blank
import SvgComponent.Text.Cut
import SvgComponent.Text.Position

/-!
# Tokens of markup

A document text is a sequence of tokens : runs of text, opening, closing and empty tags,
comments, CDATA sections, doctypes and instructions. A token keeps its text exactly as
written (`Token.lexeme`), so a text is the concatenation of the lexemes of its tokens.

`Token.scan` reads the token in front of a text, or says why there is none
(`TokenFault`). Where a kind of token ends :

* a tag at the first `>` outside quotes, a run of text in front of the next `<`;
* a comment at `-->`, a CDATA section at `]]>`, an instruction at `?>`;
* a doctype at the `>` that closes as many `<` as it holds.

`Token.eq_append_of_scan` : a scanned token is followed by exactly the text that is left.
-/

namespace SvgComponent.Markup

open Text

/-- One token, with its text as written between the marks of its kind. -/
inductive Token where
  | text (raw : List Char)
  | opening (content : List Char)
  | empty (content : List Char)
  | closing (content : List Char)
  | comment (content : List Char)
  | cdata (content : List Char)
  | doctype (keyword content : List Char)
  | instruction (content : List Char)
  deriving DecidableEq, Repr

/-- Why no token starts at a place. -/
inductive TokenFault where
  | openTag
  | openComment
  | openCdata
  | openDoctype
  | openInstruction
  | unknownMark
  | namelessDoctype
  deriving DecidableEq, Repr

/-- The wording of a fault. -/
def TokenFault.message : TokenFault → String
  | openTag => "syntax error: tag not closed: `>` not found before end of input"
  | openComment => "syntax error: comment not closed: `-->` not found before end of input"
  | openCdata => "syntax error: CDATA not closed: `]]>` not found before end of input"
  | openDoctype => "syntax error: DOCTYPE not closed: `>` not found before end of input"
  | openInstruction =>
    "syntax error: processing instruction or xml declaration not closed: " ++
      "`?>` not found before end of input"
  | unknownMark => "syntax error: unknown or missed symbol in markup"
  | namelessDoctype =>
    "ill-formed document: `<!DOCTYPE>` declaration does not contain a name of a document type"

namespace Token

/-! ## Marks -/

/-- What opens a comment, behind `<!`. -/
def commentMark : List Char := ['-', '-']

def commentEnd : List Char := ['-', '-', '>']

/-- What opens a CDATA section, behind `<!`. -/
def cdataMark : List Char := ['[', 'C', 'D', 'A', 'T', 'A', '[']

def cdataEnd : List Char := [']', ']', '>']

def instructionEnd : List Char := ['?', '>']

def doctypeKeyword : List Char := ['D', 'O', 'C', 'T', 'Y', 'P', 'E']

/-- The token as it is written. -/
def lexeme : Token → List Char
  | text raw => raw
  | opening content => '<' :: content ++ ['>']
  | empty content => '<' :: content ++ ['/', '>']
  | closing content => '<' :: '/' :: content ++ ['>']
  | comment content => '<' :: '!' :: (commentMark ++ content ++ commentEnd)
  | cdata content => '<' :: '!' :: (cdataMark ++ content ++ cdataEnd)
  | doctype keyword content => '<' :: '!' :: keyword ++ content ++ ['>']
  | instruction content => '<' :: '?' :: (content ++ instructionEnd)

/-! ## Where tags and doctypes end -/

/-- The quote that is open after a character. -/
def quoteAfter (quote : Option Char) (c : Char) : Option Char :=
  match quote with
  | some q => if c = q then none else some q
  | none => if c = '"' ∨ c = '\'' then some c else none

/-- The content of a tag up to the first `>` outside quotes, and the rest behind it;
`quote` is the quote that is open. -/
def cutTag? (quote : Option Char) : List Char → Option (List Char × List Char)
  | [] => none
  | c :: cs =>
    if quote = none ∧ c = '>' then some ([], cs)
    else (cutTag? (quoteAfter quote c) cs).map fun p => (c :: p.1, p.2)

/-- The content of a doctype up to the `>` that closes it, and the rest behind it; `depth`
counts the `<` that are still open. -/
def cutDoctype? (depth : Nat) : List Char → Option (List Char × List Char)
  | [] => none
  | c :: cs =>
    if c = '>' ∧ depth = 0 then some ([], cs)
    else
      (cutDoctype? (if c = '<' then depth + 1 else if c = '>' then depth - 1 else depth) cs).map
        fun p => (c :: p.1, p.2)

/-- A tag is empty if its content ends in a slash. -/
def ofTagContent (content : List Char) : Token :=
  match content.reverse with
  | '/' :: r => empty r.reverse
  | _ => opening content

/-- The keyword of a doctype, in any case. -/
def isDoctypeKeyword (cs : List Char) : Bool :=
  cs.map Char.toUpper = doctypeKeyword

/-! ## Scanning -/

/-- A token and what follows it, or a fault with the number of bytes to the place that it is
reported at. -/
abbrev Scanned := Except (TokenFault × Nat) (Token × List Char)

/-- Reads what follows `<!`. -/
def scanDeclaration (cs : List Char) : Scanned :=
  match cs with
  | '-' :: _ =>
    match (stripMark? commentMark cs).bind (cutAt? commentEnd) with
    | some (content, rest) => .ok (comment content, rest)
    | none => .error (.openComment, 0)
  | '[' :: _ =>
    match (stripMark? cdataMark cs).bind (cutAt? cdataEnd) with
    | some (content, rest) => .ok (cdata content, rest)
    | none => .error (.openCdata, 0)
  | c :: _ =>
    if c = 'D' ∨ c = 'd' then
      match cutDoctype? 0 cs with
      | some (content, rest) =>
        if isDoctypeKeyword (content.take 7) then
          if (content.drop 7).all isGap then .error (.namelessDoctype, 2 + width content)
          else .ok (doctype (content.take 7) (content.drop 7), rest)
        else .error (.openDoctype, 0)
      | none => .error (.openDoctype, 0)
    else .error (.unknownMark, 0)
  | [] => .error (.unknownMark, 0)

/-- Reads what follows `<?`. -/
def scanInstruction (cs : List Char) : Scanned :=
  match cs with
  | '>' :: _ => .error (.openInstruction, 0)
  | _ =>
    match cutAt? instructionEnd cs with
    | some (content, rest) => .ok (instruction content, rest)
    | none => .error (.openInstruction, 0)

/-- Reads what follows `<`. -/
def scanMarked (cs : List Char) : Scanned :=
  match cs with
  | '!' :: r => scanDeclaration r
  | '?' :: r => scanInstruction r
  | '/' :: r =>
    match cutTag? none r with
    | some (content, rest) => .ok (closing content, rest)
    | none => .error (.openTag, 0)
  | _ =>
    match cutTag? none cs with
    | some (content, rest) => .ok (ofTagContent content, rest)
    | none => .error (.openTag, 0)

/-- Reads the token in front of a text that is not empty. -/
def scan (cs : List Char) : Scanned :=
  match cs with
  | '<' :: r => scanMarked r
  | _ => .ok (text (cs.takeWhile (· ≠ '<')), cs.dropWhile (· ≠ '<'))

/-! ## Nothing is lost -/

theorem eq_append_of_cutTag? {q : Option Char} {cs a b : List Char}
    (h : cutTag? q cs = some (a, b)) : cs = a ++ '>' :: b := by
  induction cs generalizing q a with
  | nil => simp [cutTag?] at h
  | cons c cs ih =>
    rw [cutTag?] at h
    split at h
    · rename_i hc
      cases h
      rw [hc.2, List.nil_append]
    · obtain ⟨⟨a', b'⟩, hp, e⟩ := Option.map_eq_some_iff.1 h
      cases e
      rw [ih hp, List.cons_append]

theorem eq_append_of_cutDoctype? {n : Nat} {cs a b : List Char}
    (h : cutDoctype? n cs = some (a, b)) : cs = a ++ '>' :: b := by
  induction cs generalizing n a with
  | nil => simp [cutDoctype?] at h
  | cons c cs ih =>
    rw [cutDoctype?] at h
    split at h
    · rename_i hc
      cases h
      rw [hc.1, List.nil_append]
    · obtain ⟨⟨a', b'⟩, hp, e⟩ := Option.map_eq_some_iff.1 h
      cases e
      rw [ih hp, List.cons_append]

theorem lexeme_ofTagContent (content : List Char) :
    (ofTagContent content).lexeme = '<' :: content ++ ['>'] := by
  rw [ofTagContent]
  split
  · rename_i r h
    have : content = r.reverse ++ ['/'] := by
      rw [← List.reverse_reverse content, h, List.reverse_cons]
    rw [lexeme, this]
    simp
  · rfl

/-- A declaration is read from behind its first two characters. -/
theorem exists_lexeme_of_scanDeclaration {cs rest : List Char} {t : Token}
    (h : scanDeclaration cs = .ok (t, rest)) :
    ∃ body, t.lexeme = '<' :: '!' :: body ∧ cs = body ++ rest := by
  unfold scanDeclaration at h
  split at h
  · split at h
    · rename_i hb
      cases h
      obtain ⟨mid, hm, hc⟩ := Option.bind_eq_some_iff.1 hb
      refine ⟨_, rfl, ?_⟩
      rw [eq_append_of_stripMark? hm, eq_append_of_cutAt? hc]
      simp
    · cases h
  · split at h
    · rename_i hb
      cases h
      obtain ⟨mid, hm, hc⟩ := Option.bind_eq_some_iff.1 hb
      refine ⟨_, rfl, ?_⟩
      rw [eq_append_of_stripMark? hm, eq_append_of_cutAt? hc]
      simp
    · cases h
  · split at h
    · split at h
      · rename_i hc
        split at h
        · split at h
          · cases h
          · cases h
            refine ⟨_, rfl, ?_⟩
            rw [eq_append_of_cutDoctype? hc]
            simp [List.take_append_drop]
        · cases h
      · cases h
    · cases h
  · cases h

theorem exists_lexeme_of_scanInstruction {cs rest : List Char} {t : Token}
    (h : scanInstruction cs = .ok (t, rest)) :
    ∃ body, t.lexeme = '<' :: '?' :: body ∧ cs = body ++ rest := by
  unfold scanInstruction at h
  split at h
  · cases h
  · split at h
    · rename_i hc
      cases h
      exact ⟨_, rfl, by rw [eq_append_of_cutAt? hc, List.append_assoc]⟩
    · cases h

/-- What starts with `<` is a token from there on. -/
theorem exists_lexeme_of_scanMarked {cs rest : List Char} {t : Token}
    (h : scanMarked cs = .ok (t, rest)) : ∃ body, t.lexeme = '<' :: body ∧ cs = body ++ rest := by
  unfold scanMarked at h
  split at h
  · obtain ⟨body, hl, hcs⟩ := exists_lexeme_of_scanDeclaration h
    exact ⟨_, hl, by rw [hcs, List.cons_append]⟩
  · obtain ⟨body, hl, hcs⟩ := exists_lexeme_of_scanInstruction h
    exact ⟨_, hl, by rw [hcs, List.cons_append]⟩
  · split at h
    · rename_i hc
      cases h
      refine ⟨_, rfl, ?_⟩
      rw [eq_append_of_cutTag? hc]
      simp
    · cases h
  · split at h
    · rename_i hc
      cases h
      refine ⟨_, lexeme_ofTagContent _, ?_⟩
      rw [eq_append_of_cutTag? hc]
      simp
    · cases h

/-- A token is followed by what is left. -/
theorem eq_append_of_scan {cs rest : List Char} {t : Token} (h : scan cs = .ok (t, rest)) :
    cs = t.lexeme ++ rest := by
  unfold scan at h
  split at h
  · obtain ⟨body, hl, hcs⟩ := exists_lexeme_of_scanMarked h
    rw [hl, hcs, List.cons_append]
  · cases h
    exact (List.takeWhile_append_dropWhile).symm

theorem lexeme_scan_ne_nil {cs rest : List Char} {t : Token} (hne : cs ≠ [])
    (h : scan cs = .ok (t, rest)) : t.lexeme ≠ [] := by
  unfold scan at h
  split at h
  · obtain ⟨body, hl, -⟩ := exists_lexeme_of_scanMarked h
    rw [hl]
    exact List.cons_ne_nil _ _
  · rename_i hx
    cases h
    cases cs with
    | nil => exact absurd rfl hne
    | cons c cs =>
      have hc : c ≠ '<' := fun e => hx cs (by rw [e])
      simp [lexeme, hc]

theorem length_rest_lt {cs rest : List Char} {t : Token} (hne : cs ≠ [])
    (h : scan cs = .ok (t, rest)) : rest.length < cs.length := by
  have h1 := congrArg List.length (eq_append_of_scan h)
  have h2 := List.length_pos_iff.2 (lexeme_scan_ne_nil hne h)
  rw [List.length_append] at h1
  omega

end Token

end SvgComponent.Markup
