import SvgComponent.Proofs.Markup.Reading
import SvgComponent.Proofs.Markup.Whole

/-!
# Where reading fails

Reading goes from left to right and ends at the first token that does not fit. `Token.Fails` lists
what can be wrong with a token inside open elements (`Builder.step_eq_error_iff`), and `Admits`
says that nothing is wrong with some tokens. The text in front of a token has the tokens in front
of it (`lexes_of_lexFrom_append`), however the text goes on.

* `parse_eq_error_iff` : reading fails at a token, at a place where none can be cut off, or at
  the end of the text inside an open element.
* `fails_of_parse` : what is reported is the first thing that is wrong, and its place is where
  the token starts; the text in front of it alone can be read, up to elements that stay open.
* `parse_of_closing` : what is reported for a closing tag that does not fit.
-/

namespace SvgComponent.Markup

open Text

/-! ## What can be wrong with a token -/

/-- What is wrong with the attributes of a tag : the first reference in them that cannot be
expanded, or else what ends them. -/
inductive TagFails (content : List Char) : Fault → Prop
  | badReference {before after : List RawAttribute} {a : RawAttribute} {fault : ReferenceFault}
    (hr : (rawAttributes content).1 = before ++ a :: after)
    (hb : ∀ b ∈ before, ∃ value, Reference.expand b.value = .ok value)
    (ha : Reference.expand a.value = .error fault) : TagFails content (.badReference fault)
  | badAttribute {fault : AttributeFault}
    (hv : ∀ a ∈ (rawAttributes content).1, ∃ value, Reference.expand a.value = .ok value)
    (hf : (rawAttributes content).2 = some fault) : TagFails content (.badAttribute fault)

/-- What is wrong with a token inside open elements of these names. -/
inductive Token.Fails : List String → Token → Fault → Prop
  | text {opened : List String} {raw : List Char} {fault : ReferenceFault}
    (h : Reference.expand raw = .error fault) : Fails opened (.text raw) (.badReference fault)
  | opening {opened : List String} {content : List Char} {fault : Fault}
    (h : TagFails content fault) : Fails opened (.opening content) fault
  | empty {opened : List String} {content : List Char} {fault : Fault}
    (h : TagFails content fault) : Fails opened (.empty content) fault
  | stray {content : List Char} : Fails [] (.closing content) (.strayClosing (endName content))
  | mismatched {content : List Char} {name : String} {outer : List String}
    (h : name ≠ endName content) :
    Fails (name :: outer) (.closing content) (.mismatchedClosing (endName content))

/-- Whether a fault is one of a token. -/
def Fault.IsOfToken : Fault → Prop
  | .badToken _ | .unclosed _ => False
  | _ => True

theorem Token.Fails.isOfToken {opened : List String} {token : Token} {fault : Fault}
    (h : token.Fails opened fault) : fault.IsOfToken := by
  cases h with
  | opening ht | empty ht => cases ht <;> trivial
  | text | stray | mismatched => trivial

/-- Expanding attributes fails at the first value that cannot be expanded. -/
theorem expandAttributes_eq_error_iff {raw : List RawAttribute} {attributes : Attributes}
    {fault : Fault} :
    expandAttributes attributes raw = .error fault ↔
      ∃ before a after wrong, raw = before ++ a :: after ∧
        (∀ b ∈ before, ∃ value, Reference.expand b.value = .ok value) ∧
        Reference.expand a.value = .error wrong ∧ fault = .badReference wrong := by
  induction raw generalizing attributes with
  | nil => simp [expandAttributes]
  | cons a raw ih =>
    rw [expandAttributes]
    cases ha : Reference.expand a.value with
    | error wrong =>
      constructor
      · intro h
        cases h
        exact ⟨[], a, raw, wrong, rfl, by simp, ha, rfl⟩
      · rintro ⟨before, b, after, other, hr, hb, hw, rfl⟩
        cases before with
        | nil =>
          cases hr
          rw [ha] at hw
          cases hw
          rfl
        | cons first before =>
          cases hr
          obtain ⟨value, hv⟩ := hb a List.mem_cons_self
          rw [ha] at hv
          cases hv
    | ok value =>
      rw [ih]
      constructor
      · rintro ⟨before, b, after, wrong, rfl, hb, hw⟩
        exact ⟨a :: before, b, after, wrong, rfl, List.forall_mem_cons.2 ⟨⟨value, ha⟩, hb⟩, hw⟩
      · rintro ⟨before, b, after, wrong, hr, hb, hw, hf⟩
        cases before with
        | nil =>
          cases hr
          rw [ha] at hw
          cases hw
        | cons first before =>
          cases hr
          exact ⟨before, b, after, wrong, rfl, (List.forall_mem_cons.1 hb).2, hw, hf⟩

/-- A tag fails exactly as is told by its attributes. -/
theorem readTag_eq_error_iff {content : List Char} {fault : Fault} :
    readTag content = .error fault ↔ TagFails content fault := by
  rw [readTag_eq]
  cases he : expandAttributes .empty (rawAttributes content).1 with
  | error wrong =>
    obtain ⟨before, a, after, reference, hr, hb, ha, rfl⟩ := expandAttributes_eq_error_iff.1 he
    constructor
    · intro h
      cases h
      exact .badReference hr hb ha
    · intro h
      cases h with
      | badReference hr' hb' ha' =>
        rw [expandAttributes_eq_error_iff.2 ⟨_, _, _, _, hr', hb', ha', rfl⟩] at he
        cases he
        rfl
      | badAttribute hv =>
        obtain ⟨value, hvalue⟩ := hv a (by rw [hr]; simp)
        rw [ha] at hvalue
        cases hvalue
  | ok attributes =>
    have hv : ∀ a ∈ (rawAttributes content).1, ∃ value, Reference.expand a.value = .ok value :=
      ((expandAttributes_eq_ok_iff (nodup_keys_rawAttributes content)
        (by simp [OrderedMap.empty])).1 he).1
    constructor
    · intro h
      rw [Except.bind] at h
      split at h
      · rename_i wrong hf
        cases h
        exact .badAttribute hv hf
      · cases h
    · intro h
      cases h with
      | badReference hr hb ha =>
        rw [expandAttributes_eq_error_iff.2 ⟨_, _, _, _, hr, hb, ha, rfl⟩] at he
        cases he
      | badAttribute _ hf => rw [Except.bind, hf]

/-- A builder refuses a token for what is wrong with it. -/
theorem Builder.step_eq_error_iff {b : Builder} {start : Nat} {token : Token} {fault : Fault} :
    b.step start token = .error fault ↔ token.Fails b.names fault := by
  constructor
  · intro h
    cases token with
    | text raw =>
      simp only [step, textValue?, bind, Except.bind, pure, Except.pure] at h
      cases hv : Reference.expand raw with
      | error wrong =>
        rw [hv] at h
        cases h
        exact .text hv
      | ok value =>
        simp only [hv] at h
        split at h
        · rename_i hvalue
          split at hvalue
          · cases hvalue
          · split at hvalue <;> cases hvalue
        · split at h <;> cases h
    | opening content =>
      simp only [step, bind, Except.bind] at h
      cases ht : readTag content with
      | error wrong =>
        rw [ht] at h
        cases h
        exact .opening (readTag_eq_error_iff.1 ht)
      | ok tag =>
        rw [ht] at h
        cases h
    | empty content =>
      simp only [step, bind, Except.bind] at h
      cases ht : readTag content with
      | error wrong =>
        rw [ht] at h
        cases h
        exact .empty (readTag_eq_error_iff.1 ht)
      | ok tag =>
        rw [ht] at h
        cases h
    | closing content =>
      simp only [step, close] at h
      split at h
      · rename_i ho
        cases h
        rw [names, ho]
        exact .stray
      · rename_i frame outer ho
        split at h
        · cases h
        · rename_i hn
          cases h
          rw [names, ho]
          exact .mismatched hn
    | comment | cdata | doctype | instruction => cases h
  · intro h
    generalize ho : b.names = opened at h
    cases h with
    | text hv => simp [step, textValue?, hv, bind, Except.bind]
    | opening ht | empty ht =>
      simp [step, readTag_eq_error_iff.2 ht, bind, Except.bind]
    | stray =>
      rw [names, List.map_eq_nil_iff] at ho
      rw [step, close, ho]
      rfl
    | mismatched hn =>
      obtain ⟨frame, outer', hf, rfl, -⟩ := List.map_eq_cons_iff.1 ho
      rw [step, close, hf]
      exact if_neg hn

/-! ## Tokens that nothing is wrong with -/

/-- Tokens that can be read one after the other inside open elements of these names. -/
def Admits : List String → List Token → Prop
  | _, [] => True
  | opened, token :: rest =>
    (token.Sound ∧ Builder.Fits opened token) ∧ Admits (token.openedAfter opened) rest

/-- The elements that are open behind tokens, the innermost first. -/
def openedBehind (opened : List String) (tokens : List Token) : List String :=
  tokens.foldl (fun opened token => token.openedAfter opened) opened

namespace Builder

/-- Tokens are read one after the other. -/
theorem run_append (b : Builder) (front back : List (Nat × Token)) :
    b.run (front ++ back) = (b.run front).bind fun b => b.run back := by
  induction front generalizing b with
  | nil => rfl
  | cons p front ih =>
    rw [List.cons_append, run, run]
    cases b.step p.1 p.2 with
    | ok next => exact ih next
    | error fault => rfl

/-- Tokens can be read exactly if nothing is wrong with any of them. -/
theorem exists_run_eq_ok_iff {b : Builder} {tokens : List (Nat × Token)} :
    (∃ b', b.run tokens = .ok b') ↔ Admits b.names (tokens.map Prod.snd) := by
  induction tokens generalizing b with
  | nil => exact iff_of_true ⟨b, rfl⟩ trivial
  | cons p rest ih =>
    obtain ⟨start, token⟩ := p
    simp only [run_cons_eq_ok_iff, List.map_cons, Admits]
    constructor
    · rintro ⟨b', next, ht, hr⟩
      exact ⟨exists_takes_iff.1 ⟨next, ht⟩, ht.walk_eq.2 ▸ ih.1 ⟨b', hr⟩⟩
    · rintro ⟨ht, hr⟩
      obtain ⟨next, ht⟩ := exists_takes_iff.2 ht
      obtain ⟨b', hb⟩ := ih.2 (ht.walk_eq.2 ▸ hr)
      exact ⟨b', next, ht, hb⟩

/-- The elements that are open behind tokens can be told from the tokens. -/
theorem names_run {b b' : Builder} {tokens : List (Nat × Token)} (h : b.run tokens = .ok b') :
    b'.names = openedBehind b.names (tokens.map Prod.snd) := by
  induction tokens generalizing b with
  | nil =>
    cases h
    rfl
  | cons p rest ih =>
    obtain ⟨next, ht, hr⟩ := run_cons_eq_ok_iff.1 h
    rw [ih hr, ht.walk_eq.2]
    rfl

/-- A run stops at the first token that something is wrong with. -/
theorem run_eq_error_iff {b : Builder} {tokens : List (Nat × Token)} {error : ParseError} :
    b.run tokens = .error error ↔
      ∃ front token back, tokens = front ++ (error.offset, token) :: back ∧
        Admits b.names (front.map Prod.snd) ∧
        token.Fails (openedBehind b.names (front.map Prod.snd)) error.fault := by
  constructor
  · intro h
    induction tokens generalizing b with
    | nil => cases h
    | cons p rest ih =>
      obtain ⟨start, token⟩ := p
      rw [run] at h
      split at h
      · rename_i next hs
        have ht := step_eq_ok_iff.1 hs
        obtain ⟨front, token', back, rfl, ha, hf⟩ := ih h
        rw [ht.walk_eq.2] at ha hf
        exact ⟨(start, token) :: front, token', back, rfl,
          ⟨exists_takes_iff.1 ⟨next, ht⟩, ha⟩, hf⟩
      · rename_i fault hs
        cases h
        exact ⟨[], token, rest, rfl, trivial, step_eq_error_iff.1 hs⟩
  · rintro ⟨front, token, back, rfl, ha, hf⟩
    obtain ⟨next, hr⟩ := exists_run_eq_ok_iff.2 ha
    rw [← names_run hr] at hf
    rw [run_append, hr, Except.bind, run, step_eq_error_iff.2 hf]

end Builder

/-! ## Tokens in front of a place -/

/-- A run of text goes on up to the next tag. -/
theorem head?_rest_of_isText {cs rest : List Char} {token : Token}
    (h : Token.scan cs = .ok (token, rest)) (ht : token.IsText) : ∀ c ∈ rest.head?, c = '<' := by
  unfold Token.scan at h
  split at h
  · exact absurd ht (not_isText_of_scanMarked h)
  · cases h
    intro c hc
    have := List.head?_dropWhile_not (· ≠ '<') cs
    rw [hc] at this
    simpa using this

/-- The first token is cut off, and then those of what is left. -/
theorem exists_scan_of_lexFrom {pos start : Nat} {cs : List Char} {token : Token}
    {back : List (Nat × Token)} (h : (lexFrom pos cs).tokens = (start, token) :: back) :
    start = pos ∧ cs ≠ [] ∧ ∃ rest, Token.scan cs = .ok (token, rest) ∧
      (lexFrom (pos + width token.lexeme) rest).tokens = back := by
  by_cases hne : cs = []
  · rw [hne, lexFrom_nil] at h
    cases h
  · cases hs : Token.scan cs with
    | error fault =>
      rw [lexFrom_of_fault hne hs] at h
      cases h
    | ok scanned =>
      obtain ⟨token', rest⟩ := scanned
      rw [lexFrom_of_scan hne hs, List.cons.injEq, Prod.mk.injEq] at h
      obtain ⟨⟨rfl, rfl⟩, hb⟩ := h
      exact ⟨rfl, hne, rest, rfl, hb⟩

/-- The text in front of a place between tokens has the tokens in front of it, and from the
place on the other ones are cut off. -/
theorem lexes_of_lexFrom_append {pos : Nat} {cs : List Char} {front back : List (Nat × Token)}
    (h : (lexFrom pos cs).tokens = front ++ back) :
    ∃ rest, cs = front.flatMap (fun p => p.2.lexeme) ++ rest ∧
      Lexes pos (front.flatMap fun p => p.2.lexeme) front ∧
      (lexFrom (pos + width (front.flatMap fun p => p.2.lexeme)) rest).tokens = back := by
  induction front generalizing pos cs with
  | nil => exact ⟨cs, rfl, .nil, h⟩
  | cons p front ih =>
    obtain ⟨start, token⟩ := p
    obtain ⟨rfl, hne, rest, hs, hr⟩ := exists_scan_of_lexFrom h
    obtain ⟨after, rfl, hl, hb⟩ := ih hr
    have hwhole := Token.whole_of_scan hne hs
    -- a run of text ends where it did, as the lexemes behind it start with the same character
    have hhead : token.IsText →
        ∀ c ∈ (front.flatMap fun p => p.2.lexeme).head?, c = '<' := by
      intro ht c hc
      refine head?_rest_of_isText hs ht c ?_
      rw [List.head?_append_of_ne_nil _ (List.ne_nil_of_mem (List.mem_of_head? hc))]
      exact hc
    refine ⟨after, ?_, ?_, ?_⟩
    · rw [Token.eq_append_of_scan hs, List.flatMap_cons, List.append_assoc]
    · rw [List.flatMap_cons]
      exact .cons (List.append_ne_nil_of_left_ne_nil hwhole.ne_nil _)
        (hwhole.scan_append _ hhead) hl
    · rwa [List.flatMap_cons, width_append, ← Nat.add_assoc]

/-- A token of a text stands behind the lexemes of those in front of it. -/
theorem place_of_lexFrom {pos start : Nat} {cs : List Char} {token : Token}
    {front back : List (Nat × Token)}
    (h : (lexFrom pos cs).tokens = front ++ (start, token) :: back) :
    start = pos + width (front.flatMap fun p => p.2.lexeme) ∧
      ∃ after, cs = front.flatMap (fun p => p.2.lexeme) ++ (token.lexeme ++ after) := by
  obtain ⟨rest, rfl, -, hb⟩ := lexes_of_lexFrom_append h
  obtain ⟨rfl, -, after, hs, -⟩ := exists_scan_of_lexFrom hb
  exact ⟨rfl, after, by rw [Token.eq_append_of_scan hs]⟩

/-! ## Where a document fails -/

theorem flatMap_lexeme_map (tokens : List (Nat × Token)) :
    (tokens.map Prod.snd).flatMap Token.lexeme = tokens.flatMap fun p => p.2.lexeme := by
  rw [List.flatMap_map]

/-- Reading fails at the first token that something is wrong with, else where no token can be
cut off, else at the end of the text if an element is open there. -/
theorem parse_eq_error_iff {source : List Char} {error : ParseError} :
    parse source = .error error ↔
      (∃ front token back, (lex source).tokens = front ++ (error.offset, token) :: back ∧
        Admits [] (front.map Prod.snd) ∧
        token.Fails (openedBehind [] (front.map Prod.snd)) error.fault) ∨
      Admits [] (tokensOf source) ∧
        ((∃ fault offset, (lex source).fault = some (fault, offset) ∧
            error = ⟨.badToken fault, offset⟩) ∨
          (lex source).fault = none ∧ ∃ name ∈ (openedBehind [] (tokensOf source)).head?,
            error = ⟨.unclosed name, width source⟩) := by
  have hnames : Builder.names {} = [] := rfl
  have hrun := @Builder.run_eq_error_iff {} (lex source).tokens error
  have hok := @Builder.exists_run_eq_ok_iff {} (lex source).tokens
  rw [hnames] at hrun hok
  rw [← hrun, tokensOf, ← hok, parse]
  cases hb : ({} : Builder).run (lex source).tokens with
  | error wrong => simp [bind, Except.bind]
  | ok b =>
    rw [← hnames, ← Builder.names_run hb]
    simp only [bind, Except.bind, Builder.names]
    cases hf : (lex source).fault with
    | some wrong =>
      obtain ⟨fault, offset⟩ := wrong
      simp [eq_comm]
    | none =>
      cases ho : b.opened with
      | nil => simp [pure, Except.pure]
      | cons frame outer => simp [eq_comm]

/-- A text that nothing is wrong with, as far as it goes : at most, elements are open at its
end. -/
def IsBeginning (cs : List Char) : Prop :=
  (∃ document, parse cs = .ok document) ∨
    ∃ name offset, parse cs = .error ⟨.unclosed name, offset⟩

/-- A text of tokens that nothing is wrong with can be read, up to elements that stay open. -/
theorem isBeginning_of_lexes {cs : List Char} {tokens : List (Nat × Token)}
    (hl : Lexes 0 (dropMark cs) tokens) (ha : Admits [] (tokens.map Prod.snd)) :
    IsBeginning cs := by
  have hlex := lex_of_lexes hl
  obtain ⟨b, hb⟩ := (@Builder.exists_run_eq_ok_iff {} tokens).2 ha
  cases ho : b.opened with
  | nil => exact .inl ⟨_, parse_eq_ok_iff.2 ⟨tokens, b, hl, hb, ho, rfl⟩⟩
  | cons frame outer =>
    refine .inr ⟨frame.tag.name, width cs, parse_eq_error_iff.2 (.inr ⟨?_, .inr ⟨?_, ?_⟩⟩)⟩
    · rwa [tokensOf, hlex]
    · rw [hlex]
    · have hnames : openedBehind [] (tokens.map Prod.snd) = frame.tag.name :: _ :=
        (Builder.names_run hb).symm.trans (by rw [Builder.names, ho, List.map_cons])
      exact ⟨frame.tag.name, by rw [tokensOf, hlex, hnames]; rfl, rfl⟩

/-- A fault of a token is reported where that token starts : nothing is wrong in front of it, and
the text in front of it is a beginning by itself. An element is reported as unclosed at the end
of a text that nothing else is wrong with, and is the innermost one that is open there. -/
theorem fails_of_parse {source : List Char} {fault : Fault} {offset : Nat}
    (hm : source.head? ≠ some byteOrderMark) (h : parse source = .error ⟨fault, offset⟩) :
    (fault.IsOfToken → ∃ front token back after,
      tokensOf source = front ++ token :: back ∧
      source = front.flatMap Token.lexeme ++ (token.lexeme ++ after) ∧
      width (front.flatMap Token.lexeme) = offset ∧
      Admits [] front ∧ token.Fails (openedBehind [] front) fault ∧
      IsBeginning (front.flatMap Token.lexeme)) ∧
    ∀ name, fault = .unclosed name →
      offset = width source ∧ (lex source).fault = none ∧ Admits [] (tokensOf source) ∧
        (openedBehind [] (tokensOf source)).head? = some name := by
  have hdrop : dropMark source = source := dropMark_of_head? hm
  rcases parse_eq_error_iff.1 h with ⟨front, token, back, ht, ha, hf⟩ | ⟨ha, hfault⟩
  · refine ⟨fun _ => ?_, fun name hname => ?_⟩
    · have hcut := ht
      rw [lex, hdrop] at hcut
      obtain ⟨hoffset, after, hsource⟩ := place_of_lexFrom hcut
      obtain ⟨-, -, hl, -⟩ := lexes_of_lexFrom_append hcut
      refine ⟨front.map Prod.snd, token, back.map Prod.snd, after, ?_, ?_, ?_, ha, hf, ?_⟩
      · rw [tokensOf, ht, List.map_append, List.map_cons]
      · rwa [flatMap_lexeme_map]
      · rw [flatMap_lexeme_map]
        exact (hoffset.trans (Nat.zero_add _)).symm
      · rw [flatMap_lexeme_map]
        refine isBeginning_of_lexes ?_ ha
        rw [dropMark_of_head?]
        · exact hl
        · intro hhead
          refine hm ?_
          rw [hsource, List.head?_append, hhead]
          rfl
    · rw [hname] at hf
      exact hf.isOfToken.elim
  · rcases hfault with ⟨wrong, place, -, he⟩ | ⟨hn, name, hname, he⟩
    · cases he
      refine ⟨fun hfalse => hfalse.elim, fun name hname => ?_⟩
      cases hname
    · cases he
      refine ⟨fun hfalse => hfalse.elim, fun other hother => ?_⟩
      cases hother
      exact ⟨rfl, hn, ha, hname⟩

/-- A reference in an attribute is wrong, behind a text with another and an element that is open. -/
theorem fails_of_parse_reference :
    parse "<g>ü &lt;<a b='1' c='&x;'/></g>".toList =
        .error ⟨.badReference (.unknownName 1 2 "x"), 10⟩ ∧
      ∃ before after, "<g>ü &lt;<a b='1' c='&x;'/></g>".toList = before ++ after ∧
        width before = 10 ∧ IsBeginning before := by
  have h : parse "<g>ü &lt;<a b='1' c='&x;'/></g>".toList =
      .error ⟨.badReference (.unknownName 1 2 "x"), 10⟩ := by
    with_unfolding_all rfl
  obtain ⟨front, token, back, after, -, hs, hw, -, -, hb⟩ :=
    (fails_of_parse (by decide) h).1 trivial
  exact ⟨h, _, _, hs, hw, hb⟩

/-! ## Closing tags that do not fit -/

/-- A closing tag that does not end the innermost open element, where nothing is wrong in front
of it, is reported with the name in it and where it starts : as one that ends another element
if there is one to end, and else as one that ends none. -/
theorem parse_of_closing {source content : List Char} {front back : List Token}
    (ht : tokensOf source = front ++ .closing content :: back) (ha : Admits [] front)
    (hn : (openedBehind [] front).head? ≠ some (Token.endName content)) :
    (∃ after, dropMark source =
      front.flatMap Token.lexeme ++ (('<' :: '/' :: content ++ ['>']) ++ after)) ∧
    parse source = .error
      ⟨if openedBehind [] front = [] then .strayClosing (Token.endName content)
        else .mismatchedClosing (Token.endName content), width (front.flatMap Token.lexeme)⟩ := by
  obtain ⟨front', rest, hlex, rfl, hrest⟩ := List.map_eq_append_iff.1 ht
  obtain ⟨⟨start, token⟩, back', rfl, rfl, -⟩ := List.map_eq_cons_iff.1 hrest
  obtain ⟨hstart, after, hsource⟩ := place_of_lexFrom hlex
  rw [← flatMap_lexeme_map] at hstart hsource
  refine ⟨⟨after, hsource⟩, parse_eq_error_iff.2 (.inl
    ⟨front', .closing content, back', ?_, ha, ?_⟩)⟩
  · rw [hlex, hstart, Nat.zero_add]
  · dsimp only
    cases ho : openedBehind [] (front'.map Prod.snd) with
    | nil =>
      rw [if_pos rfl]
      exact .stray
    | cons name outer =>
      rw [ho, List.head?_cons, ne_eq, Option.some.injEq] at hn
      rw [if_neg (List.cons_ne_nil _ _)]
      exact .mismatched hn

/-- A closing tag with a gap in it, behind a text and an empty tag. -/
theorem parse_of_closing_gap :
    Admits [] [.opening ['a'], .text ['ü'], .empty ['b']] ∧
      parse "<a>ü<b/></c ></a>".toList = .error ⟨.mismatchedClosing "c", 9⟩ := by
  have hsound : ∀ c, rawAttributes [c] = ([], none) → Token.SoundTag [c] := by
    intro c hc
    rw [Token.SoundTag, hc]
    exact ⟨rfl, by simp⟩
  have ha : Admits [] [.opening ['a'], .text ['ü'], .empty ['b']] :=
    ⟨⟨hsound 'a' (by with_unfolding_all rfl), trivial⟩,
      ⟨⟨['ü'], Reference.expand_of_no_ampersand (by decide)⟩, trivial⟩,
      ⟨hsound 'b' (by with_unfolding_all rfl), trivial⟩, trivial⟩
  have ht : tokensOf "<a>ü<b/></c ></a>".toList =
      [.opening ['a'], .text ['ü'], .empty ['b']] ++
        .closing ['c', ' '] :: [.closing ['a']] := by
    with_unfolding_all rfl
  exact ⟨ha, (parse_of_closing ht ha (by decide)).2⟩

/-- Where no element is open, a closing tag is not reported as one that ends another element. -/
theorem not_forall_mismatchedClosing :
    ¬ ∀ (source content : List Char) (front back : List Token),
      tokensOf source = front ++ .closing content :: back → Admits [] front →
      (openedBehind [] front).head? ≠ some (Token.endName content) →
      parse source = .error
        ⟨.mismatchedClosing (Token.endName content), width (front.flatMap Token.lexeme)⟩ := by
  intro h
  have ht : tokensOf "</a>".toList = [] ++ .closing ['a'] :: [] := by with_unfolding_all rfl
  have hp : parse "</a>".toList = .error ⟨.strayClosing "a", 0⟩ := by with_unfolding_all rfl
  have hclaim := h "</a>".toList ['a'] [] [] ht trivial (by simp [openedBehind])
  rw [hp] at hclaim
  cases hclaim

end SvgComponent.Markup
