import SvgComponent.Proofs.Markup.Tag

/-!
# Assembling a document

`Builder.Takes` lists what a builder can do with a token, `Builder.step_eq_ok_iff` says that it
does nothing else. From it follow the two facts that everything else rests on : a step adds the
events of its token to those of the builder (`Builder.Takes.walk_eq`), and a step is possible
exactly if the token is sound and fits the open elements (`Builder.exists_takes_iff`).

What they say of a whole run is that the events of all tokens are added (`Builder.walk_run`),
and that it goes through on sound tokens that close what they open (`Builder.exists_run_iff`),
which is to say nested ones (`nested_iff_closes`).
-/

namespace SvgComponent.Markup

open Text

namespace Builder

/-! ## One step -/

/-- The range of a token. -/
def spanOf (start : Nat) (token : Token) : Span :=
  ⟨start, start + width token.lexeme⟩

/-- The builder with one more open element. -/
def openElement (b : Builder) (start : Nat) (tag : Tag) : Builder :=
  { b with opened := ⟨start, tag, []⟩ :: b.opened }

/-- What a builder becomes by a token that starts at a byte. -/
inductive Takes (b : Builder) (start : Nat) : Token → Builder → Prop
  | blank {raw value : List Char} (hv : Reference.expand raw = .ok value)
    (hk : b.keepsBlanks = false) (ht : trim value = []) : Takes b start (.text raw) b
  | trimmed {raw value : List Char} (hv : Reference.expand raw = .ok value)
    (hk : b.keepsBlanks = false) (ht : trim value ≠ []) :
    Takes b start (.text raw)
      (b.add (.text (spanOf start (.text raw)) (String.ofList (trim value))))
  | verbatim {raw value : List Char} (hv : Reference.expand raw = .ok value)
    (hk : b.keepsBlanks = true) :
    Takes b start (.text raw) (b.add (.text (spanOf start (.text raw)) (String.ofList value)))
  | opening {content : List Char} {tag : Tag} (ht : readTag content = .ok tag) :
    Takes b start (.opening content) (b.openElement start tag)
  | empty {content : List Char} {tag : Tag} (ht : readTag content = .ok tag) :
    Takes b start (.empty content) (b.add (.element (spanOf start (.empty content)) tag []))
  | closing {content : List Char} {frame : Frame} {outer : List Frame}
    (ho : b.opened = frame :: outer) (hn : frame.tag.name = Token.endName content) :
    Takes b start (.closing content) (({ b with opened := outer } : Builder).add
      (.element ⟨frame.start, start + width (Token.closing content).lexeme⟩ frame.tag
        frame.children.reverse))
  | comment {content : List Char} :
    Takes b start (.comment content)
      (b.add (.comment (spanOf start (.comment content)) (String.ofList (trim content))))
  | cdata {content : List Char} :
    Takes b start (.cdata content)
      (b.add (.cdata (spanOf start (.cdata content)) (String.ofList content)))
  | doctype {keyword content : List Char} :
    Takes b start (.doctype keyword content)
      (b.add (.doctype (spanOf start (.doctype keyword content)) (String.ofList (trim content))))
  | instruction {content : List Char} :
    Takes b start (.instruction content)
      (b.add (instructionNode (spanOf start (.instruction content)) content))

/-- A step that succeeds is one of those that can be taken. -/
theorem takes_of_step {b b' : Builder} {start : Nat} {token : Token}
    (h : b.step start token = .ok b') : Takes b start token b' := by
  cases token with
  | text raw =>
    simp only [step, textValue?, bind, Except.bind, pure, Except.pure] at h
    cases hv : Reference.expand raw with
    | error fault => simp [hv] at h
    | ok value =>
      simp only [hv] at h
      cases hk : b.keepsBlanks with
      | true =>
        simp only [hk, if_true, Except.ok.injEq] at h
        exact h ▸ .verbatim hv hk
      | false =>
        cases ht : trim value with
        | nil =>
          simp only [hk, ht] at h
          cases h
          exact .blank hv hk ht
        | cons c cs =>
          simp only [hk, ht] at h
          cases h
          rw [← ht]
          exact .trimmed hv hk (by rw [ht]; simp)
  | opening content =>
    simp only [step, bind, Except.bind] at h
    cases ht : readTag content with
    | error fault => simp [ht] at h
    | ok tag =>
      rw [ht] at h
      cases h
      exact .opening ht
  | empty content =>
    simp only [step, bind, Except.bind] at h
    cases ht : readTag content with
    | error fault => simp [ht] at h
    | ok tag =>
      rw [ht] at h
      cases h
      exact .empty ht
  | closing content =>
    simp only [step, close] at h
    split at h
    · cases h
    · rename_i frame outer ho
      split at h
      · rename_i hn
        cases h
        exact .closing ho hn
      · cases h
  | comment | cdata | doctype | instruction =>
    cases h
    constructor

/-- A step that can be taken succeeds. -/
theorem step_of_takes {b b' : Builder} {start : Nat} {token : Token}
    (h : Takes b start token b') : b.step start token = .ok b' := by
  cases h with
  | blank hv hk ht => simp [step, textValue?, hv, hk, ht, bind, Except.bind, pure, Except.pure]
  | trimmed hv hk ht =>
    simp [step, textValue?, hv, hk, ht, bind, Except.bind, pure, Except.pure, spanOf]
  | verbatim hv hk =>
    simp [step, textValue?, hv, hk, bind, Except.bind, pure, Except.pure, spanOf]
  | opening ht => simp [step, ht, bind, Except.bind, pure, Except.pure, openElement]
  | empty ht => simp [step, ht, bind, Except.bind, pure, Except.pure, spanOf]
  | closing ho hn =>
    rw [step, close, ho]
    exact if_pos hn
  | comment | cdata | doctype | instruction => rfl

/-- A builder takes a token as the list of its steps says, and not otherwise. -/
theorem step_eq_ok_iff {b b' : Builder} {start : Nat} {token : Token} :
    b.step start token = .ok b' ↔ Takes b start token b' :=
  ⟨takes_of_step, step_of_takes⟩

/-! ## What a builder has read -/

/-- The names of the open elements, the innermost first. -/
def names (b : Builder) : List String :=
  b.opened.map fun frame => frame.tag.name

/-- The events of finished nodes and of the open elements behind them. -/
def walkOpened (finished : List Node) : List Frame → List Event
  | [] => Event.ofNodes finished.reverse
  | frame :: outer =>
    walkOpened finished outer ++
      .start frame.tag.name frame.tag.attributes.entries :: Event.ofNodes frame.children.reverse

/-- The events that a builder has read so far. -/
def walk (b : Builder) : List Event :=
  walkOpened b.finished b.opened

theorem keepsBlanks_eq (b : Builder) : b.keepsBlanks = Markup.keepsBlanks b.names := by
  simp [keepsBlanks, Markup.keepsBlanks, names, List.any_map, Function.comp_def]

/-- A node that is added opens no element. -/
@[simp] theorem names_add (b : Builder) (node : Node) : (b.add node).names = b.names := by
  unfold add
  split
  · rename_i frame outer ho
    simp [names, ho]
  · rfl

/-- A node that is added comes last. -/
@[simp] theorem walk_add (b : Builder) (node : Node) :
    (b.add node).walk = b.walk ++ Event.ofNode node := by
  unfold add
  split
  · rename_i frame outer ho
    simp [walk, ho, walkOpened, Event.ofNodes]
  · rename_i ho
    simp [walk, ho, walkOpened, Event.ofNodes]

theorem ofNode_instructionNode (span : Span) (content : List Char) :
    Event.ofNode (instructionNode span content) = [Token.instructionEvent content] := by
  unfold instructionNode Token.instructionEvent
  split <;> rfl

/-- A token adds its events, and opens or closes what it says. -/
theorem Takes.walk_eq {b b' : Builder} {start : Nat} {token : Token} (h : Takes b start token b') :
    b'.walk = b.walk ++ token.events (Markup.keepsBlanks b.names) ∧
      b'.names = token.openedAfter b.names := by
  rw [← keepsBlanks_eq]
  cases h with
  | blank hv hk ht => simp [Token.events, Token.openedAfter, expanded_of_expand hv, hk, ht]
  | trimmed hv hk ht =>
    simp [Token.events, Token.openedAfter, expanded_of_expand hv, hk, ht, Event.ofNode]
  | verbatim hv hk =>
    simp [Token.events, Token.openedAfter, expanded_of_expand hv, hk, Event.ofNode]
  | opening ht =>
    obtain ⟨-, hn, he⟩ := readTag_eq_ok_iff.1 ht
    simp [walk, walkOpened, openElement, names, Token.events, Token.openedAfter, hn, he,
      Event.ofNodes]
  | empty ht =>
    obtain ⟨-, hn, he⟩ := readTag_eq_ok_iff.1 ht
    simp [Token.events, Token.openedAfter, hn, he, Event.ofNode, Event.ofNodes]
  | closing ho hn =>
    rw [walk_add, names_add]
    simp [walk, ho, walkOpened, names, Token.events, Token.openedAfter, hn, Event.ofNode]
  | comment | cdata | doctype => simp [Token.events, Token.openedAfter, Event.ofNode]
  | instruction => simp [Token.events, Token.openedAfter, ofNode_instructionNode]

/-- Whether a token can come inside these open elements : a closing tag has to end the
innermost one. -/
def Fits (opened : List String) : Token → Prop
  | .closing content => opened.head? = some (Token.endName content)
  | _ => True

/-- A builder takes exactly the sound tokens that fit the open elements. -/
theorem exists_takes_iff {b : Builder} {start : Nat} {token : Token} :
    (∃ b', Takes b start token b') ↔ token.Sound ∧ Fits b.names token := by
  constructor
  · rintro ⟨b', h⟩
    cases h with
    | blank hv | trimmed hv | verbatim hv => exact ⟨⟨_, hv⟩, trivial⟩
    | opening ht | empty ht => exact ⟨exists_readTag_iff.1 ⟨_, ht⟩, trivial⟩
    | closing ho hn => exact ⟨trivial, by simp [Fits, names, ho, hn]⟩
    | comment | cdata | doctype | instruction => exact ⟨trivial, trivial⟩
  · rintro ⟨hs, hf⟩
    cases token with
    | text raw =>
      obtain ⟨value, hv⟩ := hs
      cases hk : b.keepsBlanks with
      | true => exact ⟨_, .verbatim hv hk⟩
      | false =>
        by_cases ht : trim value = []
        · exact ⟨_, .blank hv hk ht⟩
        · exact ⟨_, .trimmed hv hk ht⟩
    | opening content =>
      obtain ⟨tag, ht⟩ := exists_readTag_iff.2 hs
      exact ⟨_, .opening ht⟩
    | empty content =>
      obtain ⟨tag, ht⟩ := exists_readTag_iff.2 hs
      exact ⟨_, .empty ht⟩
    | closing content =>
      cases ho : b.opened with
      | nil => simp [Fits, names, ho] at hf
      | cons frame outer =>
        simp only [Fits, names, ho, List.map_cons, List.head?_cons, Option.some.injEq] at hf
        exact ⟨_, .closing ho hf⟩
    | comment content => exact ⟨_, .comment⟩
    | cdata content => exact ⟨_, .cdata⟩
    | doctype keyword content => exact ⟨_, .doctype⟩
    | instruction content => exact ⟨_, .instruction⟩

/-! ## A whole run -/

/-- A run goes on from what its first step leaves. -/
theorem run_cons_eq_ok_iff {b b' : Builder} {start : Nat} {token : Token}
    {rest : List (Nat × Token)} :
    b.run ((start, token) :: rest) = .ok b' ↔
      ∃ next, Takes b start token next ∧ next.run rest = .ok b' := by
  rw [run]
  constructor
  · intro h
    cases hs : b.step start token with
    | error fault => simp [hs] at h
    | ok next => exact ⟨next, step_eq_ok_iff.1 hs, by simpa [hs] using h⟩
  · rintro ⟨next, hs, h⟩
    rw [step_eq_ok_iff.2 hs]
    exact h

/-- A run adds the events of its tokens. -/
theorem walk_run {b b' : Builder} {tokens : List (Nat × Token)} (h : b.run tokens = .ok b') :
    b'.walk = b.walk ++ Event.ofTokens b.names (tokens.map Prod.snd) := by
  induction tokens generalizing b with
  | nil =>
    cases h
    simp [Event.ofTokens]
  | cons p rest ih =>
    obtain ⟨next, hs, hr⟩ := run_cons_eq_ok_iff.1 h
    obtain ⟨hw, hn⟩ := hs.walk_eq
    rw [ih hr, hw, hn, List.map_cons, Event.ofTokens, List.append_assoc]

/-- Whether tokens close all open elements of these names, and all that they open themselves. -/
def Closes : List String → List Token → Prop
  | opened, [] => opened = []
  | opened, token :: rest => Fits opened token ∧ Closes (token.openedAfter opened) rest

/-- A run goes through, with nothing left open, exactly on sound tokens that close what is
open. -/
theorem exists_run_iff {b : Builder} {tokens : List (Nat × Token)} :
    (∃ b', b.run tokens = .ok b' ∧ b'.opened = []) ↔
      (∀ p ∈ tokens, p.2.Sound) ∧ Closes b.names (tokens.map Prod.snd) := by
  induction tokens generalizing b with
  | nil => simp [run, Closes, names]
  | cons p rest ih =>
    obtain ⟨start, token⟩ := p
    simp only [run_cons_eq_ok_iff, List.mem_cons, forall_eq_or_imp, List.map_cons, Closes]
    constructor
    · rintro ⟨b', ⟨next, hs, hr⟩, ho⟩
      obtain ⟨hsound, hfits⟩ := exists_takes_iff.1 ⟨next, hs⟩
      obtain ⟨hrest, hclose⟩ := ih.1 ⟨b', hr, ho⟩
      exact ⟨⟨hsound, hrest⟩, hfits, hs.walk_eq.2 ▸ hclose⟩
    · rintro ⟨⟨hsound, hrest⟩, hfits, hclose⟩
      obtain ⟨next, hs⟩ := exists_takes_iff.2 ⟨hsound, hfits⟩
      obtain ⟨b', hr, ho⟩ := ih.2 ⟨hrest, hs.walk_eq.2 ▸ hclose⟩
      exact ⟨b', ⟨next, hs, hr⟩, ho⟩

end Builder

/-! ## Nesting -/

open Builder

/-- A leaf fits anywhere and opens nothing. -/
theorem fits_of_isLeaf {token : Token} (h : token.IsLeaf) (opened : List String) :
    Fits opened token ∧ token.openedAfter opened = opened := by
  cases token <;> simp_all [Token.IsLeaf, Fits, Token.openedAfter]

/-- Nested tokens leave the open elements as they are. -/
theorem closes_append_of_nested {tokens : List Token} (h : Nested tokens) {opened : List String}
    {rest : List Token} (hr : Closes opened rest) : Closes opened (tokens ++ rest) := by
  induction h generalizing opened rest with
  | nil => exact hr
  | leaf ht _ ih =>
    obtain ⟨hf, ho⟩ := fits_of_isLeaf ht opened
    exact ⟨hf, ho.symm ▸ ih hr⟩
  | @element start stop inner after hn _ _ ihi ihr =>
    have hstop : Closes (Token.tagName start :: opened) (.closing stop :: (after ++ rest)) :=
      ⟨by rw [Fits, hn, List.head?_cons], ihr hr⟩
    rw [List.cons_append, List.cons_append, List.append_assoc]
    exact ⟨trivial, ihi hstop⟩

/-- Tokens that close the open elements are nested tokens between the tags that do so. -/
def NestedUpTo : List String → List Token → Prop
  | [], tokens => Nested tokens
  | name :: outer, tokens => ∃ inner content rest, tokens = inner ++ .closing content :: rest ∧
      Nested inner ∧ Token.endName content = name ∧ NestedUpTo outer rest

/-- What may come in front of nested tokens may come in front of the first part of them. -/
theorem NestedUpTo.append {opened : List String} {tokens : List Token} (front : List Token)
    (hf : ∀ nested, Nested nested → Nested (front ++ nested)) (h : NestedUpTo opened tokens) :
    NestedUpTo opened (front ++ tokens) := by
  cases opened with
  | nil => exact hf tokens h
  | cons name outer =>
    obtain ⟨inner, content, rest, rfl, hi, hn, hr⟩ := h
    exact ⟨front ++ inner, content, rest, by rw [List.append_assoc], hf inner hi, hn, hr⟩

/-- Tokens that close all elements nest. -/
theorem nestedUpTo_of_closes {tokens : List Token} {opened : List String}
    (h : Closes opened tokens) : NestedUpTo opened tokens := by
  -- an opening tag is matched in the tokens behind it, which have one more element to close
  induction tokens generalizing opened with
  | nil =>
    cases h
    exact .nil
  | cons token rest ih =>
    obtain ⟨hf, hc⟩ := h
    have hrest := ih hc
    cases token with
    | opening start =>
      obtain ⟨inner, stop, after, rfl, hi, hn, hr⟩ := hrest
      have hfront : ∀ nested, Nested nested →
          Nested ((.opening start :: inner ++ [.closing stop]) ++ nested) := by
        intro nested hnested
        rw [List.append_assoc, List.singleton_append]
        exact .element hn.symm hi hnested
      simpa using hr.append _ hfront
    | closing stop =>
      cases opened with
      | nil => simp [Fits] at hf
      | cons name outer =>
        simp only [Fits, List.head?_cons, Option.some.injEq] at hf
        exact ⟨[], stop, rest, rfl, .nil, hf.symm, hrest⟩
    | text | empty | comment | cdata | doctype | instruction =>
      refine hrest.append [_] fun nested hn => ?_
      exact .leaf (by trivial) hn

/-- Nested tokens are those that close all they open. -/
theorem nested_iff_closes {tokens : List Token} : Nested tokens ↔ Closes [] tokens := by
  refine ⟨fun h => ?_, nestedUpTo_of_closes⟩
  have hc := @closes_append_of_nested tokens h [] [] rfl
  rwa [List.append_nil] at hc

end SvgComponent.Markup
