import SvgComponent.Proofs.Markup.Assembly
import SvgComponent.Proofs.Markup.Lexing

/-!
# Reading a document

`parse_eq_ok_iff` splits the reading of a document into the cutting of its text and a run of
the builder. `parse_spells` is the law of reading : a text is a document if and only if its
tokens have no fault, are sound and nested; the document has then the events of its tokens,
which leaves no other choice for it, and no text of it stands next to another.
-/

namespace SvgComponent.Markup

open Text

/-! ## A document and its tokens -/

/-- The tokens of a text, up to the end or the first fault. -/
def tokensOf (source : List Char) : List Token :=
  (lex source).tokens.map Prod.snd

/-- A document is read if its tokens are, and no element is open behind them. -/
theorem parse_eq_ok_iff {source : List Char} {document : Document} :
    parse source = .ok document ↔
      ∃ tokens b, Lexes 0 (dropMark source) tokens ∧ ({} : Builder).run tokens = .ok b ∧
        b.opened = [] ∧ b.finished.reverse = document := by
  simp only [parse, lex, bind, Except.bind, lexes_iff]
  constructor
  · intro h
    split at h
    · cases h
    · rename_i b hb
      split at h
      · cases h
      · rename_i hf
        split at h
        · cases h
        · rename_i ho
          cases h
          exact ⟨_, b, by rw [← hf], hb, ho, rfl⟩
  · rintro ⟨tokens, b, hl, hb, ho, rfl⟩
    simp only [hl, hb, ho]
    rfl

theorem dropMark_of_head? {source : List Char} (h : source.head? ≠ some byteOrderMark) :
    dropMark source = source := by
  cases source with
  | nil => rfl
  | cons c cs => exact if_neg fun hc => h (by rw [hc, List.head?_cons])

/-! ## Neighbouring texts -/

/-- Whether an event is a text. -/
def Event.IsText : Event → Prop
  | text _ => True
  | _ => False

/-- Whether a node is a text. -/
def IsTextNode : Node → Prop
  | .text .. => True
  | _ => False

mutual

/-- No two texts in a node stand next to each other. -/
def TextsApart : Node → Prop
  | .element _ _ children => TextsApartAll children
  | _ => True

/-- No two texts among nodes, or in one of them, stand next to each other. -/
def TextsApartAll : List Node → Prop
  | [] => True
  | node :: rest =>
    TextsApart node ∧ (IsTextNode node → ∀ next ∈ rest.head?, ¬ IsTextNode next) ∧
      TextsApartAll rest

end

/-- No two texts follow each other. -/
def Event.Apart (events : List Event) : Prop :=
  events.IsChain fun a b => ¬ (a.IsText ∧ b.IsText)

/-- Only runs of text give texts. -/
theorem not_isText_of_mem_events {keeps : Bool} {token : Token} (h : ¬ token.IsText) :
    ∀ event ∈ token.events keeps, ¬ event.IsText := by
  cases token with
  | text raw => exact absurd trivial h
  | instruction content =>
    simp only [Token.events, Token.instructionEvent, List.mem_singleton, forall_eq]
    split <;> exact id
  | opening | empty | closing | comment | cdata | doctype =>
    simp [Token.events, Event.IsText]

theorem events_ne_nil {keeps : Bool} {token : Token} (h : ¬ token.IsText) :
    token.events keeps ≠ [] := by
  cases token with
  | text raw => exact absurd trivial h
  | opening | empty | closing | comment | cdata | doctype | instruction => simp [Token.events]

/-- A run of text gives one text or nothing. -/
theorem events_text (keeps : Bool) (raw : List Char) :
    (Token.text raw).events keeps = [] ∨
      ∃ value, (Token.text raw).events keeps = [.text value] := by
  cases keeps with
  | true => exact .inr ⟨_, rfl⟩
  | false =>
    by_cases h : trim (expanded raw) = []
    · exact .inl (by simp [Token.events, h])
    · exact .inr ⟨String.ofList (trim (expanded raw)), by simp [Token.events, h]⟩

/-- If no run of text follows another, no text does, and only a run of text starts with one. -/
theorem apart_ofTokens {tokens : List Token}
    (h : tokens.IsChain fun a b => ¬ (a.IsText ∧ b.IsText)) (opened : List String) :
    Event.Apart (Event.ofTokens opened tokens) ∧
      ∀ event ∈ (Event.ofTokens opened tokens).head?, event.IsText →
        ∃ token ∈ tokens.head?, token.IsText := by
  induction tokens generalizing opened with
  | nil => simp [Event.ofTokens, Event.Apart]
  | cons token rest ih =>
    rw [List.isChain_cons] at h
    obtain ⟨hnext, hrest⟩ := h
    obtain ⟨hapart, hhead⟩ := ih hrest (token.openedAfter opened)
    rw [Event.ofTokens]
    by_cases ht : token.IsText
    · refine ⟨?_, fun _ _ _ => ⟨token, rfl, ht⟩⟩
      cases token with
      | text raw =>
        rcases events_text (keepsBlanks opened) raw with he | ⟨value, he⟩
        · rwa [he, List.nil_append]
        · rw [he, List.singleton_append]
          refine List.IsChain.cons hapart fun event hm => ?_
          rintro ⟨-, hv⟩
          obtain ⟨next, hn, hnt⟩ := hhead event hm hv
          exact hnext next hn ⟨trivial, hnt⟩
      | opening | empty | closing | comment | cdata | doctype | instruction => exact ht.elim
    · have hev : ∀ event ∈ token.events (keepsBlanks opened), ¬ event.IsText :=
        not_isText_of_mem_events ht
      constructor
      · have hpair : (token.events (keepsBlanks opened)).Pairwise
            fun a b => ¬ (a.IsText ∧ b.IsText) :=
          List.pairwise_of_forall_mem_list fun a ha b _ hab => hev a ha hab.1
        exact List.isChain_append.2 ⟨hpair.isChain, hapart, fun a ha b _ hab =>
          hev a (List.mem_of_getLast? ha) hab.1⟩
      · intro event hm hv
        rw [List.head?_append_of_ne_nil _ (events_ne_nil ht)] at hm
        exact absurd hv (hev event (List.mem_of_head? hm))

mutual

/-- Texts that are apart among the events are apart in the node. -/
theorem textsApart_of_apart : (node : Node) → (rest : List Event) →
    Event.Apart (Event.ofNode node ++ rest) → TextsApart node
  | .element _ tag children, rest, h => by
    rw [Event.ofNode, List.cons_append, List.append_assoc] at h
    exact textsApartAll_of_apart children _ h.tail
  | .text .., _, _ | .cdata .., _, _ | .comment .., _, _ | .doctype .., _, _
  | .instruction .., _, _ => trivial

/-- Texts that do not follow each other in a walk do not stand next to each other. -/
theorem textsApartAll_of_apart : (nodes : List Node) → (rest : List Event) →
    Event.Apart (Event.ofNodes nodes ++ rest) → TextsApartAll nodes
  | [], _, _ => trivial
  | node :: nodes, rest, h => by
    rw [Event.ofNodes, List.append_assoc] at h
    refine ⟨textsApart_of_apart node _ h, ?_,
      textsApartAll_of_apart nodes rest (List.isChain_append.1 h).2.1⟩
    intro hn next hnext hnt
    cases nodes with
    | nil => simp at hnext
    | cons second others =>
      cases hnext
      cases node <;> cases hn
      cases next <;> cases hnt
      simp [Event.Apart, Event.ofNode, Event.ofNodes, Event.IsText] at h

end

/-! ## The law of reading -/

theorem lex_of_lexes {source : List Char} {tokens : List (Nat × Token)}
    (h : Lexes 0 (dropMark source) tokens) : lex source = ⟨tokens, none⟩ :=
  lexes_iff.1 h

/-- A document can be read exactly if all tokens can be cut off, are sound, and nest. -/
theorem exists_parse_iff {source : List Char} :
    (∃ document, parse source = .ok document) ↔
      (lex source).fault = none ∧ (∀ token ∈ tokensOf source, token.Sound) ∧
        Nested (tokensOf source) := by
  have hsound : (∀ token ∈ tokensOf source, token.Sound) ↔
      ∀ p ∈ (lex source).tokens, p.2.Sound := by
    rw [tokensOf, List.forall_mem_map]
  rw [nested_iff_closes, hsound]
  constructor
  · rintro ⟨document, h⟩
    obtain ⟨tokens, b, hl, hr, ho, -⟩ := parse_eq_ok_iff.1 h
    have hrun := Builder.exists_run_iff.1 ⟨b, hr, ho⟩
    rw [tokensOf, lex_of_lexes hl]
    exact ⟨rfl, hrun.1, hrun.2⟩
  · rintro ⟨hf, hs, hc⟩
    obtain ⟨b, hr, ho⟩ := (@Builder.exists_run_iff {} (lex source).tokens).2 ⟨hs, hc⟩
    have hl : Lexes 0 (dropMark source) (lex source).tokens := lexes_iff.2 (by rw [← hf]; rfl)
    exact ⟨_, parse_eq_ok_iff.2 ⟨_, b, hl, hr, ho, rfl⟩⟩

/-- A document has the events of its tokens. -/
theorem ofNodes_of_parse {source : List Char} {document : Document}
    (h : parse source = .ok document) :
    Event.ofNodes document = Event.ofTokens [] (tokensOf source) := by
  obtain ⟨tokens, b, hl, hr, ho, rfl⟩ := parse_eq_ok_iff.1 h
  have hw := Builder.walk_run hr
  rw [Builder.walk, ho] at hw
  rw [tokensOf, lex_of_lexes hl]
  exact hw

/-- No two texts of a document that is read stand side by side. -/
theorem textsApartAll_of_parse {source : List Char} {document : Document}
    (h : parse source = .ok document) : TextsApartAll document := by
  obtain ⟨tokens, b, hl, -⟩ := parse_eq_ok_iff.1 h
  have hchain : (tokensOf source).IsChain fun a b => ¬ (a.IsText ∧ b.IsText) := by
    rw [tokensOf, lex_of_lexes hl, List.isChain_map]
    exact hl.isChain
  have ha := (apart_ofTokens hchain []).1
  rw [← ofNodes_of_parse h] at ha
  exact textsApartAll_of_apart document [] (by rwa [List.append_nil])

/-- A text is a document exactly if its tokens are without fault, sound and nested. The tokens
are then the whole text; the document has the events of its tokens, so it is the only one that
has, apart from spans, and its texts stand apart. -/
theorem parse_spells (source : List Char) :
    ((∃ document, parse source = .ok document) ↔
      (lex source).fault = none ∧ (∀ token ∈ tokensOf source, token.Sound) ∧
        Nested (tokensOf source)) ∧
      ∀ document, parse source = .ok document →
        (tokensOf source).flatMap Token.lexeme = dropMark source ∧
          Event.ofNodes document = Event.ofTokens [] (tokensOf source) ∧
          (∀ other, Event.ofNodes other = Event.ofTokens [] (tokensOf source) →
            bareAll other = bareAll document) ∧
          TextsApartAll document := by
  refine ⟨exists_parse_iff, fun document h => ?_⟩
  have he := ofNodes_of_parse h
  obtain ⟨tokens, b, hl, -⟩ := parse_eq_ok_iff.1 h
  have hlexemes : (tokensOf source).flatMap Token.lexeme = dropMark source := by
    rw [tokensOf, lex_of_lexes hl, List.flatMap_map]
    exact hl.flatMap_lexeme
  exact ⟨hlexemes, he, fun other ho => bareAll_eq_of_ofNodes (ho.trans he.symm),
    textsApartAll_of_parse h⟩

/-- Blanks matter in a text element, an empty tag is closed by itself, and gaps may end a name. -/
theorem parse_spells_gaps :
    ∃ document, parse "<text><g a='&lt;'/> <g>b&amp;</g ></text> \n".toList = .ok document ∧
      Event.ofNodes document =
        Event.ofTokens [] (tokensOf "<text><g a='&lt;'/> <g>b&amp;</g ></text> \n".toList) := by
  have h : parse "<text><g a='&lt;'/> <g>b&amp;</g ></text> \n".toList =
      .ok [.element ⟨0, 41⟩ ⟨"text", .empty⟩
        [.element ⟨6, 19⟩ ⟨"g", .ofPairs [("a", "<")]⟩ [], .text ⟨19, 20⟩ " ",
          .element ⟨20, 34⟩ ⟨"g", .empty⟩ [.text ⟨23, 29⟩ "b&"]]] := by
    with_unfolding_all rfl
  exact ⟨_, h, ((parse_spells _).2 _ h).2.1⟩

end SvgComponent.Markup
