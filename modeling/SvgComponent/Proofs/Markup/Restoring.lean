import SvgComponent.Proofs.Markup.Reading
import SvgComponent.Proofs.Markup.Writing

/-!
# Reading what was written

Nodes that can be written are read back from their text, apart from spans (`parse_written`).
`Spelled` relates such nodes to the tokens of their text : the tokens are whole, sound and
nested, and have the events of the nodes. There is one lemma for a node of one token and one
for an element with its two tags; `exists_spelled` puts them together along `Writes`.
-/

namespace SvgComponent.Markup

open Text

/-- The tokens say what the nodes say inside open elements of these names, and can be read
back from the text. -/
structure Spelled (opened : List String) (nodes : List Node) (cs : List Char)
    (tokens : List Token) : Prop where
  lexemes : tokens.flatMap Token.lexeme = cs
  whole : ∀ token ∈ tokens, token.Whole
  sound : ∀ token ∈ tokens, token.Sound
  nested : Nested tokens
  apart : tokens.IsChain fun a b => ¬ (a.IsText ∧ b.IsText)
  head : ∀ token ∈ tokens.head?, token.IsText → ∃ node ∈ nodes.head?, IsTextNode node
  events (later : List Token) :
    Event.ofTokens opened (tokens ++ later) = Event.ofNodes nodes ++ Event.ofTokens opened later

namespace Spelled

variable {opened : List String} {nodes children : List Node} {cs inner : List Char}
variable {tokens within : List Token}

theorem nil (opened : List String) : Spelled opened [] [] [] where
  lexemes := rfl
  whole := by simp
  sound := by simp
  nested := .nil
  apart := .nil
  head := by simp
  events _ := rfl

/-- A node of one token in front. -/
theorem leaf (node : Node) (token : Token) (hs : Spelled opened nodes cs tokens)
    (hl : token.IsLeaf) (hw : token.Whole) (hsound : token.Sound)
    (he : token.events (keepsBlanks opened) = Event.ofNode node)
    (ht : token.IsText → IsTextNode node)
    (ha : IsTextNode node → ∀ next ∈ nodes.head?, ¬ IsTextNode next) :
    Spelled opened (node :: nodes) (token.lexeme ++ cs) (token :: tokens) where
  lexemes := by rw [List.flatMap_cons, hs.lexemes]
  whole := List.forall_mem_cons.2 ⟨hw, hs.whole⟩
  sound := List.forall_mem_cons.2 ⟨hsound, hs.sound⟩
  nested := .leaf hl hs.nested
  apart := by
    refine hs.apart.cons fun next hn => ?_
    rintro ⟨hthis, hnext⟩
    obtain ⟨other, ho, hot⟩ := hs.head next hn hnext
    exact ha (ht hthis) other ho hot
  head := by
    intro first hf hft
    cases hf
    exact ⟨node, rfl, ht hft⟩
  events later := by
    rw [List.cons_append, Event.ofTokens, (fits_of_isLeaf hl opened).2, hs.events, he,
      Event.ofNodes, List.append_assoc]

/-- An element with two tags in front. -/
theorem element {span : Span} {tag : Tag} (hs : Spelled opened nodes cs tokens)
    (hc : Spelled (tag.name :: opened) children inner within) (hn : IsName tag.name)
    (ha : ∀ p ∈ tag.attributes.entries, IsName p.1) :
    Spelled opened (.element span tag children :: nodes)
      ('<' :: tagText tag ++ '>' :: inner ++ '<' :: '/' :: tag.name.toList ++ '>' :: cs)
      (.opening (tagText tag) :: within ++ .closing tag.name.toList :: tokens) where
  lexemes := by simp [hs.lexemes, hc.lexemes, Token.lexeme]
  whole := by
    simp only [List.cons_append, List.forall_mem_cons, List.forall_mem_append]
    exact ⟨Token.whole_opening_tagText hn ha, hc.whole, Token.whole_closing_name hn, hs.whole⟩
  sound := by
    simp only [List.cons_append, List.forall_mem_cons, List.forall_mem_append]
    exact ⟨soundTag_tagText hn ha, hc.sound, trivial, hs.sound⟩
  nested := .element ((tagName_tagText hn).trans (Token.endName_name hn).symm) hc.nested hs.nested
  apart := by
    -- tags on both sides keep the texts inside apart from those outside
    have hstop : List.IsChain (fun a b : Token => ¬ (a.IsText ∧ b.IsText))
        (.closing tag.name.toList :: tokens) := hs.apart.cons fun _ _ h => h.1
    have hinner := List.isChain_append.2 ⟨hc.apart, hstop, fun a _ b hb h => by
      cases hb
      exact h.2⟩
    exact hinner.cons fun _ _ h => h.1
  head := by
    intro first hf hft
    cases hf
    exact hft.elim
  events later := by
    simp only [List.cons_append, List.append_assoc, Event.ofTokens, Token.openedAfter,
      Token.events, tagName_tagText hn, attributesOf_tagText hn ha, hc.events,
      Token.endName_name hn, List.tail_cons, hs.events, Event.ofNodes, Event.ofNode,
      List.nil_append]

end Spelled

/-- The events of a text that is its own trim wherever blanks do not matter. -/
theorem events_escaped {keeps : Bool} {value : String} (hne : value.toList ≠ [])
    (ht : keeps = false → trim value.toList = value.toList) :
    (Token.text (escaped value.toList)).events keeps = [.text value] := by
  cases keeps with
  | true => simp [Token.events, expanded_of_expand (expand_escaped _)]
  | false => simp [Token.events, expanded_of_expand (expand_escaped _), ht rfl, hne]

/-- Nodes that can be written are spelled by the tokens of their text. -/
theorem exists_spelled {nodes : List Node} {cs : List Char} (h : Writes nodes cs) :
    ∀ opened, WritableAll opened nodes → TextsApartAll nodes →
      ∃ tokens, Spelled opened nodes cs tokens := by
  induction h with
  | nil => exact fun opened _ _ => ⟨[], .nil opened⟩
  | @element span tag children rest inner cs _ _ ihc ihr =>
    intro opened hw ht
    obtain ⟨⟨hn, ha, hc⟩, hr⟩ := hw
    obtain ⟨within, hwithin⟩ := ihc _ hc ht.1
    obtain ⟨tokens, htokens⟩ := ihr opened hr ht.2.2
    exact ⟨_, htokens.element hwithin hn ha⟩
  | @short span tag rest cs _ ihr =>
    intro opened hw ht
    obtain ⟨⟨hn, ha, -⟩, hr⟩ := hw
    obtain ⟨tokens, htokens⟩ := ihr opened hr ht.2.2
    have hs := htokens.leaf (.element span tag []) (.empty (tagText tag)) trivial
      (Token.whole_empty_tagText hn ha) (soundTag_tagText hn ha)
      (by simp [Token.events, tagName_tagText hn, attributesOf_tagText hn ha, Event.ofNode,
        Event.ofNodes]) False.elim ht.2.1
    exact ⟨_, by simpa [Token.lexeme] using hs⟩
  | @text span value rest cs _ ihr =>
    intro opened hw ht
    obtain ⟨⟨hne, htrim⟩, hr⟩ := hw
    obtain ⟨tokens, htokens⟩ := ihr opened hr ht.2.2
    exact ⟨_, htokens.leaf (.text span value) (.text (escaped value.toList)) trivial
      (Token.whole_text (escaped_ne_nil hne) (not_mem_escaped (.inl rfl) _))
      ⟨_, expand_escaped _⟩ (events_escaped hne htrim) (fun _ => trivial) ht.2.1⟩
  | @cdata span value rest cs _ ihr =>
    intro opened hw ht
    obtain ⟨hfree, hr⟩ := hw
    obtain ⟨tokens, htokens⟩ := ihr opened hr ht.2.2
    have hs := htokens.leaf (.cdata span value) (.cdata value.toList) trivial
      (Token.whole_cdata hfree) trivial (by simp [Token.events, Event.ofNode]) False.elim ht.2.1
    exact ⟨_, by simpa [Token.lexeme, Token.cdataMark, Token.cdataEnd] using hs⟩
  | @comment span value rest cs _ ihr =>
    intro opened hw ht
    obtain ⟨⟨htrim, hfree⟩, hr⟩ := hw
    obtain ⟨tokens, htokens⟩ := ihr opened hr ht.2.2
    have hs := htokens.leaf (.comment span value) (.comment (' ' :: (value.toList ++ [' '])))
      trivial (Token.whole_comment_spaced hfree) trivial
      (by simp [Token.events, Event.ofNode, trim_spaced, htrim]) False.elim ht.2.1
    exact ⟨_, by simpa [Token.lexeme, Token.commentMark, Token.commentEnd] using hs⟩
  | @instruction span name value rest cs _ ihr =>
    intro opened hw ht
    obtain ⟨⟨⟨hn, hx⟩, htrim, hfree⟩, hr⟩ := hw
    obtain ⟨tokens, htokens⟩ := ihr opened hr ht.2.2
    have hs := htokens.leaf (.instruction span name value)
      (.instruction (name.toList ++ ' ' :: value.toList)) trivial
      (Token.whole_instruction_named hn hfree) trivial
      (by simp [Token.events, Event.ofNode, Token.instructionEvent_named _ hn hx, htrim])
      False.elim ht.2.1
    exact ⟨_, by simpa [Token.lexeme, Token.instructionEnd] using hs⟩

/-- What is written for nodes is a document, and its nodes are those, apart from spans. -/
theorem parse_written {nodes : List Node} {cs : List Char} (h : Writes nodes cs)
    (hw : WritableAll [] nodes) (ht : TextsApartAll nodes) (hm : cs.head? ≠ some byteOrderMark) :
    ∃ document, parse cs = .ok document ∧ bareAll document = bareAll nodes := by
  obtain ⟨tokens, hs⟩ := exists_spelled h [] hw ht
  have hdrop : dropMark cs = cs := dropMark_of_head? hm
  obtain ⟨placed, hl, hplaced⟩ := exists_lexes hs.whole hs.apart 0
  rw [hs.lexemes, ← hdrop] at hl
  have hlex := lex_of_lexes hl
  have htokens : tokensOf cs = tokens := by rw [tokensOf, hlex, hplaced]
  obtain ⟨document, hd⟩ := exists_parse_iff.2
    ⟨by rw [hlex], by rw [htokens]; exact hs.sound, by rw [htokens]; exact hs.nested⟩
  have hevents := hs.events []
  rw [List.append_nil, Event.ofTokens, List.append_nil] at hevents
  refine ⟨document, hd, bareAll_eq_of_ofNodes ?_⟩
  rw [ofNodes_of_parse hd, htokens, hevents]

/-- Marks that almost end what they stand in, quotes in quotes, and blanks that matter. -/
theorem parse_written_marks :
    ∃ document,
      parse ("<!-- a -- b --><?x-y k??><svg a=\"x &gt; &quot;y&quot; &amp; 'z'\">".toList ++
        "a&lt;b<tspan> \n</tspan><![CDATA[x]]]]><g/></svg>".toList) = .ok document ∧
      bareAll document = [.comment {} "a -- b", .instruction {} "x-y" "k?",
        .element {} ⟨"svg", .ofPairs [("a", "x > \"y\" & 'z'")]⟩
          [.text {} "a<b", .element {} ⟨"tspan", .empty⟩ [.text {} " \n"], .cdata {} "x]]",
            .element {} ⟨"g", .empty⟩ []]] := by
  have h : Writes [.comment {} "a -- b", .instruction {} "x-y" "k?",
      .element {} ⟨"svg", .ofPairs [("a", "x > \"y\" & 'z'")]⟩
        [.text {} "a<b", .element {} ⟨"tspan", .empty⟩ [.text {} " \n"], .cdata {} "x]]",
          .element {} ⟨"g", .empty⟩ []]] _ :=
    .comment (.instruction (.element (.text (.element (.text .nil) (.cdata (.short .nil)))) .nil))
  refine parse_written (Eq.subst ?_ h) ?_ ?_ ?_
  · with_unfolding_all rfl
  · simp only [WritableAll, Writable]
    decide
  · simp [TextsApartAll, TextsApart, IsTextNode]
  · decide

end SvgComponent.Markup
