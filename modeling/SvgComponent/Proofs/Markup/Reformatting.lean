import SvgComponent.Proofs.Markup.Reading
import SvgComponent.Proofs.Markup.Reference
import SvgComponent.Proofs.Markup.Whole
import SvgComponent.Proofs.Text.Runs

/-!
# Gaps between tokens

A text is reformatted by putting gaps in front of its tokens and behind the last one, except
inside the elements where blanks matter (`Spaced`). The tokens of the new text are the old
ones, but for texts : a gap joins the text beside it, or is a text of its own (`joinText`). What
the new tokens have in common with the old ones is `Respaced`; above all it is their events, as
gaps at the ends of a text are trimmed.

`parse_spaced` : a document is read back from its text reformatted, apart from spans.
-/

namespace SvgComponent.Markup

open Text

/-! ## Texts with gaps -/

/-- What may be put in front of a token inside open elements of these names : a gap, and
nothing where blanks matter. -/
def Fills (opened : List String) (gap : List Char) : Prop :=
  (∀ c ∈ gap, isGap c = true) ∧ (keepsBlanks opened = true → gap = [])

instance (opened : List String) (gap : List Char) : Decidable (Fills opened gap) :=
  @instDecidableAnd _ _ (List.decidableBAll _ gap) inferInstance

/-- A text of these tokens, inside open elements of these names, with a gap in front of each
token and one behind the last. -/
inductive Spaced : List String → List Token → List Char → Prop
  | nil {opened : List String} {gap : List Char} (hg : Fills opened gap) : Spaced opened [] gap
  | cons {opened : List String} {gap cs : List Char} {token : Token} {rest : List Token}
    (hg : Fills opened gap) (hr : Spaced (token.openedAfter opened) rest cs) :
    Spaced opened (token :: rest) (gap ++ (token.lexeme ++ cs))

theorem expand_gap {gap : List Char} (h : ∀ c ∈ gap, isGap c = true) :
    Reference.expand gap = .ok gap :=
  Reference.expand_of_no_ampersand fun hm => absurd (h _ hm) (by decide)

theorem not_mem_gap {gap : List Char} (h : ∀ c ∈ gap, isGap c = true) : '<' ∉ gap :=
  fun hm => absurd (h _ hm) (by decide)

/-! ## Joining texts -/

/-- Whether a run of text comes first. -/
def StartsWithText (tokens : List Token) : Prop :=
  ∃ token ∈ tokens.head?, token.IsText

/-- Tokens with a text put in front of them, as one run with a text that is there. -/
def joinText (raw : List Char) : List Token → List Token
  | .text more :: rest => .text (raw ++ more) :: rest
  | tokens => if raw = [] then tokens else .text raw :: tokens

/-- A text joins the one behind it, or there is nothing to join, or it stands by itself. -/
theorem joinText_cases (raw : List Char) (tokens : List Token) :
    (∃ more rest, tokens = .text more :: rest ∧
      joinText raw tokens = .text (raw ++ more) :: rest) ∨
    (raw = [] ∧ joinText raw tokens = tokens) ∨
    (raw ≠ [] ∧ ¬ StartsWithText tokens ∧ joinText raw tokens = .text raw :: tokens) := by
  unfold joinText
  split
  · exact .inl ⟨_, _, rfl, rfl⟩
  · rename_i hx
    split
    · rename_i hnil
      exact .inr (.inl ⟨hnil, rfl⟩)
    · rename_i hne
      refine .inr (.inr ⟨hne, ?_, rfl⟩)
      rintro ⟨token, hm, ht⟩
      obtain ⟨rest, rfl⟩ := List.head?_eq_some_iff.1 hm
      cases token with
      | text more => exact hx more rest rfl
      | opening | empty | closing | comment | cdata | doctype | instruction => exact ht

section Joined

variable {raw : List Char} {tokens : List Token} {opened : List String}

/-- A text that is joined to tokens stands in front of them. -/
theorem flatMap_lexeme_joinText :
    (joinText raw tokens).flatMap Token.lexeme = raw ++ tokens.flatMap Token.lexeme := by
  rcases joinText_cases raw tokens with ⟨more, rest, rfl, h⟩ | ⟨rfl, h⟩ | ⟨-, -, h⟩ <;> rw [h]
  · simp [Token.lexeme]
  · rfl
  · rfl

/-- Whole tokens stay whole with a text in front. -/
theorem whole_joinText (hraw : '<' ∉ raw) (h : ∀ token ∈ tokens, token.Whole) :
    ∀ token ∈ joinText raw tokens, token.Whole := by
  rcases joinText_cases raw tokens with ⟨more, rest, rfl, hj⟩ | ⟨rfl, hj⟩ | ⟨hne, -, hj⟩ <;> rw [hj]
  · rw [List.forall_mem_cons] at h ⊢
    obtain ⟨hmore, hlt⟩ := Token.whole_text_iff.1 h.1
    refine ⟨Token.whole_text_iff.2 ⟨by simp [hmore], ?_⟩, h.2⟩
    rw [List.mem_append, not_or]
    exact ⟨hraw, hlt⟩
  · exact h
  · exact List.forall_mem_cons.2 ⟨Token.whole_text hne hraw, h⟩

/-- Nothing is wrong with tokens that a sound text is joined to. -/
theorem sound_joinText {value : List Char} (hraw : Reference.expand raw = .ok value)
    (h : ∀ token ∈ tokens, token.Sound) : ∀ token ∈ joinText raw tokens, token.Sound := by
  rcases joinText_cases raw tokens with ⟨more, rest, rfl, hj⟩ | ⟨rfl, hj⟩ | ⟨-, -, hj⟩ <;> rw [hj]
  · rw [List.forall_mem_cons] at h ⊢
    obtain ⟨⟨expanded, hmore⟩, hrest⟩ := h
    exact ⟨⟨_, Reference.expand_append hraw hmore⟩, hrest⟩
  · exact h
  · exact List.forall_mem_cons.2 ⟨⟨value, hraw⟩, h⟩

/-- Runs of text stay apart when one is joined to tokens. -/
theorem isChain_joinText (h : tokens.IsChain fun a b => ¬ (a.IsText ∧ b.IsText)) :
    (joinText raw tokens).IsChain fun a b => ¬ (a.IsText ∧ b.IsText) := by
  rcases joinText_cases raw tokens with ⟨more, rest, rfl, hj⟩ | ⟨rfl, hj⟩ | ⟨-, ht, hj⟩ <;> rw [hj]
  · rw [List.isChain_cons] at h ⊢
    exact h
  · exact h
  · exact h.cons fun next hn hb => ht ⟨next, hn, hb.2⟩

/-- A text closes no element. -/
theorem closes_joinText (h : Builder.Closes opened tokens) :
    Builder.Closes opened (joinText raw tokens) := by
  rcases joinText_cases raw tokens with ⟨more, rest, rfl, hj⟩ | ⟨rfl, hj⟩ | ⟨-, -, hj⟩ <;> rw [hj]
  · exact h
  · exact h
  · exact ⟨trivial, h⟩

end Joined

/-! ## Events where blanks do not matter -/

theorem ofTokens_text (opened : List String) (raw : List Char) (rest : List Token) :
    Event.ofTokens opened (.text raw :: rest) =
      (Token.text raw).events (keepsBlanks opened) ++ Event.ofTokens opened rest :=
  rfl

/-- A gap says nothing where blanks do not matter. -/
theorem events_text_blank {gap : List Char} (h : ∀ c ∈ gap, isGap c = true) :
    (Token.text gap).events false = [] := by
  have ht : trim gap = [] := trim_eq_nil_iff.2 fun c hc => isBlank_of_isGap (h c hc)
  simp [Token.events, expanded_of_expand (expand_gap h), ht]

/-- Texts that are the same when trimmed say the same. -/
theorem events_text_eq {a b : List Char} (h : trim (expanded a) = trim (expanded b)) :
    (Token.text a).events false = (Token.text b).events false := by
  simp [Token.events, h]

/-- A gap behind a text says nothing. -/
theorem events_text_append {raw gap : List Char} (h : ∀ c ∈ gap, isGap c = true)
    (hs : (Token.text raw).Sound) :
    (Token.text (raw ++ gap)).events false = (Token.text raw).events false := by
  obtain ⟨value, hv⟩ := hs
  refine events_text_eq ?_
  rw [expanded_of_expand (Reference.expand_append hv (expand_gap h)), expanded_of_expand hv]
  exact trim_append_blanks (fun c hc => isBlank_of_isGap (h c hc)) value

/-- A gap in front of a text says nothing. -/
theorem events_gap_append {raw gap : List Char} (h : ∀ c ∈ gap, isGap c = true)
    (hs : (Token.text raw).Sound) :
    (Token.text (gap ++ raw)).events false = (Token.text raw).events false := by
  obtain ⟨value, hv⟩ := hs
  refine events_text_eq ?_
  rw [expanded_of_expand (Reference.expand_append (expand_gap h) hv), expanded_of_expand hv]
  exact trim_blanks_append (fun c hc => isBlank_of_isGap (h c hc)) value

/-! ## The tokens of a reformatted text -/

/-- The tokens `new` spell the text and say the same as the tokens `old`, inside open elements
of these names. A text that comes first only in the new ones is a gap. -/
structure Respaced (opened : List String) (old : List Token) (cs : List Char)
    (new : List Token) : Prop where
  lexemes : new.flatMap Token.lexeme = cs
  whole : ∀ token ∈ new, token.Whole
  sound : ∀ token ∈ new, token.Sound
  apart : new.IsChain fun a b => ¬ (a.IsText ∧ b.IsText)
  closes (h : Builder.Closes opened old) : Builder.Closes opened new
  events : Event.ofTokens opened new = Event.ofTokens opened old
  head {raw : List Char} {rest : List Token} (h : new = .text raw :: rest) :
    StartsWithText old ∨ keepsBlanks opened = false ∧ ∀ c ∈ raw, isGap c = true

namespace Respaced

variable {opened : List String} {old new : List Token} {cs gap raw : List Char} {token : Token}

theorem nil (opened : List String) : Respaced opened [] [] [] where
  lexemes := rfl
  whole := by simp
  sound := by simp
  apart := .nil
  closes h := h
  events := rfl
  head h := nomatch h

/-- A token that is no text in front. -/
theorem cons (hr : Respaced (token.openedAfter opened) old cs new) (ht : ¬ token.IsText)
    (hw : token.Whole) (hs : token.Sound) :
    Respaced opened (token :: old) (token.lexeme ++ cs) (token :: new) where
  lexemes := by rw [List.flatMap_cons, hr.lexemes]
  whole := List.forall_mem_cons.2 ⟨hw, hr.whole⟩
  sound := List.forall_mem_cons.2 ⟨hs, hr.sound⟩
  apart := hr.apart.cons fun _ _ h => ht h.1
  closes h := ⟨h.1, hr.closes h.2⟩
  events := by rw [Event.ofTokens, Event.ofTokens, hr.events]
  head h := by
    cases h
    exact absurd trivial ht

/-- A run of text in front : it joins a gap behind it. -/
theorem text (hr : Respaced opened old cs new) (ht : ¬ StartsWithText old)
    (hw : (Token.text raw).Whole) (hs : (Token.text raw).Sound) :
    Respaced opened (.text raw :: old) (raw ++ cs) (joinText raw new) where
  lexemes := by rw [flatMap_lexeme_joinText, hr.lexemes]
  whole := whole_joinText (Token.whole_text_iff.1 hw).2 hr.whole
  sound := by
    obtain ⟨value, hv⟩ := hs
    exact sound_joinText hv hr.sound
  apart := isChain_joinText hr.apart
  closes h := closes_joinText (hr.closes h.2)
  events := by
    rw [ofTokens_text, ← hr.events]
    rcases joinText_cases raw new with ⟨more, rest, rfl, hj⟩ | ⟨hnil, -⟩ | ⟨-, -, hj⟩
    · obtain hstart | ⟨hk, hgap⟩ := hr.head rfl
      · exact absurd hstart ht
      · rw [hj, ofTokens_text, ofTokens_text, hk, events_text_append hgap hs,
          events_text_blank hgap, List.nil_append]
    · exact absurd hnil (Token.whole_text_iff.1 hw).1
    · rw [hj, ofTokens_text]
  head _ := .inl ⟨_, rfl, trivial⟩

/-- A gap in front : it joins a text behind it, where its blanks do not matter. -/
theorem gap_append (hr : Respaced opened old cs new) (hg : Fills opened gap) :
    Respaced opened old (gap ++ cs) (joinText gap new) where
  lexemes := by rw [flatMap_lexeme_joinText, hr.lexemes]
  whole := whole_joinText (not_mem_gap hg.1) hr.whole
  sound := sound_joinText (expand_gap hg.1) hr.sound
  apart := isChain_joinText hr.apart
  closes h := closes_joinText (hr.closes h)
  events := by
    rw [← hr.events]
    cases hk : keepsBlanks opened with
    | true =>
      rcases joinText_cases gap new with ⟨more, rest, rfl, hj⟩ | ⟨-, hj⟩ | ⟨hne, -, -⟩
      · rw [hj, hg.2 hk, List.nil_append]
      · rw [hj]
      · exact absurd (hg.2 hk) hne
    | false =>
      rcases joinText_cases gap new with ⟨more, rest, rfl, hj⟩ | ⟨-, hj⟩ | ⟨-, -, hj⟩
      · have hmore := hr.sound _ List.mem_cons_self
        rw [hj, ofTokens_text, ofTokens_text, hk, events_gap_append hg.1 hmore]
      · rw [hj]
      · rw [hj, ofTokens_text, hk, events_text_blank hg.1, List.nil_append]
  head {raw rest} h := by
    rcases joinText_cases gap new with ⟨more, after, rfl, hj⟩ | ⟨-, hj⟩ | ⟨hne, -, hj⟩
    · rw [hj] at h
      cases h
      refine (hr.head rfl).imp_right fun hblank => ⟨hblank.1, ?_⟩
      rw [List.forall_mem_append]
      exact ⟨hg.1, hblank.2⟩
    · exact hr.head (hj ▸ h)
    · rw [hj] at h
      cases h
      refine .inr ⟨?_, hg.1⟩
      rw [← Bool.not_eq_true]
      exact fun hk => hne (hg.2 hk)

end Respaced

/-- The text of tokens with gaps between them has tokens that say the same. -/
theorem exists_respaced {opened : List String} {tokens : List Token} {cs : List Char}
    (h : Spaced opened tokens cs) (hw : ∀ token ∈ tokens, token.Whole)
    (hs : ∀ token ∈ tokens, token.Sound)
    (hc : tokens.IsChain fun a b => ¬ (a.IsText ∧ b.IsText)) :
    ∃ new, Respaced opened tokens cs new := by
  induction h with
  | @nil opened gap hg =>
    have hr := (Respaced.nil opened).gap_append hg
    rw [List.append_nil] at hr
    exact ⟨_, hr⟩
  | @cons opened gap cs token rest hg _ ih =>
    rw [List.forall_mem_cons] at hw hs
    rw [List.isChain_cons] at hc
    obtain ⟨new, hr⟩ := ih hw.2 hs.2 hc.2
    by_cases ht : token.IsText
    · cases token with
      | text raw =>
        have hnext : ¬ StartsWithText rest := fun ⟨next, hn, hnt⟩ => hc.1 next hn ⟨ht, hnt⟩
        exact ⟨_, (hr.text hnext hw.1 hs.1).gap_append hg⟩
      | opening | empty | closing | comment | cdata | doctype | instruction => exact ht.elim
    · exact ⟨_, (hr.cons ht hw.1 hs.1).gap_append hg⟩

/-! ## Reading a reformatted text -/

/-- Gaps do not put a byte order mark in front. -/
theorem Spaced.head?_ne_mark {opened : List String} {tokens : List Token} {cs : List Char}
    (h : Spaced opened tokens cs) (hw : ∀ token ∈ tokens, token.Whole)
    (hm : (tokens.flatMap Token.lexeme).head? ≠ some byteOrderMark) :
    cs.head? ≠ some byteOrderMark := by
  have hgap : ∀ gap rest : List Char, (∀ c ∈ gap, isGap c = true) → gap ≠ [] →
      (gap ++ rest).head? ≠ some byteOrderMark := by
    intro gap rest hg hne hhead
    rw [List.head?_append_of_ne_nil _ hne] at hhead
    exact absurd (hg _ (List.mem_of_head? hhead)) (by decide)
  cases h with
  | nil hg =>
    by_cases hne : cs = []
    · rw [hne]
      simp
    · have hfront := hgap cs [] hg.1 hne
      rwa [List.append_nil] at hfront
  | @cons _ gap cs token rest hg _ =>
    by_cases hne : gap = []
    · rw [hne, List.nil_append]
      have hlexeme := (hw token List.mem_cons_self).ne_nil
      rw [List.flatMap_cons, List.head?_append_of_ne_nil _ hlexeme] at hm
      rwa [List.head?_append_of_ne_nil _ hlexeme]
    · exact hgap gap _ hg.1 hne

/-- A document is read back from its text reformatted, apart from spans. -/
theorem parse_spaced {source other : List Char} {document : Document}
    (hm : source.head? ≠ some byteOrderMark) (hp : parse source = .ok document)
    (h : Spaced [] (tokensOf source) other) :
    ∃ reread, parse other = .ok reread ∧ bareAll reread = bareAll document := by
  obtain ⟨-, hsound, hnested⟩ := exists_parse_iff.1 ⟨document, hp⟩
  obtain ⟨placed, b, hl, -⟩ := parse_eq_ok_iff.1 hp
  have htokens : tokensOf source = placed.map Prod.snd := by rw [tokensOf, lex_of_lexes hl]
  have hwhole : ∀ token ∈ tokensOf source, token.Whole := by
    rw [htokens, List.forall_mem_map]
    exact hl.whole
  have hchain : (tokensOf source).IsChain fun a b => ¬ (a.IsText ∧ b.IsText) := by
    rw [htokens, List.isChain_map]
    exact hl.isChain
  have hlexemes : (tokensOf source).flatMap Token.lexeme = source := by
    rw [htokens, List.flatMap_map, ← dropMark_of_head? hm]
    exact hl.flatMap_lexeme
  obtain ⟨new, hr⟩ := exists_respaced h hwhole hsound hchain
  have hdrop : dropMark other = other :=
    dropMark_of_head? (h.head?_ne_mark hwhole (by rwa [hlexemes]))
  obtain ⟨replaced, hl', hnew⟩ := exists_lexes hr.whole hr.apart 0
  rw [hr.lexemes, ← hdrop] at hl'
  have htokens' : tokensOf other = new := by rw [tokensOf, lex_of_lexes hl', hnew]
  have hnested' : Nested new := nested_iff_closes.2 (hr.closes (nested_iff_closes.1 hnested))
  obtain ⟨reread, hp'⟩ := exists_parse_iff.2
    ⟨by rw [lex_of_lexes hl'], by rw [htokens']; exact hr.sound, by rwa [htokens']⟩
  refine ⟨reread, hp', bareAll_eq_of_ofNodes ?_⟩
  rw [ofNodes_of_parse hp', ofNodes_of_parse hp, htokens', hr.events]

end SvgComponent.Markup
