import SvgComponent.Proofs.Markup.Failing

/-!
# A byte order mark in front

A mark in front of a text is dropped before the text is cut into tokens, and bytes are counted
from behind it. So the text is read as it is without the mark (`parse_mark`) : the document is
the same, spans included, and so is what is reported and where. Only an element that is not
closed is reported at the end of the text as it was given, the mark counted.
-/

namespace SvgComponent.Markup

open Text

/-! ## Reading behind a mark -/

/-- The error of a text with a mark in front, given that of the text. -/
def ParseError.behindMark (error : ParseError) : ParseError :=
  match error.fault with
  | .unclosed name => ⟨.unclosed name, byteOrderMark.utf8Size + error.offset⟩
  | _ => error

/-- A fault of a token has the same place with a mark in front. -/
theorem behindMark_of_isOfToken {error : ParseError} (h : error.fault.IsOfToken) :
    error.behindMark = error := by
  unfold ParseError.behindMark
  split
  · rename_i hf
    rw [hf] at h
    exact h.elim
  · rfl

/-- The tokens of a text do not depend on a mark in front. -/
theorem lex_mark {source : List Char} (hm : source.head? ≠ some byteOrderMark) :
    lex (byteOrderMark :: source) = lex source := by
  rw [lex, lex, dropMark_of_head? hm]
  rfl

theorem tokensOf_mark {source : List Char} (hm : source.head? ≠ some byteOrderMark) :
    tokensOf (byteOrderMark :: source) = tokensOf source := by
  rw [tokensOf, tokensOf, lex_mark hm]

/-- A text with a mark in front is read as the text without it, whether it is a document or
not; the mark counts for the place of an element that is not closed and for nothing else. -/
theorem parse_mark {source : List Char} (hm : source.head? ≠ some byteOrderMark) :
    parse (byteOrderMark :: source) = (parse source).mapError ParseError.behindMark := by
  cases hp : parse source with
  | ok document =>
    obtain ⟨tokens, b, hl, hr, ho, hd⟩ := parse_eq_ok_iff.1 hp
    rw [dropMark_of_head? hm] at hl
    exact parse_eq_ok_iff.2 ⟨tokens, b, hl, hr, ho, hd⟩
  | error error =>
    refine parse_eq_error_iff.2 ?_
    rw [lex_mark hm, tokensOf_mark hm]
    rcases parse_eq_error_iff.1 hp with ⟨front, token, back, ht, ha, hf⟩ | ⟨ha, hfault⟩
    · rw [behindMark_of_isOfToken hf.isOfToken]
      exact .inl ⟨front, token, back, ht, ha, hf⟩
    · refine .inr ⟨ha, ?_⟩
      rcases hfault with ⟨fault, offset, hf, rfl⟩ | ⟨hn, name, hname, rfl⟩
      · exact .inl ⟨fault, offset, hf, rfl⟩
      · exact .inr ⟨hn, name, hname, rfl⟩

/-- What is inside `a` has its place behind the mark, and that `a` is not closed the place behind
the whole text. -/
theorem parse_mark_unclosed :
    parse (byteOrderMark :: "<a>&;</a>".toList) = .error ⟨.badReference (.unknownName 1 1 ""), 3⟩ ∧
      parse (byteOrderMark :: "<a>".toList) = .error ⟨.unclosed "a", 6⟩ := by
  have hreference : parse "<a>&;</a>".toList =
      .error ⟨.badReference (.unknownName 1 1 ""), 3⟩ := by
    with_unfolding_all rfl
  have hunclosed : parse "<a>".toList = .error ⟨.unclosed "a", 3⟩ := by with_unfolding_all rfl
  constructor
  · rw [parse_mark (by decide), hreference]
    rfl
  · rw [parse_mark (by decide), hunclosed]
    rfl

/-! ## Places in the text as it was given -/

mutual

/-- A node some bytes further on. -/
def shifted (bytes : Nat) : Node → Node
  | .element span tag children =>
    .element ⟨bytes + span.start, bytes + span.stop⟩ tag (shiftedAll bytes children)
  | .text span value => .text ⟨bytes + span.start, bytes + span.stop⟩ value
  | .cdata span value => .cdata ⟨bytes + span.start, bytes + span.stop⟩ value
  | .comment span value => .comment ⟨bytes + span.start, bytes + span.stop⟩ value
  | .doctype span value => .doctype ⟨bytes + span.start, bytes + span.stop⟩ value
  | .instruction span name value =>
    .instruction ⟨bytes + span.start, bytes + span.stop⟩ name value

/-- Nodes some bytes further on. -/
def shiftedAll (bytes : Nat) : List Node → List Node
  | [] => []
  | node :: rest => shifted bytes node :: shiftedAll bytes rest

end

/-- Spans and places of faults are not counted in the text as it was given. -/
theorem not_forall_shifted :
    ¬ ∀ source : List Char, source.head? ≠ some byteOrderMark →
      parse (byteOrderMark :: source) =
        match parse source with
        | .ok document => .ok (shiftedAll byteOrderMark.utf8Size document)
        | .error error => .error ⟨error.fault, byteOrderMark.utf8Size + error.offset⟩ := by
  intro h
  have hclaim := h "<svg/>".toList (by decide)
  have hp : parse "<svg/>".toList = .ok [.element ⟨0, 6⟩ ⟨"svg", .empty⟩ []] := by
    with_unfolding_all rfl
  have hm : parse (byteOrderMark :: "<svg/>".toList) =
      .ok [.element ⟨0, 6⟩ ⟨"svg", .empty⟩ []] := by
    with_unfolding_all rfl
  rw [hp, hm] at hclaim
  simp only [shiftedAll, shifted, Except.ok.injEq, List.cons.injEq, Node.element.injEq,
    Span.mk.injEq] at hclaim
  exact absurd hclaim.1.1.1 (by decide)

end SvgComponent.Markup
