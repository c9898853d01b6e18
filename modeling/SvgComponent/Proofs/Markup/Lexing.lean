import Mathlib.Data.List.Chain
import SvgComponent.Markup.Document

/-!
# Cutting a text into tokens

`Lexes` is the relation of a text and its tokens when no fault ends them (`lexes_iff`), one
scanned token at a time. What holds of a text without faults is proved by induction on it :
the lexemes are the text again (`Lexes.flatMap_lexeme`), and a run of text is followed by no
other (`Lexes.isChain`).
-/

namespace SvgComponent.Markup

open Text

/-- A run of text. -/
def Token.IsText : Token → Prop
  | text _ => True
  | _ => False

/-- The text from byte `pos` on is cut into these tokens, up to its end. -/
inductive Lexes : Nat → List Char → List (Nat × Token) → Prop
  | nil {pos : Nat} : Lexes pos [] []
  | cons {pos : Nat} {cs rest : List Char} {token : Token} {tokens : List (Nat × Token)}
    (hne : cs ≠ []) (hs : Token.scan cs = .ok (token, rest))
    (hr : Lexes (pos + width token.lexeme) rest tokens) : Lexes pos cs ((pos, token) :: tokens)

theorem lexFrom_nil (pos : Nat) : lexFrom pos [] = ⟨[], none⟩ := by
  rw [lexFrom, dif_pos rfl]

/-- A token is cut off, and then those behind it. -/
theorem lexFrom_of_scan {pos : Nat} {cs rest : List Char} {token : Token} (hne : cs ≠ [])
    (hs : Token.scan cs = .ok (token, rest)) :
    lexFrom pos cs = ⟨(pos, token) :: (lexFrom (pos + width token.lexeme) rest).tokens,
      (lexFrom (pos + width token.lexeme) rest).fault⟩ := by
  rw [lexFrom, dif_neg hne]
  split
  · simp_all
  · rename_i hs'
    rw [hs] at hs'
    cases hs'
    rfl

/-- Where no token can be cut off, cutting ends with the fault. -/
theorem lexFrom_of_fault {pos shift : Nat} {cs : List Char} {fault : TokenFault} (hne : cs ≠ [])
    (hs : Token.scan cs = .error (fault, shift)) :
    lexFrom pos cs = ⟨[], some (fault, pos + shift)⟩ := by
  rw [lexFrom, dif_neg hne]
  split
  · rename_i hs'
    rw [hs] at hs'
    cases hs'
    rfl
  · simp_all

/-- What is cut off without a fault are the tokens of the text. -/
theorem lexes_of_lexFrom {pos : Nat} {cs : List Char} {tokens : List (Nat × Token)}
    (h : lexFrom pos cs = ⟨tokens, none⟩) : Lexes pos cs tokens := by
  by_cases hne : cs = []
  · subst hne
    rw [lexFrom_nil] at h
    cases h
    exact .nil
  · cases hs : Token.scan cs with
    | error fault =>
      rw [lexFrom_of_fault hne hs] at h
      cases h
    | ok scanned =>
      obtain ⟨token, rest⟩ := scanned
      rw [lexFrom_of_scan hne hs, Lexed.mk.injEq] at h
      obtain ⟨rfl, hf⟩ := h
      exact .cons hne hs (lexes_of_lexFrom (by rw [← hf]))
termination_by cs.length
decreasing_by exact Token.length_rest_lt hne hs

/-- The tokens of a text without faults. -/
theorem lexes_iff {pos : Nat} {cs : List Char} {tokens : List (Nat × Token)} :
    Lexes pos cs tokens ↔ lexFrom pos cs = ⟨tokens, none⟩ := by
  refine ⟨fun h => ?_, lexes_of_lexFrom⟩
  induction h with
  | nil => exact lexFrom_nil _
  | cons hne hs _ ih => rw [lexFrom_of_scan hne hs, ih]

/-! ## Runs of text -/

theorem not_isText_ofTagContent (content : List Char) : ¬ (Token.ofTagContent content).IsText := by
  unfold Token.ofTagContent
  split <;> exact id

theorem not_isText_of_scanDeclaration {cs rest : List Char} {token : Token}
    (h : Token.scanDeclaration cs = .ok (token, rest)) : ¬ token.IsText := by
  unfold Token.scanDeclaration at h
  (repeat' split at h) <;> cases h <;> exact id

/-- Behind a `<` no run of text is read. -/
theorem not_isText_of_scanMarked {cs rest : List Char} {token : Token}
    (h : Token.scanMarked cs = .ok (token, rest)) : ¬ token.IsText := by
  unfold Token.scanMarked at h
  split at h
  · exact not_isText_of_scanDeclaration h
  · unfold Token.scanInstruction at h
    (repeat' split at h) <;> cases h
    exact id
  · split at h <;> cases h
    exact id
  · split at h <;> cases h
    exact not_isText_ofTagContent _

/-- Behind a run of text no other is read. -/
theorem not_isText_of_scan_isText {cs rest rest' : List Char} {token next : Token}
    (h : Token.scan cs = .ok (token, rest)) (ht : token.IsText) (hne : rest ≠ [])
    (h' : Token.scan rest = .ok (next, rest')) : ¬ next.IsText := by
  unfold Token.scan at h
  split at h
  · exact absurd ht (not_isText_of_scanMarked h)
  · cases h
    obtain ⟨c, r, hc⟩ := List.exists_cons_of_ne_nil hne
    have hlt : c = '<' := by
      have := List.head?_dropWhile_not (· ≠ '<') cs
      rw [hc] at this
      simpa using this
    rw [hc, hlt, Token.scan] at h'
    exact not_isText_of_scanMarked h'

namespace Lexes

variable {pos : Nat} {cs : List Char} {tokens : List (Nat × Token)}

/-- Nothing of the text is lost. -/
theorem flatMap_lexeme (h : Lexes pos cs tokens) :
    tokens.flatMap (fun p => p.2.lexeme) = cs := by
  induction h with
  | nil => rfl
  | cons _ hs _ ih => rw [List.flatMap_cons, ih, Token.eq_append_of_scan hs]

/-- No run of text follows another. -/
theorem isChain (h : Lexes pos cs tokens) :
    tokens.IsChain fun p q => ¬ (p.2.IsText ∧ q.2.IsText) := by
  induction h with
  | nil => exact .nil
  | cons hne hs hr ih =>
    refine ih.cons fun q hq => ?_
    rintro ⟨hp, ht⟩
    cases hr with
    | nil => simp at hq
    | cons hne' hs' _ =>
      rw [List.head?_cons, Option.mem_some_iff] at hq
      subst hq
      exact not_isText_of_scan_isText hs hp hne' hs' ht

end Lexes

end SvgComponent.Markup
