import SvgComponent.Proofs.Script.Parsing
import SvgComponent.Script.Module

/-!
# Operands that stand alone

An expression may be one operand with nothing in front of it or behind it. Then all the rules for
operators pass it on as it is (`parses_assignmentRule`), because none of their marks is there : the
operand starts with one of few tokens (`valueTokens`), and what follows it with one of few others
(`endTokens`). For texts of values both are so (`scan_spells`, `Ends.only`).
-/

namespace SvgComponent.Script

open Json Text Script.Parser

variable {limit : Nat} {cs rest : List Char}

/-! ## Operands that stand alone -/

/-- The words and marks that texts of values start with. -/
def valueTokens : List String := ["null", "true", "false", "[", "\x7b"]

/-- The words and marks that may follow a value in a container. -/
def endTokens : List String := [",", "]", "\x7d"]

/-- An expression that nothing has to be done about behind it. -/
def Expression.IsOperand (e : Expression) : Prop :=
  e ≠ .arrow ∧ e ≠ .signed ∧ e ≠ .operation

namespace Grammar

variable {g : Grammar} {parent : Parser Expression} {arrowFits : Bool} {e : Expression}

section chain

variable (he : e.IsOperand) (hs : (Token.scan cs).1.Only valueTokens)
  (hr : (Token.scan rest).1.Only endTokens)

include he hs hr

/-- An operand is read where one with `new` could stand. -/
theorem parses_constructedWith (h : Parses limit (g.primary parent {} arrowFits) cs e rest) :
    Parses limit (g.constructedWith parent {} arrowFits) cs e rest := by
  refine .otherwise (.at?_of_only hs (by decide)) ?_
  refine .otherwise (.at?_of_only hs (by decide)) ?_
  refine .otherwise (.at?_of_only hs (by decide)) ?_
  refine h.andThen ?_
  split
  · exact absurd rfl he.1
  · exact .whileHolds_of_not e (.atAny_of_only hr (by decide))

/-- An operand is read where one could be called. -/
theorem parses_operandWith (h : Parses limit (g.primary parent {} arrowFits) cs e rest) :
    Parses limit (g.operandWith parent {} arrowFits) cs e rest := by
  refine .otherwise (.at?_of_only hs (by decide)) ?_
  refine .otherwise (.at?_of_only hs (by decide)) ?_
  refine (parses_constructedWith he hs hr h).andThen ?_
  split
  · exact absurd rfl he.1
  · exact .otherwise (.atAny_of_only hr (by decide)) (.pure e rest)

/-- An operand is read where one with a sign could stand. -/
theorem parses_unaryRule
    (h : Parses limit (g.primary (g.parentClass {}) {} arrowFits) cs e rest) :
    Parses limit (g.unaryRule {} arrowFits) cs e rest := by
  refine .otherwise (.atAny_of_only hs (by decide)) ?_
  refine .otherwise (.atAny_of_only hs (by decide)) ?_
  refine .otherwise (.at?_of_only hs (by decide)) ?_
  refine (parses_operandWith he hs hr h).andThen ?_
  split
  · exact absurd rfl he.1
  · have hsuffix : ["++", "--"].any (Token.scan rest).1.is = false :=
      hr.any_is_eq_false (by decide)
    refine fun newline => ⟨newline, ?_⟩
    show (if (!newline && ["++", "--"].any (Token.scan rest).1.is) = true then _ else _ :
      Parser Expression) _ = _
    rw [hsuffix, Bool.and_false, if_neg Bool.false_ne_true]
    rfl

/-- An operand is read where one could be added to another. -/
theorem parses_binary
    (h : Parses limit (g.primary (g.parentClass {}) {} arrowFits) cs e rest) :
    Parses limit (g.binary {} arrowFits) cs e rest := by
  refine (Parses.recover (parses_unaryRule he hs hr h)).andThen ?_
  split
  · exact absurd rfl he.1
  · have hoperator : Parses limit (atOperator {}) rest false rest := by
      refine (Parses.token rest).andThen ?_
      rw [hr.any_is_eq_false (by decide), hr.is_eq_false (by decide), hr.is_eq_false (by decide)]
      exact .pure false rest
    exact (Parses.whileHolds_of_not (e, e) hoperator).andThen (.pure e rest)

/-- An operand is read where an expression is asked for. -/
theorem parses_assignmentRule
    (h : Parses limit (g.primary (g.parentClass {}) {} true) cs e rest) :
    Parses limit (g.assignmentRule {}) cs e rest := by
  have hconditional : Parses limit (g.conditional {} true) cs e rest := by
    refine (parses_binary he hs hr h).andThen ?_
    split
    · exact absurd rfl he.1
    · exact .otherwise (.eat_of_only hr (by decide)) (.pure e rest)
  refine (Parses.at? "yield" cs).andThen ?_
  refine hconditional.andThen ?_
  split
  · exact absurd rfl he.1
  · exact absurd rfl he.2.2
  · exact absurd rfl he.2.1
  · exact .otherwise (.atAny_of_only hr (by decide)) (.pure e rest)

end chain

end Grammar

/-! ## What stands in front of a value and behind it -/

/-- A text that may stand behind a value : none, or one with a comma or a closing mark in
front. -/
def Ends (rest : List Char) : Prop :=
  ∀ c ∈ rest.head?, c ∈ [',', ']', '}']

theorem ends_nil : Ends [] := by simp [Ends]

theorem ends_cons {c : Char} (h : c ∈ [',', ']', '}']) (rest : List Char) : Ends (c :: rest) := by
  intro d hd
  cases hd
  exact h

/-- Behind a value there is a token, or nothing. -/
theorem Ends.atToken (h : Ends rest) : AtToken rest := by
  cases rest with
  | nil => exact atToken_nil
  | cons c rest =>
    have hc := h c rfl
    simp only [List.mem_cons, List.not_mem_nil, or_false] at hc
    rcases hc with rfl | rfl | rfl <;> intro newline <;> cases newline <;> rfl

/-- Behind a value there is a mark that ends it, or nothing. -/
theorem Ends.only (h : Ends rest) : (Token.scan rest).1.Only endTokens := by
  cases rest with
  | nil => exact fun _ h => absurd h Bool.false_ne_true
  | cons c rest =>
    have hc := h c rfl
    simp only [List.mem_cons, List.not_mem_nil, or_false] at hc
    rcases hc with rfl | rfl | rfl
    · exact (only_mark ",").mono (by simp [endTokens])
    · exact (only_mark "]").mono (by simp [endTokens])
    · exact (only_mark "\x7d").mono (by simp [endTokens])

/-- No letter stands behind a value. -/
theorem Ends.head?_append (h : Ends rest) {gap : List Char} (hg : IsGap gap) :
    ∀ c ∈ (gap ++ rest).head?, isIdentifierPart c = false ∧ c ≠ '\\' := by
  intro c hc
  cases gap with
  | nil =>
    have hc := h c hc
    simp only [List.mem_cons, List.not_mem_nil, or_false] at hc
    rcases hc with rfl | rfl | rfl <;> decide
  | cons d gap =>
    cases hc
    have hgap := hg c List.mem_cons_self
    simp only [isGap, Bool.or_eq_true, decide_eq_true_eq] at hgap
    rcases hgap with ((rfl | rfl) | rfl) | rfl <;> decide

/-- The first token of a value. -/
theorem scan_spells {v : Json} {gap : List Char} (hp : Plain v) (h : Spells v cs)
    (hg : IsGap gap) (hr : Ends rest) :
    (Token.scan (cs ++ (gap ++ rest))).1.Only valueTokens ∧
      (Token.scan (cs ++ (gap ++ rest))).1 ≠ .stop := by
  have hword : ∀ c word, isIdentifierStart c = true →
      (c :: word).all (fun d => isIdentifierPart d && d ≠ '\\') = true → cs = c :: word →
      String.ofList (c :: word) ∈ valueTokens →
      (Token.scan (cs ++ (gap ++ rest))).1.Only valueTokens ∧
        (Token.scan (cs ++ (gap ++ rest))).1 ≠ .stop := by
    rintro c word hc hw rfl ht
    rw [scan_word hc hw (hr.head?_append hg)]
    exact ⟨(only_word _).mono (by simpa using ht), nofun⟩
  cases v with
  | null => exact hword _ _ (by decide) (by decide) h (by decide)
  | bool b => cases b <;> exact hword _ _ (by decide) (by decide) h (by decide)
  | number n => exact hp.elim
  | string s =>
    rw [scan_spellsString h]
    exact ⟨(only_string _).mono (List.nil_subset _), nofun⟩
  | array items =>
    obtain ⟨inner, -, rfl⟩ := h
    exact ⟨(only_mark "[").mono (by simp [valueTokens]), nofun⟩
  | object members =>
    obtain ⟨inner, -, rfl⟩ := h
    exact ⟨(only_mark "\x7b").mono (by simp [valueTokens]), nofun⟩

end SvgComponent.Script
