import SvgComponent.Config.Comments
import SvgComponent.Proofs.Json.Grammar

/-!
# Putting comments in and taking them out

Comments may stand wherever there may be a gap, and may hold anything but their own end
(`Commented`). When they are taken out the tokens are those of the text without them
(`Commented.sameTokens`), if with other gaps : the line break behind a comment stays. Taking
comments out leaves none, whatever the text (`stripComments_idem`) : of two neighbours that would
open a comment the first is left only if the second was left behind it already.
-/

namespace SvgComponent.Config

open Json Text

variable {a b cs inner content : List Char} {c : Char}

/-! ## Comments between tokens -/

/-- A text, and the same text with comments between its tokens. -/
inductive Commented : List Char → List Char → Prop
  | nil : Commented [] []
  | gap {g : Char} {a b : List Char} (hg : isGap g = true) (h : Commented a b) :
    Commented (g :: a) (g :: b)
  | mark {c : Char} {a b : List Char} (hc : isPunctuation c = true) (h : Commented a b) :
    Commented (c :: a) (c :: b)
  | letter {c : Char} {a b : List Char} (hc : isWordChar c = true)
    (hw : startsWord a = startsWord b) (h : Commented a b) : Commented (c :: a) (c :: b)
  | string {inner a b : List Char} (hi : IsInner inner) (h : Commented a b) :
    Commented ('"' :: (inner ++ '"' :: a)) ('"' :: (inner ++ '"' :: b))
  | line {content a b : List Char} (hc : '\n' ∉ content) (h : Commented a b) :
    Commented a ('/' :: '/' :: (content ++ '\n' :: b))
  | block {content a b : List Char} (hc : ¬ ['*', '/'] <:+: content) (h : Commented a b) :
    Commented a ('/' :: '*' :: (content ++ '*' :: '/' :: b))

/-- A text of whole tokens without comments, whatever is behind it. -/
def Bare (cs : List Char) : Prop :=
  ∀ rest, Commented rest rest → Commented (cs ++ rest) (cs ++ rest)

namespace Bare

/-- Texts of whole tokens one after the other are one. -/
theorem append {ds : List Char} (hc : Bare cs) (hd : Bare ds) : Bare (cs ++ ds) := by
  intro rest hr
  rw [List.append_assoc]
  exact hc _ (hd rest hr)

/-- A gap has no comments. -/
theorem of_isGap (h : IsGap cs) : Bare cs := by
  intro rest hr
  induction cs with
  | nil => exact hr
  | cons c cs ih =>
    obtain ⟨hc, hcs⟩ := List.forall_mem_cons.1 h
    exact .gap hc (ih hcs)

/-- A word has no comments. -/
theorem of_word (h : ∀ c ∈ cs, isWordChar c = true) : Bare cs := by
  intro rest hr
  induction cs with
  | nil => exact hr
  | cons c cs ih =>
    obtain ⟨hc, hcs⟩ := List.forall_mem_cons.1 h
    exact .letter hc rfl (ih hcs)

theorem cons (hc : isPunctuation c = true) (h : Bare cs) : Bare (c :: cs) :=
  fun rest hr => .mark hc (h rest hr)

theorem of_isMark (hc : isPunctuation c = true) (h : IsMark c cs) : Bare cs := by
  obtain ⟨before, after, hb, ha, rfl⟩ := h
  exact (of_isGap hb).append (cons hc (of_isGap ha))

/-- A string has no comments, whatever is in it. -/
theorem string (h : IsInner inner) (hc : Bare cs) : Bare ('"' :: (inner ++ '"' :: cs)) := by
  intro rest hr
  rw [List.cons_append, List.append_assoc, List.cons_append]
  exact .string h (hc rest hr)

theorem bracketed {left right : Char} (hl : isPunctuation left = true)
    (hr : isPunctuation right = true) (h : Bare cs) : Bare (left :: (cs ++ [right])) :=
  cons hl (h.append (cons hr (of_isGap isGap_nil)))

/-- The parts of JSON texts are whole tokens. -/
theorem of_derives {part : Part} (h : Derives part cs) : Bare cs := by
  induction h with
  | null | true | false => exact of_word (List.all_eq_true.1 (by decide))
  | number h => exact of_word h.isWordChar
  | string h => exact string h.isInner (of_isGap isGap_nil)
  | emptyList hg | emptyObject hg => exact bracketed (by decide) (by decide) (of_isGap hg)
  | list _ ih | object _ ih => exact bracketed (by decide) (by decide) ih
  | member hk hc _ ih => exact string hk.isInner ((of_isMark (by decide) hc).append ih)
  | last hb _ ha ih => exact (of_isGap hb).append (ih.append (of_isGap ha))
  | more hb _ hc _ ihe ih =>
    exact (of_isGap hb).append (ihe.append ((of_isMark (by decide) hc).append ih))

end Bare

/-- A JSON text is commented by no comments. -/
theorem Commented.of_isJson (h : IsJson cs) : Commented cs cs := by
  obtain ⟨before, value, after, hb, hv, ha, rfl⟩ := h
  have hbare := (Bare.of_isGap hb).append ((Bare.of_derives hv).append (.of_isGap ha))
  have hself := hbare [] .nil
  rwa [List.append_nil] at hself

/-! ## Taking them out -/

/-- A character of a token stays, but for quotes and slashes. -/
theorem stripFrom_code_cons (hs : c ≠ '/') (hq : c ≠ '"') (cs : List Char) :
    stripFrom .code (c :: cs) = c :: stripFrom .code cs := by
  rw [stripFrom]
  · exact fun _ hc => absurd hc hs
  · exact fun _ hc => absurd hc hs
  · exact hq

theorem stripFrom_gap (h : isGap c = true) (cs : List Char) :
    stripFrom .code (c :: cs) = c :: stripFrom .code cs := by
  refine stripFrom_code_cons ?_ ?_ cs
  all_goals
    rintro rfl
    exact absurd h (by decide)

theorem stripFrom_mark (h : isPunctuation c = true) (cs : List Char) :
    stripFrom .code (c :: cs) = c :: stripFrom .code cs := by
  refine stripFrom_code_cons ?_ ?_ cs
  all_goals
    rintro rfl
    exact absurd h (by decide)

theorem stripFrom_letter (h : isWordChar c = true) (cs : List Char) :
    stripFrom .code (c :: cs) = c :: stripFrom .code cs := by
  obtain ⟨-, -, hq, hs⟩ := isWordChar_iff.1 h
  exact stripFrom_code_cons hs hq cs

theorem stripFrom_string_cons (hq : c ≠ '"') (hb : c ≠ '\\') (cs : List Char) :
    stripFrom .string (c :: cs) = c :: stripFrom .string cs := by
  rw [stripFrom]
  · exact fun _ _ hc => absurd hc hb
  · exact hq

/-- A comment up to the end of its line leaves the line break. -/
theorem stripFrom_line (hc : '\n' ∉ content) (cs : List Char) :
    stripFrom .lineComment (content ++ '\n' :: cs) = '\n' :: stripFrom .code cs := by
  induction content with
  | nil => rfl
  | cons d content ih =>
    obtain ⟨hd, hc⟩ := not_or.1 (mt List.mem_cons.2 hc)
    rw [List.cons_append, stripFrom, ih hc]
    exact Ne.symm hd

/-- A comment between marks leaves nothing. -/
theorem stripFrom_block (hc : ¬ ['*', '/'] <:+: content) (cs : List Char) :
    stripFrom .blockComment (content ++ '*' :: '/' :: cs) = stripFrom .code cs := by
  induction content with
  | nil => rfl
  | cons d content ih =>
    have hbehind : ¬ ['*', '/'] <:+: content := fun h =>
      hc (h.trans (List.suffix_cons d content).isInfix)
    rw [List.cons_append, stripFrom, ih hbehind]
    rintro rest rfl he
    cases content with
    | nil => cases he
    | cons e content =>
      obtain ⟨rfl, -⟩ := List.cons.inj he
      exact hc ⟨[], content, rfl⟩

/-- A string stays as it is. -/
theorem stripFrom_isInner (h : IsInner inner) (cs : List Char) :
    stripFrom .string (inner ++ '"' :: cs) = inner ++ '"' :: stripFrom .code cs := by
  induction h with
  | nil => rfl
  | plain hq hb _ ih => rw [List.cons_append, stripFrom_string_cons hq hb, ih, List.cons_append]
  | escaped _ ih =>
    rw [List.cons_append, List.cons_append, stripFrom, ih]
    rfl

namespace Commented

/-- There is no comment in a text that comments are put into. -/
theorem stripComments_left (h : Commented a b) : stripComments a = a := by
  unfold stripComments
  induction h with
  | nil => rfl
  | gap hg _ ih => rw [stripFrom_gap hg, ih]
  | mark hc _ ih => rw [stripFrom_mark hc, ih]
  | letter hc _ _ ih => rw [stripFrom_letter hc, ih]
  | string hi _ ih => rw [stripFrom, stripFrom_isInner hi, ih]
  | line _ _ ih => exact ih
  | block _ _ ih => exact ih

/-- Where no word goes on, none does without the comments. -/
theorem startsWord_eq_false (h : Commented a b) (ha : startsWord a = false) :
    startsWord (stripComments b) = false := by
  unfold stripComments
  induction h with
  | nil => rfl
  | gap hg _ _ =>
    rw [stripFrom_gap hg]
    exact ha
  | mark hc _ _ =>
    rw [stripFrom_mark hc]
    exact ha
  | letter hc _ _ _ =>
    rw [startsWord_cons, hc] at ha
    cases ha
  | string hi _ _ =>
    rw [stripFrom]
    exact ha
  | line hc _ _ =>
    rw [stripFrom, stripFrom_line hc]
    rfl
  | block hc _ ih =>
    rw [stripFrom, stripFrom_block hc]
    exact ih ha

/-- Without its comments a text goes on inside a word just if it did before. -/
theorem startsWord_stripComments (h : Commented a b) (hw : startsWord a = startsWord b) :
    startsWord (stripComments b) = startsWord a := by
  cases ha : startsWord a with
  | false => exact h.startsWord_eq_false ha
  | true =>
    rw [ha] at hw
    cases b with
    | nil => cases hw
    | cons c b =>
      rw [stripComments, stripFrom_letter hw.symm]
      exact hw.symm

/-- Without its comments a text has the tokens that it had before they were put in; by induction on
how they were put in. -/
theorem sameTokens (h : Commented a b) : SameTokens a (stripComments b) := by
  have hstrip := @startsWord_stripComments
  unfold stripComments at hstrip ⊢
  induction h with
  | nil => exact .rest []
  | gap hg _ ih =>
    rw [stripFrom_gap hg]
    exact .gapLeft hg (.gapRight hg ih)
  | mark hc _ ih =>
    rw [stripFrom_mark hc]
    exact .mark hc ih
  | letter hc hw h ih =>
    rw [stripFrom_letter hc]
    exact .letter hc (hstrip h hw).symm ih
  | string hi _ ih =>
    rw [stripFrom, stripFrom_isInner hi]
    exact .string hi ih
  | line hc _ ih =>
    rw [stripFrom, stripFrom_line hc]
    exact .gapRight (by decide) ih
  | block hc _ ih =>
    rw [stripFrom, stripFrom_block hc]
    exact ih

end Commented

/-- There is no comment in a JSON text. -/
theorem stripComments_of_isJson (h : IsJson cs) : stripComments cs = cs :=
  (Commented.of_isJson h).stripComments_left

/-! ## Once is enough -/

/-- The mode that the text left over is in where the text is in a mode : it has no comments. -/
def Mode.outside : Mode → Mode
  | .string => .string
  | _ => .code

/-- A character that opens no comment is not taken out. -/
theorem head?_stripFrom_code (hs : cs.head? ≠ some '/') :
    (stripFrom .code cs).head? = cs.head? := by
  cases cs with
  | nil => rfl
  | cons c cs =>
    have hc : c ≠ '/' := fun he => hs (congrArg some he)
    by_cases hq : c = '"'
    · subst hq
      rfl
    · rw [stripFrom_code_cons hc hq]
      rfl

/-- A slash alone opens no comment. -/
theorem stripFrom_slash (hline : cs.head? ≠ some '/') (hblock : cs.head? ≠ some '*') :
    stripFrom .code ('/' :: cs) = '/' :: stripFrom .code cs := by
  rw [stripFrom]
  · rintro rest - rfl
    exact hline rfl
  · rintro rest - rfl
    exact hblock rfl
  · exact fun hq => absurd hq (by decide)

/-- What is left has no comments, in the mode that it is in. -/
theorem stripFrom_idem (mode : Mode) (cs : List Char) :
    stripFrom mode.outside (stripFrom mode cs) = stripFrom mode cs := by
  fun_induction stripFrom mode cs with
  | case1 mode => cases mode <;> rfl
  | case2 _ ih | case3 _ ih => exact ih
  | case4 _ ih | case7 _ ih | case9 _ ih => exact congrArg (List.cons _) ih
  | case5 c cs hline hblock hq ih =>
    by_cases hs : c = '/'
    · -- what stands behind a slash that stays does not open a comment with it, and stays too
      subst hs
      have hslash : cs.head? ≠ some '/' := fun hc =>
        let ⟨rest, he⟩ := List.head?_eq_some_iff.1 hc
        hline rest rfl he
      have hstar : cs.head? ≠ some '*' := fun hc =>
        let ⟨rest, he⟩ := List.head?_eq_some_iff.1 hc
        hblock rest rfl he
      rw [← head?_stripFrom_code hslash] at hstar hslash
      exact (stripFrom_slash hslash hstar).trans (congrArg _ ih)
    · exact (stripFrom_code_cons hs hq _).trans (congrArg _ ih)
  | case6 c _ ih => exact congrArg (fun rest => '\\' :: c :: rest) ih
  | case8 c cs hescaped hq ih =>
    by_cases hb : c = '\\'
    · subst hb
      cases cs with
      | nil => rfl
      | cons d cs => exact (hescaped d cs rfl rfl).elim
    · exact (stripFrom_string_cons hq hb _).trans (congrArg _ ih)
  | case10 _ _ _ ih | case11 _ ih | case12 _ _ _ ih => exact ih

/-- There is nothing to take out where comments were taken out. -/
theorem stripComments_idem (cs : List Char) : stripComments (stripComments cs) = stripComments cs :=
  stripFrom_idem .code cs

end SvgComponent.Config
