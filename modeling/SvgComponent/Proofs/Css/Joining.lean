import SvgComponent.Proofs.Css.Brackets
import SvgComponent.Proofs.Css.Closing

/-!
# Declarations on both sides of a semicolon

A semicolon that is a token of its own outside all brackets (`Separates`) cuts a list of
declarations in two : the declarations of the whole are those of the text in front of it,
followed by those of the text behind it (`declarations_join`). What is wrong on one side is
skipped up to that semicolon at most, and leaves nothing behind.
-/

namespace SvgComponent.Css

/-! ## Declarations -/

/-- What stands between declarations. -/
def isSeparator (p : Part) : Bool :=
  p.kind = .blank || p.kind = .comment || p.kind = .semicolon || p.kind = .closer '}'

theorem collect_nil : collect [] = [] := by rw [collect]

/-- What stands between declarations is passed over. -/
theorem collect_separator {p : Part} (h : isSeparator p = true) (ps : List Part) :
    collect (p :: ps) = collect ps := by
  simp only [isSeparator, Bool.or_eq_true, decide_eq_true_eq] at h
  rw [collect]
  rcases h with ((h | h) | h) | h <;> simp only [h]

theorem collect_atKeyword {p : Part} (h : p.kind = .atKeyword) (ps : List Part) :
    collect (p :: ps) = collect (after endsRule ps) := by
  rw [collect, h]

/-- A name starts a declaration, which goes up to a semicolon. -/
theorem collect_ident {p : Part} {name : List Char} (h : p.kind = .ident name) (ps : List Part) :
    collect (p :: ps) = (declaration? name (ps.takeWhile (!isSemicolon ·))).toList ++
      collect (after isSemicolon ps) := by
  rw [collect, h]

theorem collect_other {p : Part} (hsep : isSeparator p = false) (hat : p.kind ≠ .atKeyword)
    (hident : ∀ name, p.kind ≠ .ident name) (ps : List Part) :
    collect (p :: ps) = collect (after isSemicolon ps) := by
  simp only [isSeparator, Bool.or_eq_false_iff, decide_eq_false_iff_not] at hsep
  rw [collect]
  split <;> simp_all

section Semicolon

variable {p : Part} {ends : Part → Bool}

/-- What is skipped ends in front of a semicolon, or at it. -/
theorem after_append (hp : ends p = true) (ps qs : List Part) :
    after ends (ps ++ p :: qs) = after ends ps ++ p :: qs ∨
      after ends ps = [] ∧ after ends (ps ++ p :: qs) = qs := by
  unfold after
  rw [List.dropWhile_append]
  cases hd : ps.dropWhile (!ends ·) with
  | nil => exact .inr ⟨rfl, by simp [hp]⟩
  | cons q rest => exact .inl rfl

/-- What is skipped up to its end is skipped within the first text, which the separating part
ends. -/
theorem collect_after_append {ps qs : List Part} (hp : ends p = true)
    (ih : collect (after ends ps ++ p :: qs) = collect (after ends ps) ++ collect qs) :
    collect (after ends (ps ++ p :: qs)) = collect (after ends ps) ++ collect qs := by
  obtain h | ⟨hnil, h⟩ := after_append hp ps qs
  · rw [h, ih]
  · rw [h, hnil, collect_nil, List.nil_append]

/-- What goes up to a semicolon does not reach the second text. -/
theorem takeWhile_append_semicolon (hp : p.kind = .semicolon) (ps qs : List Part) :
    (ps ++ p :: qs).takeWhile (!isSemicolon ·) = ps.takeWhile (!isSemicolon ·) := by
  have hstop : isSemicolon p = true := by simp [isSemicolon, hp]
  induction ps with
  | nil => simp [hstop]
  | cons q ps ih => rw [List.cons_append, List.takeWhile_cons, List.takeWhile_cons, ih]

/-- The declarations in front of a semicolon and those behind it are read apart. -/
theorem collect_append (hp : p.kind = .semicolon) (ps qs : List Part) :
    collect (ps ++ p :: qs) = collect ps ++ collect qs := by
  have hstop : isSemicolon p = true := by simp [isSemicolon, hp]
  have hrule : endsRule p = true := by simp [endsRule, hp]
  have hsep : isSeparator p = true := by simp [isSeparator, hp]
  have hskip (q : Part) (ps : List Part) (hq : isSeparator q = true)
      (ih : collect (ps ++ p :: qs) = collect ps ++ collect qs) :
      collect (q :: ps ++ p :: qs) = collect (q :: ps) ++ collect qs := by
    rw [List.cons_append, collect_separator hq, collect_separator hq, ih]
  induction ps using collect.induct with
  | case1 => rw [List.nil_append, collect_separator hsep, collect_nil, List.nil_append]
  | case2 q ps hq ih => exact hskip q ps (by simp [isSeparator, hq]) ih
  | case3 q ps hq ih => exact hskip q ps (by simp [isSeparator, hq]) ih
  | case4 q ps hq ih => exact hskip q ps (by simp [isSeparator, hq]) ih
  | case5 q ps hq ih => exact hskip q ps (by simp [isSeparator, hq]) ih
  | case6 q ps hq ih =>
    rw [List.cons_append, collect_atKeyword hq, collect_atKeyword hq,
      collect_after_append hrule ih]
  | case7 q ps name hq ih =>
    rw [List.cons_append, collect_ident hq, collect_ident hq, takeWhile_append_semicolon hp,
      collect_after_append hstop ih, List.append_assoc]
  | case8 q ps h1 h2 h3 h4 hat hident ih =>
    have hq : isSeparator q = false := by
      simp only [isSeparator, Bool.or_eq_false_iff, decide_eq_false_iff_not]
      exact ⟨⟨⟨h1, h2⟩, h3⟩, h4⟩
    rw [List.cons_append, collect_other hq hat hident, collect_other hq hat hident,
      collect_after_append hstop ih]

end Semicolon

/-- The parts on both sides of a semicolon outside brackets are collected by themselves. -/
theorem collect_parts_append {before : List Token}
    (h : openBrackets [] (before.map (·.kind)) = []) (after : List Token) :
    collect (parts (before ++ ⟨.semicolon, [';']⟩ :: after)) =
      collect (parts before) ++ collect (parts after) := by
  have hsemicolon : parts (⟨.semicolon, [';']⟩ :: after) =
      ⟨.semicolon, [';']⟩ :: parts after := parts_cons (by simp) after
  rw [parts_append _ h, hsemicolon, collect_append rfl]

/-! ## The semicolon that joins two texts -/

/-- The semicolon between two texts is a token of its own, outside all brackets. -/
def Separates (a b : List Char) : Prop :=
  ∃ before after, tokens (a ++ ';' :: b) = before ++ ⟨.semicolon, [';']⟩ :: after ∧
    before.flatMap (·.lexeme) = a ∧ openBrackets [] (before.map (·.kind)) = []

variable {a b : List Char}

theorem Separates.openBrackets (h : Separates a b) :
    openBrackets [] ((tokens a).map (·.kind)) = [] := by
  obtain ⟨before, after, ht, hl, hopen⟩ := h
  rwa [← (splits_of_split ht hl).1]

/-- A text that ends in front of a semicolon is cut off from every edge. -/
theorem Separates.splits {edge : List Char} (h : Separates a b) (he : IsEdge edge) :
    ∃ ts gap out, SplitsAt a edge ts gap out := by
  obtain ⟨before, after, ht, hl, -⟩ := h
  exact (splits_of_split ht hl).2.2 edge he

/-- The tokens of the whole are those of both texts and the semicolon. -/
theorem Separates.tokens_eq (h : Separates a b) :
    tokens (a ++ ';' :: b) = tokens a ++ ⟨.semicolon, [';']⟩ :: tokens b := by
  obtain ⟨before, after, ht, hl, -⟩ := h
  obtain ⟨hbefore, hafter, -⟩ := splits_of_split ht hl
  rw [ht, hafter, hbefore, tokens_semicolon]

/-- A semicolon separates two texts if the tokens are theirs and no bracket is open in front of
it. -/
theorem separates_iff : Separates a b ↔
    tokens (a ++ ';' :: b) = tokens a ++ ⟨.semicolon, [';']⟩ :: tokens b ∧
      Css.openBrackets [] ((tokens a).map (·.kind)) = [] :=
  ⟨fun h => ⟨h.tokens_eq, h.openBrackets⟩,
    fun h => ⟨tokens a, tokens b, h.1, flatMap_lexeme_tokens a, h.2⟩⟩

instance : Decidable (Separates a b) := decidable_of_iff _ separates_iff.symm

/-- Whatever stands on one side of a semicolon that separates has no effect on the other. -/
theorem declarations_join (h : Separates a b) :
    declarations (a ++ ';' :: b) = declarations a ++ declarations b := by
  rw [declarations, h.tokens_eq, collect_parts_append h.openBrackets]
  rfl

theorem declarations_join_rules :
    Separates "fill red; p \x7bq: r;\x7d 'a;b' ) !".toList "@x \x7b;\x7d y: z(; : u".toList ∧
      declarations ("fill red; p \x7bq: r;\x7d 'a;b' ) !".toList ++
          ';' :: "@x \x7b;\x7d y: z(; : u".toList) =
        declarations "fill red; p \x7bq: r;\x7d 'a;b' ) !".toList ++
          declarations "@x \x7b;\x7d y: z(; : u".toList := by
  have h :
      Separates "fill red; p \x7bq: r;\x7d 'a;b' ) !".toList "@x \x7b;\x7d y: z(; : u".toList := by
    decide +kernel
  exact ⟨h, declarations_join h⟩

example : declarations "fill; stroke: 'a;b'; : x; r \x7b;\x7d y; width: 1".toList =
    [⟨"stroke".toList, "'a;b'".toList⟩, ⟨"width".toList, "1".toList⟩] := by decide +kernel

end SvgComponent.Css
