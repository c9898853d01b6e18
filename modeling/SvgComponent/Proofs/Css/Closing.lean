import SvgComponent.Proofs.Css.Settling

/-!
# Tokens of a closed text

The tokens of a text are the text cut into pieces (`flatMap_lexeme_tokens`). When a semicolon
behind a text starts a token of its own, the tokens in front of it are those of the text alone,
and any other edge changes them only by the blanks that the last token takes from it
(`splits_of_split`).
-/

namespace SvgComponent.Css

variable {cs edge rest : List Char}

/-! ## Tokens and their texts -/

/-- The first token is the text in front of what it leaves. -/
theorem tokens_of_readToken {c : Char} {r s lexeme : List Char} {kind : Kind}
    (h : readToken c r = (kind, s)) (hl : lexeme ++ s = c :: r) :
    tokens (c :: r) = ⟨kind, lexeme⟩ :: tokens s := by
  have htake : (c :: r).take ((c :: r).length - s.length) = lexeme := by
    rw [← hl, List.length_append, Nat.add_sub_cancel, List.take_left']
    rfl
  rw [tokens, h]
  simp only [htake]

theorem exists_lexeme (c : Char) (r : List Char) :
    ∃ lexeme, lexeme ++ (readToken c r).2 = c :: r :=
  (readToken_suffix c r).trans (List.suffix_cons c r)

theorem tokens_nil : tokens [] = [] := by rw [tokens]

theorem tokens_semicolon (rest : List Char) :
    tokens (';' :: rest) = ⟨.semicolon, [';']⟩ :: tokens rest := tokens_of_readToken rfl rfl

/-- The tokens of a text are the text. -/
theorem flatMap_lexeme_tokens (cs : List Char) : (tokens cs).flatMap (·.lexeme) = cs := by
  induction cs using tokens.induct with
  | case1 => rw [tokens_nil, List.flatMap_nil]
  | case2 c r token ih =>
    obtain ⟨lexeme, h⟩ := exists_lexeme c r
    rw [tokens_of_readToken (Prod.eta _).symm h, List.flatMap_cons, ih, h]

/-! ## In front of an edge -/

/-- The tokens of a text in front of an edge : `ts` up to the edge, of which the last takes the
blanks `gap`, and those of `out`. -/
structure SplitsAt (cs edge : List Char) (ts : List Token) (gap out : List Char) : Prop where
  edge_eq : edge = gap ++ out
  isBlank : ∀ c ∈ gap, isBlank c = true
  tokens_eq : tokens (cs ++ edge) = ts ++ tokens out
  kind_eq : ts.map (·.kind) = (tokens cs).map (·.kind)
  lexeme_eq : ts.flatMap (·.lexeme) = cs ++ gap

theorem splitsAt_nil (edge : List Char) : SplitsAt [] edge [] [] edge :=
  ⟨rfl, by simp, rfl, by rw [tokens_nil], rfl⟩

/-- A token that ends in front of the edge is split off. -/
theorem SplitsAt.cons {c : Char} {r s lexeme gap out : List Char} {kind : Kind} {ts : List Token}
    (hread : readToken c r = (kind, s)) (hedge : readToken c (r ++ edge) = (kind, s ++ edge))
    (hl : lexeme ++ s = c :: r) (h : SplitsAt s edge ts gap out) :
    SplitsAt (c :: r) edge (⟨kind, lexeme⟩ :: ts) gap out where
  edge_eq := h.edge_eq
  isBlank := h.isBlank
  tokens_eq := by
    have hl' : lexeme ++ (s ++ edge) = c :: (r ++ edge) := by
      rw [← List.append_assoc, hl, List.cons_append]
    rw [List.cons_append, tokens_of_readToken hedge hl', h.tokens_eq, List.cons_append]
  kind_eq := by rw [tokens_of_readToken hread hl, List.map_cons, List.map_cons, h.kind_eq]
  lexeme_eq := by rw [List.flatMap_cons, h.lexeme_eq, ← List.append_assoc, hl]

/-- The last token, with the blanks that it takes from the edge. -/
theorem splitsAt_last {c : Char} {r gap out : List Char} {kind : Kind}
    (hread : readToken c r = (kind, [])) (hedge : readToken c (r ++ edge) = (kind, out))
    (he : edge = gap ++ out) (hgap : ∀ c ∈ gap, isBlank c = true) :
    SplitsAt (c :: r) edge [⟨kind, c :: r ++ gap⟩] gap out where
  edge_eq := he
  isBlank := hgap
  tokens_eq := by
    have hl : c :: r ++ gap ++ out = c :: (r ++ edge) := by
      rw [he, List.append_assoc, List.cons_append]
    rw [List.cons_append, tokens_of_readToken hedge hl, List.singleton_append]
  kind_eq := by rw [tokens_of_readToken hread (List.append_nil _), tokens_nil]; rfl
  lexeme_eq := by rw [List.flatMap_singleton]

/-- A token that ends in front of the edge, or takes blanks of it, is split off. -/
theorem exists_splitsAt_cons {c : Char} {r s t lexeme : List Char} {kind : Kind}
    (hread : readToken c r = (kind, s)) (hedge : readToken c (r ++ edge) = (kind, t))
    (hleaves : Leaves edge s t) (hl : lexeme ++ s = c :: r)
    (h : ∃ ts gap out, SplitsAt s edge ts gap out) :
    ∃ ts gap out, SplitsAt (c :: r) edge ts gap out := by
  cases hleaves with
  | all =>
    obtain ⟨ts, gap, out, h⟩ := h
    exact ⟨_, gap, out, h.cons hread hedge hl⟩
  | blanks gap hgap he => exact ⟨_, gap, t, splitsAt_last hread hedge he hgap⟩

/-- A token that ends in front of a semicolon ends there on its own, and in front of every
edge. -/
theorem ends_readToken {c : Char} {r lexeme s : List Char} (hl : lexeme ++ s = c :: r)
    (h : lexeme ++ (readToken c (r ++ ';' :: rest)).2 = c :: (r ++ ';' :: rest)) :
    (readToken c r).2 = s ∧ ∀ edge, IsEdge edge →
      (readToken c (r ++ edge)).1 = (readToken c r).1 ∧
        Leaves edge s (readToken c (r ++ edge)).2 := by
  obtain hcross | ⟨hends, hfst⟩ := reads_readToken c r
  · have hlength := congrArg List.length h
    have hlength' := congrArg List.length hl
    have hle := (hcross rest).length_le
    simp only [List.length_append, List.length_cons] at hlength hlength' hle
    omega
  · have hs : (readToken c r).2 = s := by
      have heq : (readToken c (r ++ ';' :: rest)).2 = (readToken c r).2 ++ ';' :: rest :=
        (hends _ (.semicolon rest)).eq_of_semicolon
      rw [heq, ← List.append_assoc, ← List.cons_append, ← hl, List.append_cancel_right_eq,
        List.append_cancel_left_eq] at h
      exact h
    exact ⟨hs, fun edge he => ⟨hfst edge he, hs ▸ hends edge he⟩⟩

variable {before after : List Token}

/-- When tokens end in front of a semicolon, the texts on both sides of this place have their
tokens to themselves. -/
theorem splits_of_split (h : tokens (cs ++ ';' :: rest) = before ++ after)
    (hl : before.flatMap (·.lexeme) = cs) :
    before = tokens cs ∧ after = tokens (';' :: rest) ∧
      ∀ edge, IsEdge edge → ∃ ts gap out, SplitsAt cs edge ts gap out := by
  induction before generalizing cs with
  | nil =>
    rw [List.flatMap_nil] at hl
    subst hl
    exact ⟨tokens_nil.symm, h.symm, fun edge _ => ⟨[], [], edge, splitsAt_nil edge⟩⟩
  | cons t before ih =>
    rw [List.flatMap_cons] at hl
    rcases cs with - | ⟨c, r⟩
    · rw [List.nil_append, tokens_semicolon, List.cons_append, List.cons.injEq] at h
      rw [← h.1] at hl
      simp at hl
    · obtain ⟨lexeme, hlexeme⟩ := exists_lexeme c (r ++ ';' :: rest)
      rw [List.cons_append, tokens_of_readToken (Prod.eta _).symm hlexeme, List.cons_append,
        List.cons.injEq] at h
      obtain ⟨rfl, h⟩ := h
      obtain ⟨hs, hends⟩ := ends_readToken hl hlexeme
      have hread : readToken c r = ((readToken c r).1, before.flatMap (·.lexeme)) := by rw [← hs]
      have hrest : (readToken c (r ++ ';' :: rest)).2 = before.flatMap (·.lexeme) ++ ';' :: rest :=
        (hends _ (.semicolon rest)).2.eq_of_semicolon
      have hkind := (hends _ (.semicolon rest)).1
      obtain ⟨hbefore, hafter, hsplit⟩ := ih (hrest ▸ h) rfl
      refine ⟨by rw [tokens_of_readToken hread hl, ← hbefore, hkind], hafter, fun edge he => ?_⟩
      have hedge : readToken c (r ++ edge) =
          ((readToken c r).1, (readToken c (r ++ edge)).2) := by rw [← (hends edge he).1]
      exact exists_splitsAt_cons hread hedge (hends edge he).2 hl (hsplit edge he)

end SvgComponent.Css
