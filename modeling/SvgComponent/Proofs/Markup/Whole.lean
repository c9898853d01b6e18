import SvgComponent.Proofs.Markup.Lexing
import SvgComponent.Proofs.Text.Marks
import SvgComponent.Proofs.Text.Runs

/-!
# Tokens that are read back

A token is whole if it is read back from its lexeme whatever follows (`Token.Whole`), and whole
tokens are read back from all their lexemes (`exists_lexes`). For each kind of token there is
a condition on its content under which it is whole : the content does not hold the mark that
ends it. For tags that is a matter of the quotes in them, which `Passes` keeps.

Every token that is read from a text meets the condition of its kind (`Token.whole_of_scan`).
-/

namespace SvgComponent.Markup

open Text

/-- A token that is read back from its lexeme, whatever follows; only a run of text needs the
text to end or a `<` to come next. -/
structure Token.Whole (token : Token) : Prop where
  ne_nil : token.lexeme ≠ []
  scan_append (rest : List Char) (h : token.IsText → ∀ c ∈ rest.head?, c = '<') :
    Token.scan (token.lexeme ++ rest) = .ok (token, rest)

theorem head?_lexeme {token : Token} (h : ¬ token.IsText) : token.lexeme.head? = some '<' := by
  cases token <;> first | rfl | exact absurd trivial h

/-- Whole tokens are read back when they are written one after the other, provided that no run
of text follows another. -/
theorem exists_lexes {tokens : List Token} (hw : ∀ token ∈ tokens, token.Whole)
    (hc : tokens.IsChain fun a b => ¬ (a.IsText ∧ b.IsText)) (pos : Nat) :
    ∃ placed, Lexes pos (tokens.flatMap Token.lexeme) placed ∧ placed.map Prod.snd = tokens := by
  induction tokens generalizing pos with
  | nil => exact ⟨[], .nil, rfl⟩
  | cons token rest ih =>
    rw [List.isChain_cons] at hc
    obtain ⟨hnext, hchain⟩ := hc
    obtain ⟨hne, hscan⟩ := hw token List.mem_cons_self
    obtain ⟨placed, hl, hp⟩ := ih (fun t ht => hw t (List.mem_cons_of_mem token ht)) hchain
      (pos + width token.lexeme)
    have hfollow : token.IsText → ∀ c ∈ (rest.flatMap Token.lexeme).head?, c = '<' := by
      intro ht c hm
      cases rest with
      | nil => simp at hm
      | cons next others =>
        have hhead := head?_lexeme fun hn => hnext next rfl ⟨ht, hn⟩
        rw [List.flatMap_cons, List.head?_append, hhead] at hm
        exact (Option.some.inj hm).symm
    refine ⟨(pos, token) :: placed, ?_, by rw [List.map_cons, hp]⟩
    rw [List.flatMap_cons]
    exact .cons (List.append_ne_nil_of_left_ne_nil hne _) (hscan _ hfollow) hl

/-! ## Tags -/

namespace Token

/-- A part of a tag that does not end it, and by which the open quote changes. -/
def Passes (before : Option Char) (cs : List Char) (after : Option Char) : Prop :=
  ∀ rest, cutTag? before (cs ++ rest) = (cutTag? after rest).map fun p => (cs ++ p.1, p.2)

theorem Passes.nil (quote : Option Char) : Passes quote [] quote := by
  intro rest
  simp

/-- A character that does not end a tag is passed over, and may open or close a quote. -/
theorem Passes.cons {before after : Option Char} {c : Char} {cs : List Char}
    (hc : ¬ (before = none ∧ c = '>')) (h : Passes (quoteAfter before c) cs after) :
    Passes before (c :: cs) after := by
  intro rest
  rw [List.cons_append, cutTag?, if_neg hc, h rest, Option.map_map]
  rfl

/-- Parts of a tag are passed over one after the other. -/
theorem Passes.append {before between after : Option Char} {a b : List Char}
    (ha : Passes before a between) (hb : Passes between b after) :
    Passes before (a ++ b) after := by
  intro rest
  rw [List.append_assoc, ha, hb, Option.map_map]
  simp only [Function.comp_def, List.append_assoc]

/-- Without quotes and `>` nothing happens. -/
theorem passes_plain {cs : List Char} (h : ∀ c ∈ cs, c ≠ '"' ∧ c ≠ '\'' ∧ c ≠ '>') :
    Passes none cs none := by
  induction cs with
  | nil => exact .nil none
  | cons c cs ih =>
    obtain ⟨hd, hs, hg⟩ := h c List.mem_cons_self
    refine .cons (fun hc => hg hc.2) ?_
    rw [quoteAfter, if_neg (not_or.2 ⟨hd, hs⟩)]
    exact ih fun d hm => h d (List.mem_cons_of_mem c hm)

/-- In quotes anything may stand but the quote. -/
theorem passes_quoted {q : Char} {cs : List Char} (h : q ∉ cs) :
    Passes (some q) cs (some q) := by
  induction cs with
  | nil => exact .nil (some q)
  | cons c cs ih =>
    rw [List.mem_cons, not_or] at h
    refine .cons (by simp) ?_
    rw [quoteAfter, if_neg (Ne.symm h.1)]
    exact ih h.2

/-- What is passed over from outside quotes to outside quotes is the whole content of a tag. -/
theorem cutTag?_of_passes {content : List Char} (h : Passes none content none)
    (rest : List Char) : cutTag? none (content ++ '>' :: rest) = some (content, rest) := by
  rw [h, cutTag?, if_pos ⟨rfl, rfl⟩, Option.map_some, List.append_nil]

/-! ## Each kind of token -/

theorem ofTagContent_of_getLast? {content : List Char} (h : content.getLast? ≠ some '/') :
    ofTagContent content = opening content := by
  unfold ofTagContent
  split
  · rename_i r hr
    exact absurd (by rw [← List.head?_reverse, hr, List.head?_cons]) h
  · rfl

theorem ofTagContent_append_slash (content : List Char) :
    ofTagContent (content ++ ['/']) = empty content := by
  simp [ofTagContent]

/-- A tag is read by its content, if that starts with no mark of another token. -/
theorem scanMarked_tag {content : List Char} (hp : Passes none content none)
    (hh : ∀ c ∈ content.head?, c ≠ '!' ∧ c ≠ '?' ∧ c ≠ '/') (rest : List Char) :
    scanMarked (content ++ '>' :: rest) = .ok (ofTagContent content, rest) := by
  have hcut := cutTag?_of_passes hp rest
  unfold scanMarked
  split
  · rename_i r hr
    cases content <;> simp_all
  · rename_i r hr
    cases content <;> simp_all
  · rename_i r hr
    cases content <;> simp_all
  · rw [hcut]

/-- A run of text is whole. -/
theorem whole_text {raw : List Char} (hne : raw ≠ []) (h : '<' ∉ raw) : (text raw).Whole := by
  refine ⟨hne, fun rest hr => ?_⟩
  have hraw : ∀ c ∈ raw, decide (c ≠ '<') = true := by
    intro c hc
    rw [decide_eq_true_eq]
    rintro rfl
    exact h hc
  have hrest : ∀ c ∈ rest.head?, decide (c ≠ '<') = false := by
    intro c hc
    rw [hr trivial c hc]
    rfl
  obtain ⟨c, cs, rfl⟩ := List.exists_cons_of_ne_nil hne
  unfold scan
  split
  · rename_i r hc
    rw [lexeme, List.cons_append, List.cons.injEq] at hc
    exact absurd (hc.1 ▸ List.mem_cons_self) h
  · rw [lexeme, takeWhile_run hraw hrest, dropWhile_run hraw hrest]

/-- A tag is whole if its content closes its quotes and starts with no mark of another token. -/
theorem whole_ofTagContent {content : List Char} (hp : Passes none content none)
    (hh : ∀ c ∈ content.head?, c ≠ '!' ∧ c ≠ '?' ∧ c ≠ '/') : (ofTagContent content).Whole := by
  refine ⟨by simp [lexeme_ofTagContent], fun rest _ => ?_⟩
  have hs := scanMarked_tag hp hh rest
  rw [lexeme_ofTagContent]
  simpa [scan] using hs

theorem whole_opening {content : List Char} (hp : Passes none content none)
    (hh : ∀ c ∈ content.head?, c ≠ '!' ∧ c ≠ '?' ∧ c ≠ '/')
    (hl : content.getLast? ≠ some '/') : (opening content).Whole := by
  have hw := whole_ofTagContent hp hh
  rwa [ofTagContent_of_getLast? hl] at hw

theorem whole_empty {content : List Char} (hp : Passes none content none)
    (hne : content ≠ []) (hh : ∀ c ∈ content.head?, c ≠ '!' ∧ c ≠ '?' ∧ c ≠ '/') :
    (empty content).Whole := by
  have hslash : Passes none (content ++ ['/']) none := hp.append (passes_plain (by simp))
  have hw := whole_ofTagContent hslash (by rwa [List.head?_append_of_ne_nil _ hne])
  rwa [ofTagContent_append_slash] at hw

theorem whole_closing {content : List Char} (hp : Passes none content none) :
    (closing content).Whole := by
  refine ⟨by simp [lexeme], fun rest _ => ?_⟩
  simp [lexeme, scan, scanMarked, cutTag?_of_passes hp]

/-- A comment is whole if its end mark is not in it. -/
theorem whole_comment {content : List Char} (h : ¬ commentEnd <:+: content) :
    (comment content).Whole := by
  refine ⟨by simp [lexeme], fun rest _ => ?_⟩
  have hcut : cutAt? commentEnd (content ++ (commentEnd ++ rest)) = some (content, rest) :=
    @cutAt?_append_mark ['-', '-'] '>' content rest (by decide) h
  have hstrip := stripMark?_append commentMark (content ++ (commentEnd ++ rest))
  simp only [lexeme, scan, scanMarked, List.cons_append, List.append_assoc]
  simp only [commentMark, List.cons_append, List.nil_append] at hstrip ⊢
  simp only [scanDeclaration, commentMark, hstrip, Option.bind_some, hcut]

/-- A section of characters is whole if its end mark is not in it. -/
theorem whole_cdata {content : List Char} (h : ¬ cdataEnd <:+: content) :
    (cdata content).Whole := by
  refine ⟨by simp [lexeme], fun rest _ => ?_⟩
  have hcut : cutAt? cdataEnd (content ++ (cdataEnd ++ rest)) = some (content, rest) :=
    @cutAt?_append_mark [']', ']'] '>' content rest (by decide) h
  have hstrip := stripMark?_append cdataMark (content ++ (cdataEnd ++ rest))
  simp only [lexeme, scan, scanMarked, List.cons_append, List.append_assoc]
  simp only [cdataMark, List.cons_append, List.nil_append] at hstrip ⊢
  simp only [scanDeclaration, cdataMark, hstrip, Option.bind_some, hcut]

/-- An instruction is whole if its end mark is not in it, not even begun by the `<?` in front. -/
theorem whole_instruction {content : List Char} (h : ¬ instructionEnd <:+: content)
    (hh : content.head? ≠ some '>') : (instruction content).Whole := by
  refine ⟨by simp [lexeme], fun rest _ => ?_⟩
  have hcut : cutAt? instructionEnd (content ++ (instructionEnd ++ rest)) = some (content, rest) :=
    @cutAt?_append_mark ['?'] '>' content rest (by decide) h
  simp only [lexeme, scan, scanMarked, List.cons_append, List.append_assoc]
  unfold scanInstruction
  split
  · rename_i r hr
    cases content <;> simp_all [instructionEnd]
  · rw [hcut]

/-! ## Every token that is read -/

/-- The content that a tag is cut off with closes its quotes. -/
theorem passes_of_cutTag? {before : Option Char} {cs content rest : List Char}
    (h : cutTag? before cs = some (content, rest)) : Passes before content none := by
  induction cs generalizing before content with
  | nil => cases h
  | cons c cs ih =>
    rw [cutTag?] at h
    split at h
    · rename_i hc
      cases h
      rw [hc.1]
      exact .nil none
    · rename_i hc
      obtain ⟨⟨content', rest'⟩, hp, he⟩ := Option.map_eq_some_iff.1 h
      cases he
      exact .cons hc (ih hp)

/-- A document type is cut off at the same place whatever follows it. -/
theorem cutDoctype?_append {depth : Nat} {cs content rest : List Char}
    (h : cutDoctype? depth cs = some (content, rest)) (other : List Char) :
    cutDoctype? depth (content ++ '>' :: other) = some (content, other) := by
  induction cs generalizing depth content with
  | nil => cases h
  | cons c cs ih =>
    rw [cutDoctype?] at h
    split at h
    · rename_i hc
      cases h
      rw [List.nil_append, cutDoctype?, if_pos ⟨rfl, hc.2⟩]
    · rename_i hc
      obtain ⟨⟨content', rest'⟩, hp, he⟩ := Option.map_eq_some_iff.1 h
      cases he
      rw [List.cons_append, cutDoctype?, if_neg hc, ih hp]
      rfl

/-- A document type is whole if its brackets are closed. -/
theorem whole_doctype {content cs rest : List Char}
    (hc : cutDoctype? 0 cs = some (content, rest)) (hd : ∀ c ∈ content.head?, c = 'D' ∨ c = 'd')
    (hk : isDoctypeKeyword (content.take 7) = true) (hn : ¬ (content.drop 7).all isGap = true) :
    (doctype (content.take 7) (content.drop 7)).Whole := by
  refine ⟨by simp [lexeme], fun other _ => ?_⟩
  have hcut := cutDoctype?_append hc other
  have hlexeme : (doctype (content.take 7) (content.drop 7)).lexeme ++ other =
      '<' :: '!' :: (content ++ '>' :: other) := by
    rw [← List.take_append_drop 7 content]
    simp [lexeme]
  rw [hlexeme, scan, scanMarked]
  cases content with
  | nil => simp [isDoctypeKeyword, doctypeKeyword] at hk
  | cons c content =>
    rw [List.cons_append] at hcut ⊢
    have hmark := hd c rfl
    rw [scanDeclaration]
    · rw [if_pos hmark, hcut]
      simp only [hk, if_true, if_neg hn]
    · rintro rfl
      simp at hmark
    · rintro rfl
      simp at hmark

/-- What is read behind `<!` is whole. -/
theorem whole_of_scanDeclaration {cs rest : List Char} {token : Token}
    (h : scanDeclaration cs = .ok (token, rest)) : token.Whole := by
  unfold scanDeclaration at h
  split at h
  · split at h
    · rename_i hb
      cases h
      obtain ⟨mid, -, hc⟩ := Option.bind_eq_some_iff.1 hb
      exact whole_comment (not_infix_of_cutAt? (by decide) hc)
    · cases h
  · split at h
    · rename_i hb
      cases h
      obtain ⟨mid, -, hc⟩ := Option.bind_eq_some_iff.1 hb
      exact whole_cdata (not_infix_of_cutAt? (by decide) hc)
    · cases h
  · split at h
    · rename_i hmark
      split at h
      · rename_i hc
        split at h
        · rename_i hk
          split at h
          · cases h
          · rename_i hn
            cases h
            refine whole_doctype hc (fun c hm => ?_) hk hn
            have hfront := congrArg List.head? (eq_append_of_cutDoctype? hc)
            rw [List.head?_append, hm] at hfront
            cases hfront
            exact hmark
        · cases h
      · cases h
    · cases h
  · cases h

/-- What is read behind `<?` is whole. -/
theorem whole_of_scanInstruction {cs rest : List Char} {token : Token}
    (h : scanInstruction cs = .ok (token, rest)) : token.Whole := by
  unfold scanInstruction at h
  split at h
  · cases h
  · rename_i hhead
    split at h
    · rename_i hc
      cases h
      refine whole_instruction (not_infix_of_cutAt? (by decide) hc) fun hm => ?_
      have hcs := eq_append_of_cutAt? hc
      obtain ⟨content, rfl⟩ := List.head?_eq_some_iff.1 hm
      exact hhead _ hcs
    · cases h

/-- What is read behind `<` is whole. -/
theorem whole_of_scanMarked {cs rest : List Char} {token : Token}
    (h : scanMarked cs = .ok (token, rest)) : token.Whole := by
  unfold scanMarked at h
  split at h
  · exact whole_of_scanDeclaration h
  · exact whole_of_scanInstruction h
  · split at h
    · rename_i hc
      cases h
      exact whole_closing (passes_of_cutTag? hc)
    · cases h
  · rename_i hbang hquestion hslash
    split at h
    · rename_i hc
      cases h
      refine whole_ofTagContent (passes_of_cutTag? hc) fun c hm => ?_
      have hcs := eq_append_of_cutTag? hc
      obtain ⟨content, rfl⟩ := List.head?_eq_some_iff.1 hm
      refine ⟨?_, ?_, ?_⟩ <;> rintro rfl
      · exact hbang _ hcs
      · exact hquestion _ hcs
      · exact hslash _ hcs
    · cases h

/-- Whatever follows it in a text, a token that is read there is whole. -/
theorem whole_of_scan {cs rest : List Char} {token : Token} (hne : cs ≠ [])
    (h : scan cs = .ok (token, rest)) : token.Whole := by
  unfold scan at h
  split at h
  · exact whole_of_scanMarked h
  · rename_i hhead
    cases h
    obtain ⟨c, cs, rfl⟩ := List.exists_cons_of_ne_nil hne
    have hc : c ≠ '<' := fun he => hhead cs (by rw [he])
    exact whole_text (by simp [hc]) fun hm => by simpa using List.mem_takeWhile_imp hm

/-- A run of text is whole if it is not empty and no other token starts in it. -/
theorem whole_text_iff {raw : List Char} : (text raw).Whole ↔ raw ≠ [] ∧ '<' ∉ raw := by
  refine ⟨fun h => ⟨h.ne_nil, fun hm => ?_⟩, fun h => whole_text h.1 h.2⟩
  have hs := h.scan_append [] (by simp)
  rw [List.append_nil, lexeme] at hs
  unfold scan at hs
  split at hs
  · exact not_isText_of_scanMarked hs trivial
  · have hraw : raw.takeWhile (· ≠ '<') = raw := by
      injection hs with hs
      injection hs with hs
      injection hs
    rw [← hraw] at hm
    simpa using List.mem_takeWhile_imp hm

end Token

/-- All tokens of a text are whole. -/
theorem Lexes.whole {pos : Nat} {cs : List Char} {tokens : List (Nat × Token)}
    (h : Lexes pos cs tokens) : ∀ p ∈ tokens, p.2.Whole := by
  induction h with
  | nil => simp
  | cons hne hs _ ih => exact List.forall_mem_cons.2 ⟨Token.whole_of_scan hne hs, ih⟩

end SvgComponent.Markup
