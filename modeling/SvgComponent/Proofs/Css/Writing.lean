import Mathlib.Tactic.MkIffOfInductiveProp
import SvgComponent.Proofs.Css.Gaps
import SvgComponent.Proofs.Css.Names

/-!
# Declarations as written

A declaration can be written with blanks around its name, its colon and its value, and with
`!important` behind it (`Entry`). Written with semicolons between them, declarations come back
as they are (`declarations_writeAll`), as long as their values are closed and hold no semicolon
and no exclamation mark outside brackets (`IsValue`).

The gap behind a value is the difficult part : an escape at the end of the value takes a blank
of it, so the tokens of the value are not those of the value alone. Their kinds are, and
together with the rest of the gap they are the same text (`IsBody`).
-/

namespace SvgComponent.Css

open Text

/-! ## Values -/

/-- The values that come back as they are : closed, without a blank at an end, and without a
semicolon or an exclamation mark outside brackets. -/
@[mk_iff]
structure IsValue (value : List Char) : Prop where
  ne_nil : value ≠ []
  separates : Separates value []
  semicolon : ∀ p ∈ parts (tokens value), p.kind ≠ .semicolon
  bang : ∀ p ∈ parts (tokens value), p.kind ≠ .bang
  head : value.head?.any Text.isBlank = false
  getLast : value.getLast?.any Text.isBlank = false

instance {value : List Char} : Decidable (IsValue value) :=
  decidable_of_iff _ (isValue_iff value).symm

/-! ## Declarations -/

/-- A declaration as written : a name and a value, the gaps around them and the colon, and
the gap behind `!important`, if that is there. -/
structure Entry where
  name : List Char
  value : List Char
  beforeName : Gap
  behindName : Gap
  beforeValue : Gap
  behindValue : Gap
  important : Option Gap

def importantName : List Char := ['i', 'm', 'p', 'o', 'r', 't', 'a', 'n', 't']

/-- The text of `!important`, if that is there. -/
def Entry.mark (e : Entry) : List Char :=
  match e.important with
  | none => []
  | some gap => '!' :: (importantName ++ gap.1)

def Entry.text (e : Entry) : List Char :=
  e.beforeName.1 ++ (e.name ++ (e.behindName.1 ++ ':' :: (e.beforeValue.1 ++
    (e.value ++ (e.behindValue.1 ++ e.mark)))))

def Entry.declaration (e : Entry) : Declaration := ⟨e.name, e.value⟩

/-- The tokens in front of the value. -/
def Entry.headTokens (e : Entry) : List Token :=
  e.beforeName.tokens ++ ⟨.ident e.name, e.name⟩ :: (e.behindName.tokens ++
    ⟨.colon, [':']⟩ :: e.beforeValue.tokens)

def Entry.markTokens (e : Entry) : List Token :=
  match e.important with
  | none => []
  | some gap => ⟨.bang, ['!']⟩ :: ⟨.ident importantName, importantName⟩ :: gap.tokens

variable {e : Entry} {value rest : List Char}

/-! ## Tokens of a declaration -/

/-- A value starts with no blank, whatever follows it. -/
theorem isBlank_head?_value (h : IsValue value) (t : List Char) :
    ∀ c ∈ (value ++ t).head?, isBlank c = false := by
  obtain ⟨c, r, rfl⟩ := List.exists_cons_of_ne_nil h.ne_nil
  rintro d ⟨⟩
  by_contra hb
  have htext : Text.isBlank c = true := isBlank_text (Bool.not_eq_false _ ▸ hb)
  exact Bool.noConfusion (htext.symm.trans h.head)

theorem isIdent_importantName : IsIdent importantName := .letter rfl (List.all_eq_true.1 rfl)

/-- In front of a value are the tokens of the name, the colon and the gaps. -/
theorem tokens_head (hname : IsIdent e.name) (hr : ∀ c ∈ rest.head?, isBlank c = false) :
    tokens (e.beforeName.1 ++ (e.name ++ (e.behindName.1 ++ ':' :: (e.beforeValue.1 ++ rest)))) =
      e.headTokens ++ tokens rest := by
  have hstart (t : List Char) : ∀ c ∈ (e.name ++ t).head?, isBlank c = false := by
    obtain ⟨c, r, hcr⟩ := List.exists_cons_of_ne_nil hname.ne_nil
    have hword := hname.isWordChar
    rw [hcr] at hword ⊢
    rintro d ⟨⟩
    exact isBlank_of_isWordChar (hword c List.mem_cons_self)
  have hend (t : List Char) : ∀ c ∈ (e.behindName.1 ++ ':' :: t).head?, isNameEnd c = true :=
    Gap.head?_append (fun c hc => by simp [isNameEnd, isEdgeChar, hc]) e.behindName (by
      rintro d ⟨⟩
      rfl)
  have hcolon (t : List Char) : tokens (':' :: t) = ⟨.colon, [':']⟩ :: tokens t :=
    tokens_of_readToken rfl rfl
  rw [tokens_gap _ (hstart _), tokens_ident hname (hend _),
    tokens_gap _ (by rintro d ⟨⟩; rfl), hcolon, tokens_gap _ hr]
  simp [Entry.headTokens]

/-- The mark behind a value has its own tokens, up to the semicolon. -/
theorem tokens_mark (b : List Char) :
    tokens (e.mark ++ ';' :: b) = e.markTokens ++ tokens (';' :: b) := by
  unfold Entry.mark Entry.markTokens
  cases e.important with
  | none => rfl
  | some gap =>
    have hbang (t : List Char) : tokens ('!' :: t) = ⟨.bang, ['!']⟩ :: tokens t :=
      tokens_of_readToken rfl rfl
    have hend : ∀ c ∈ (gap.1 ++ ';' :: b).head?, isNameEnd c = true :=
      Gap.head?_append (fun c hc => by simp [isNameEnd, isEdgeChar, hc]) gap (by
        rintro d ⟨⟩
        rfl)
    simp only [List.cons_append, List.append_assoc]
    rw [hbang, tokens_ident isIdent_importantName hend, tokens_gap _ (by rintro d ⟨⟩; rfl)]

/-- A value is followed by an edge, with its mark or without. -/
theorem isEdge_mark (b : List Char) : IsEdge (e.mark ++ ';' :: b) := by
  unfold Entry.mark
  cases e.important with
  | none => exact .semicolon b
  | some gap => exact .bang (by simp [importantName])

theorem isBlank_head?_mark (b : List Char) :
    ∀ c ∈ (e.mark ++ ';' :: b).head?, isBlank c = false := by
  unfold Entry.mark
  cases e.important with
  | none => rintro d ⟨⟩; rfl
  | some gap => rintro d ⟨⟩; rfl

/-- The tokens of a value and the gap behind it. -/
structure IsBody (e : Entry) (body : List Token) : Prop where
  lexeme : body.flatMap (·.lexeme) = e.value ++ e.behindValue.1
  openBrackets : openBrackets [] (body.map (·.kind)) = []
  semicolon : ∀ p ∈ parts body, p.kind ≠ .semicolon
  bang : ∀ p ∈ parts body, p.kind ≠ .bang

/-- The value and the gap behind it make up some tokens of their own. -/
theorem exists_isBody (hvalue : IsValue e.value) (b : List Char) :
    ∃ body, IsBody e body ∧ tokens (e.value ++ (e.behindValue.1 ++ (e.mark ++ ';' :: b))) =
      body ++ (e.markTokens ++ tokens (';' :: b)) := by
  obtain ⟨ts, taken, out, h⟩ := hvalue.separates.splits
    (IsEdge.of_blanks e.behindValue.2 (isEdge_mark (e := e) b))
  obtain ⟨left, hleft, rfl⟩ := Gap.exists_of_append_eq (isBlank_head?_mark b) h.isBlank h.edge_eq
  have hopen : Css.openBrackets [] (ts.map (·.kind)) = [] := by
    rw [h.kind_eq, hvalue.separates.openBrackets]
  have hparts : parts (ts ++ left.tokens) = parts ts ++ left.tokens.map Token.part := by
    rw [parts_append _ hopen, ← List.append_nil left.tokens, left.parts_append, parts_nil,
      List.append_nil, List.append_nil]
  have hkind {k : Kind} (hk : k ≠ .blank) (hv : ∀ p ∈ parts (tokens e.value), p.kind ≠ k) :
      ∀ p ∈ parts (ts ++ left.tokens), p.kind ≠ k := by
    intro p hp
    rw [hparts, List.mem_append] at hp
    obtain hp | hp := hp
    · have hmem : p.kind ∈ (parts (tokens e.value)).map (·.kind) := by
        rw [← map_kind_parts h.kind_eq]
        exact List.mem_map_of_mem hp
      obtain ⟨q, hq, hqp⟩ := List.mem_map.1 hmem
      rw [← hqp]
      exact hv q hq
    · obtain ⟨t, ht, rfl⟩ := List.mem_map.1 hp
      rw [Token.part, Gap.kind_of_mem ht]
      exact hk.symm
  refine ⟨ts ++ left.tokens, ⟨?_, ?_, hkind (by simp) hvalue.semicolon,
    hkind (by simp) hvalue.bang⟩, ?_⟩
  · rw [List.flatMap_append, h.lexeme_eq, left.flatMap_lexeme, hleft, List.append_assoc]
  · rw [List.map_append, openBrackets_append, hopen, openBrackets_plain left.isPlain]
  · rw [h.tokens_eq, tokens_gap _ (isBlank_head?_mark b), tokens_mark, List.append_assoc]

/-- The tokens of a declaration. -/
def Entry.tokens (e : Entry) (body : List Token) : List Token :=
  e.headTokens ++ (body ++ e.markTokens)

/-- A declaration has its own tokens, up to the semicolon behind it. -/
theorem exists_tokens_text (hname : IsIdent e.name) (hvalue : IsValue e.value) (b : List Char) :
    ∃ body, IsBody e body ∧
      Css.tokens (e.text ++ ';' :: b) = e.tokens body ++ ⟨.semicolon, [';']⟩ :: Css.tokens b := by
  obtain ⟨body, hbody, ht⟩ := exists_isBody hvalue b
  refine ⟨body, hbody, ?_⟩
  have htext : e.text ++ ';' :: b = e.beforeName.1 ++ (e.name ++ (e.behindName.1 ++
      ':' :: (e.beforeValue.1 ++ (e.value ++ (e.behindValue.1 ++ (e.mark ++ ';' :: b)))))) := by
    simp [Entry.text]
  rw [htext, tokens_head hname (isBlank_head?_value hvalue _), ht, tokens_semicolon]
  simp [Entry.tokens]

theorem flatMap_lexeme_headTokens : e.headTokens.flatMap (·.lexeme) =
    e.beforeName.1 ++ (e.name ++ (e.behindName.1 ++ ':' :: e.beforeValue.1)) := by
  simp [Entry.headTokens, Gap.flatMap_lexeme]

theorem flatMap_lexeme_markTokens : e.markTokens.flatMap (·.lexeme) = e.mark := by
  unfold Entry.markTokens Entry.mark
  cases e.important with
  | none => rfl
  | some gap => simp [Gap.flatMap_lexeme]

/-- No bracket is opened in front of a value. -/
theorem isPlain_headTokens : IsPlain e.headTokens := by
  intro t ht mark
  simp only [Entry.headTokens, List.mem_append, List.mem_cons] at ht
  obtain ht | rfl | ht | rfl | ht := ht
  · exact e.beforeName.isPlain t ht mark
  · simp
  · exact e.behindName.isPlain t ht mark
  · simp
  · exact e.beforeValue.isPlain t ht mark

/-- No bracket is opened behind a value. -/
theorem isPlain_markTokens : IsPlain e.markTokens := by
  intro t ht mark
  unfold Entry.markTokens at ht
  split at ht
  · simp at ht
  · rename_i gap _
    simp only [List.mem_cons] at ht
    obtain rfl | rfl | ht := ht
    · simp
    · simp
    · exact gap.isPlain t ht mark

/-- The tokens of a declaration make up its text. -/
theorem IsBody.flatMap_lexeme {body : List Token} (h : IsBody e body) :
    (e.tokens body).flatMap (·.lexeme) = e.text := by
  rw [Entry.tokens, List.flatMap_append, List.flatMap_append, flatMap_lexeme_headTokens,
    h.lexeme, flatMap_lexeme_markTokens]
  simp [Entry.text]

/-- A declaration leaves no bracket open. -/
theorem IsBody.openBrackets_tokens {body : List Token} (h : IsBody e body) :
    Css.openBrackets [] ((e.tokens body).map (·.kind)) = [] := by
  rw [Entry.tokens, List.map_append, List.map_append, openBrackets_append, openBrackets_append,
    openBrackets_plain isPlain_headTokens, h.openBrackets, openBrackets_plain isPlain_markTokens]

/-! ## Reading a declaration -/

/-- The mark behind a value is seen, whatever gap follows it. -/
theorem isImportant_mark (gap : Gap) :
    isImportant (⟨.bang, ['!']⟩ :: ⟨.ident importantName, importantName⟩ ::
      gap.tokens.map Token.part) = true := by
  have hname : importantName.map Char.toLower = importantName := by decide
  have hgap : skipIdle (gap.tokens.map Token.part) = [] := by
    rw [← List.append_nil (gap.tokens.map Token.part), skipIdle_gap]
    rfl
  have hskip (ps : List Part) : skipIdle (⟨.ident importantName, importantName⟩ :: ps) =
      ⟨.ident importantName, importantName⟩ :: ps := rfl
  simp only [isImportant, hskip, hname, hgap]
  decide

/-- The mark starts with an exclamation mark outside brackets. -/
theorem exists_of_isImportant {ps : List Part} (h : isImportant ps = true) :
    ∃ lexeme qs, ps = ⟨.bang, lexeme⟩ :: qs := by
  unfold isImportant at h
  split at h
  · exact ⟨_, _, rfl⟩
  · simp at h

/-- A value is read up to the mark, and blanks around it are dropped. -/
theorem declaration?_eq_some {idle : Gap} {body mark : List Part} {name value : List Char}
    {colon : List Char} (hbody : ∀ p ∈ body, p.kind ≠ .bang) (hvalue : trim (written body) = value)
    (hmark : mark = [] ∨ isImportant mark = true) :
    declaration? name (idle.tokens.map Token.part ++ ⟨.colon, colon⟩ :: (body ++ mark)) =
      some ⟨name, value⟩ := by
  have hcolon (ps : List Part) : skipIdle (⟨.colon, colon⟩ :: ps) = ⟨.colon, colon⟩ :: ps := rfl
  have hstop : mark.takeWhile (·.kind ≠ .bang) = [] ∧ mark.dropWhile (·.kind ≠ .bang) = mark := by
    obtain rfl | h := hmark
    · exact ⟨rfl, rfl⟩
    · obtain ⟨lexeme, ps, rfl⟩ := exists_of_isImportant h
      exact ⟨rfl, rfl⟩
  have hpass : ∀ p ∈ body, decide (p.kind ≠ .bang) = true := fun p hp => by simpa using hbody p hp
  rw [declaration?, skipIdle_gap, hcolon]
  simp only [List.takeWhile_append_of_pos hpass, List.dropWhile_append_of_pos hpass, hstop.1,
    hstop.2, List.append_nil, hvalue, if_pos hmark]

/-- The parts behind the name. -/
def Entry.tailParts (e : Entry) (body : List Token) : List Part :=
  e.behindName.tokens.map Token.part ++ ⟨.colon, [':']⟩ ::
    ((e.beforeValue.tokens.map Token.part ++ parts body) ++ e.markTokens.map Token.part)

section Body

variable {body : List Token}

/-- A declaration consists of its name and the parts behind it. -/
theorem parts_tokens (h : IsBody e body) : parts (e.tokens body) =
    e.beforeName.tokens.map Token.part ++ ⟨.ident e.name, e.name⟩ :: e.tailParts body := by
  have hmark : parts e.markTokens = e.markTokens.map Token.part := by
    rw [← List.append_nil e.markTokens, parts_plain isPlain_markTokens, parts_nil,
      List.append_nil, List.append_nil]
  rw [Entry.tokens, parts_plain isPlain_headTokens, parts_append _ h.openBrackets, hmark]
  simp [Entry.headTokens, Entry.tailParts, Token.part]

theorem kind_markTokens : ∀ t ∈ e.markTokens, t.kind ≠ .semicolon := by
  intro t ht
  unfold Entry.markTokens at ht
  split at ht
  · simp at ht
  · simp only [List.mem_cons] at ht
    obtain rfl | rfl | ht := ht
    · simp
    · simp
    · simp [Gap.kind_of_mem ht]

/-- Behind the name no semicolon stands outside brackets. -/
theorem isSemicolon_tailParts (h : IsBody e body) :
    ∀ p ∈ e.tailParts body, isSemicolon p = false := by
  intro p hp
  simp only [Entry.tailParts, List.mem_append, List.mem_cons] at hp
  obtain hp | rfl | (hp | hp) | hp := hp
  · simp [isSemicolon, Gap.kind_part hp]
  · rfl
  · simp [isSemicolon, Gap.kind_part hp]
  · simp [isSemicolon, h.semicolon p hp]
  · obtain ⟨t, ht, rfl⟩ := List.mem_map.1 hp
    simp [isSemicolon, Token.part, kind_markTokens t ht]

/-- What stands behind the name is read as the value of the declaration. -/
theorem declaration?_tailParts (hvalue : IsValue e.value) (h : IsBody e body) :
    declaration? e.name (e.tailParts body) = some e.declaration := by
  refine declaration?_eq_some (fun p hp => ?_) ?_ ?_
  · obtain hp | hp := List.mem_append.1 hp
    · simp [Gap.kind_part hp]
    · exact h.bang p hp
  · rw [written_append, written_gap, written_parts, h.lexeme,
      trim_blanks_append e.beforeValue.trims, trim_append_blanks e.behindValue.trims,
      trim_eq_self hvalue.head hvalue.getLast]
  · unfold Entry.markTokens
    cases e.important with
    | none => exact .inl rfl
    | some gap => exact .inr (isImportant_mark gap)

/-- The tokens of a declaration are read as this declaration alone. -/
theorem collect_tokens (hvalue : IsValue e.value) (h : IsBody e body) :
    collect (parts (e.tokens body)) = [e.declaration] := by
  have hpass : ∀ p ∈ e.tailParts body, (!isSemicolon p) = true := fun p hp => by
    rw [isSemicolon_tailParts h p hp, Bool.not_false]
  rw [parts_tokens h, collect_gap, collect_ident rfl, List.takeWhile_eq_self_iff.2 hpass,
    declaration?_tailParts hvalue h, after, List.dropWhile_eq_nil_iff.2 hpass, List.tail_nil,
    collect_nil]
  rfl

end Body

/-- A declaration that is written alone comes back. -/
theorem declarations_text (hname : IsIdent e.name) (hvalue : IsValue e.value) :
    declarations e.text = [e.declaration] := by
  obtain ⟨body, hbody, ht⟩ := exists_tokens_text hname hvalue []
  have htokens : e.tokens body = Css.tokens e.text := (splits_of_split ht hbody.flatMap_lexeme).1
  rw [declarations, ← htokens, collect_tokens hvalue hbody]

/-- One that is written in front of a semicolon comes back in front of what follows. -/
theorem declarations_text_append (hname : IsIdent e.name) (hvalue : IsValue e.value)
    (b : List Char) : declarations (e.text ++ ';' :: b) = e.declaration :: declarations b := by
  obtain ⟨body, hbody, ht⟩ := exists_tokens_text hname hvalue b
  rw [declarations, ht, collect_parts_append hbody.openBrackets_tokens, collect_tokens hvalue hbody]
  rfl

/-! ## Lists of declarations -/

/-- Declarations as written with semicolons between them, and perhaps one behind the last. -/
def writeAll (es : List Entry) (final : Option Gap) : List Char :=
  [';'].intercalate (es.map Entry.text) ++
    match final with
    | none => []
    | some gap => ';' :: gap.1

/-- A semicolon alone declares nothing. -/
theorem declarations_semicolon (gap : Gap) : declarations (';' :: gap.1) = [] := by
  have hsemicolon : tokens (';' :: gap.1) = ⟨.semicolon, [';']⟩ :: tokens gap.1 :=
    tokens_semicolon gap.1
  rw [declarations, hsemicolon, parts_cons (by simp), collect_separator rfl]
  exact declarations_blank gap

theorem writeAll_cons (e f : Entry) (es : List Entry) (final : Option Gap) :
    writeAll (e :: f :: es) final = e.text ++ ';' :: writeAll (f :: es) final := by
  simp [writeAll, List.intercalate_cons_cons]

theorem declarations_final (final : Option Gap) : declarations (writeAll [] final) = [] := by
  cases final with
  | none => exact declarations_nil
  | some gap => exact declarations_semicolon gap

/-- Well-formed declarations come back as they are, in order. -/
theorem declarations_writeAll {es : List Entry}
    (h : ∀ e ∈ es, IsIdent e.name ∧ IsValue e.value) (start : Gap) (final : Option Gap) :
    declarations (start.1 ++ writeAll es final) = es.map Entry.declaration := by
  rw [declarations_gap_append]
  induction es with
  | nil => exact declarations_final final
  | cons e es ih =>
    rw [List.forall_mem_cons] at h
    obtain ⟨⟨hname, hvalue⟩, hes⟩ := h
    rcases es with - | ⟨f, es⟩
    · cases final with
      | none =>
        have htext : writeAll [e] none = e.text := by simp [writeAll]
        rw [htext, declarations_text hname hvalue, List.map_singleton]
      | some gap =>
        have htext : writeAll [e] (some gap) = e.text ++ ';' :: gap.1 := by simp [writeAll]
        rw [htext, declarations_text_append hname hvalue, declarations_blank, List.map_singleton]
    · rw [writeAll_cons, declarations_text_append hname hvalue, ih hes]
      rfl

theorem declarations_writeAll_custom :
    ∃ (es : List Entry) (space : Gap), (∀ e ∈ es, IsIdent e.name ∧ IsValue e.value) ∧
      noGap.1 ++ writeAll es (some space) =
        "fill : url(a;b) \\41  !important ;--x:\x7by: 'z;!'\x7d /*;*/ u; ".toList ∧
      declarations (noGap.1 ++ writeAll es (some space)) =
        [⟨"fill".toList, "url(a;b) \\41".toList⟩,
          ⟨"--x".toList, "\x7by: 'z;!'\x7d /*;*/ u".toList⟩] := by
  have hfill : IsIdent "fill".toList ∧ IsValue "url(a;b) \\41".toList :=
    ⟨.letter rfl (List.all_eq_true.1 rfl), by decide +kernel⟩
  have hcustom : IsIdent "--x".toList ∧ IsValue "\x7by: 'z;!'\x7d /*;*/ u".toList :=
    ⟨.custom (List.all_eq_true.1 rfl), by decide +kernel⟩
  let space : Gap := ⟨[' '], List.all_eq_true.1 rfl⟩
  let spaces : Gap := ⟨[' ', ' '], List.all_eq_true.1 rfl⟩
  let fill : Entry :=
    ⟨"fill".toList, "url(a;b) \\41".toList, noGap, space, space, spaces, some space⟩
  let custom : Entry :=
    ⟨"--x".toList, "\x7by: 'z;!'\x7d /*;*/ u".toList, noGap, noGap, noGap, noGap, none⟩
  have h : ∀ e ∈ [fill, custom], IsIdent e.name ∧ IsValue e.value := by
    simpa [fill, custom] using And.intro hfill hcustom
  exact ⟨[fill, custom], space, h, by decide +kernel, declarations_writeAll h noGap (some space)⟩

end SvgComponent.Css
