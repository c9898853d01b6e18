import SvgComponent.Proofs.Json.Reading
import SvgComponent.Proofs.Json.Respacing
import SvgComponent.Proofs.Text.Casing

/-!
# Strings up to their closing quote

A quote ends a string unless a backslash stands in front of it, and no code of four digits reaches
past the quote (`IsInner`). What may be written between quotes is more than what is read there
(`IsQuotable`) : half of a surrogate pair is a code, but stands for no character.

What is read as a string is spelled between the quotes (`spells_of_unquoteFrom`), and what is passed
over is passed over wherever it stands (`passes_of_skipQuotedFrom`). So both end at the same quote
whatever follows it, and inside of the same string two texts are read the same
(`EndsAtQuote.readAlike`).
-/

namespace SvgComponent.Json

open Text Numeral

variable {α : Type} {inner cs rest : List Char} {c : Char} {read next n : Nat}

/-! ## What stands between quotes -/

/-- Of what is in front of a quote there is one way to be between quotes. -/
theorem IsInner.unique {inner' a b : List Char} (h : IsInner inner) (h' : IsInner inner')
    (he : inner ++ '"' :: a = inner' ++ '"' :: b) : inner = inner' ∧ a = b := by
  induction h generalizing inner' with
  | nil =>
    cases h' with
    | nil => exact ⟨rfl, (List.cons.inj he).2⟩
    | plain hq => exact absurd (List.cons.inj he).1.symm hq
    | escaped => cases (List.cons.inj he).1
  | plain hq hb _ ih =>
    cases h' with
    | nil => exact absurd (List.cons.inj he).1 hq
    | plain _ _ h' =>
      obtain ⟨rfl, htail⟩ := List.cons.inj he
      obtain ⟨rfl, rfl⟩ := ih h' htail
      exact ⟨rfl, rfl⟩
    | escaped => exact absurd (List.cons.inj he).1 hb
  | escaped _ ih =>
    cases h' with
    | nil => cases (List.cons.inj he).1
    | plain _ hb => exact absurd (List.cons.inj he).1.symm hb
    | escaped h' =>
      obtain ⟨rfl, htail⟩ := List.cons.inj (List.cons.inj he).2
      obtain ⟨rfl, rfl⟩ := ih h' htail
      exact ⟨rfl, rfl⟩

/-- More characters may stand between quotes, unless they are quotes or backslashes. -/
theorem IsInner.append {front : List Char} (hf : ∀ c ∈ front, c ≠ '"' ∧ c ≠ '\\')
    (h : IsInner inner) : IsInner (front ++ inner) := by
  induction front with
  | nil => exact h
  | cons c front ih =>
    obtain ⟨⟨hq, hb⟩, hf⟩ := List.forall_mem_cons.1 hf
    exact .plain hq hb (ih hf)

/-! ## Codes -/

/-- A digit of a code is one byte, and ends neither a string nor an escape. -/
theorem of_isSome_hexValue? (h : (hexValue? c).isSome = true) :
    c.utf8Size = 1 ∧ c ≠ '"' ∧ c ≠ '\\' := by
  have hall : ∀ c : Char, c.toNat < 0x80 → (hexValue? c).isSome = true →
      c.utf8Size = 1 ∧ c ≠ '"' ∧ c ≠ '\\' := forall_ascii (by decide)
  refine hall c ?_ h
  have hbound : ∀ d : Char, d.toNat < 0x80 → c ≤ d → c.toNat < 0x80 := fun d hd hc =>
    Nat.lt_of_le_of_lt (UInt32.le_iff_toNat_le.1 hc) hd
  unfold hexValue? at h
  split_ifs at h with h1 h2 h3
  · exact hbound '9' (by decide) h1.2
  · exact hbound 'f' (by decide) h2.2
  · exact hbound 'F' (by decide) h3.2
  · cases h

theorem isSome_of_hexCode? {a b c d : Char} (h : hexCode? a b c d = some n) :
    ∀ e ∈ [a, b, c, d], (hexValue? e).isSome = true := by
  simp only [hexCode?, Option.bind_eq_bind, Option.pure_def, Option.bind_eq_some_iff] at h
  obtain ⟨_, ha, _, hb, _, hc, _, hd, -⟩ := h
  simp [ha, hb, hc, hd]

/-- A code is six bytes with its mark. -/
theorem width_code {a b c d : Char} (h : hexCode? a b c d = some n) :
    width ['\\', 'u', a, b, c, d] = 6 := by
  have hescape : '\\'.utf8Size = 1 ∧ 'u'.utf8Size = 1 := by decide
  have hsize : ∀ e ∈ [a, b, c, d], e.utf8Size = 1 := fun e he =>
    (of_isSome_hexValue? (isSome_of_hexCode? h e he)).1
  simp only [List.forall_mem_cons] at hsize
  obtain ⟨ha, hb, hc, hd, -⟩ := hsize
  simp [hescape, ha, hb, hc, hd]

theorem isInner_code {a b c d : Char} (hcode : hexCode? a b c d = some n) (h : IsInner inner) :
    IsInner ('\\' :: 'u' :: a :: b :: c :: d :: inner) :=
  .escaped (IsInner.append (fun e he => (of_isSome_hexValue? (isSome_of_hexCode? hcode e he)).2) h)

/-- What is read as a code are four digits. -/
theorem readCode_eq_ok (h : readCode read cs = .ok (n, rest)) :
    ∃ a b c d, hexCode? a b c d = some n ∧ cs = a :: b :: c :: d :: rest := by
  unfold readCode at h
  split at h
  · split at h
    · rename_i hcode
      cases h
      exact ⟨_, _, _, _, hcode, rfl⟩
    · cases h
  · split_ifs at h

/-! ## Strings that are written -/

/-- What stands between the quotes of a string. -/
inductive IsQuotable : List Char → Prop
  | nil : IsQuotable []
  | plain {c : Char} {cs : List Char} (hq : c ≠ '"') (hb : c ≠ '\\') (hc : ¬ c.toNat < 0x20)
    (h : IsQuotable cs) : IsQuotable (c :: cs)
  | letter {e : Char} {cs : List Char} (he : e ∈ ['"', '\\', '/', 'b', 'f', 'n', 'r', 't'])
    (h : IsQuotable cs) : IsQuotable ('\\' :: e :: cs)
  | code {a b c d : Char} {cs : List Char} (hd : ∀ e ∈ [a, b, c, d], (hexValue? e).isSome = true)
    (h : IsQuotable cs) : IsQuotable ('\\' :: 'u' :: a :: b :: c :: d :: cs)

/-- What stands between the quotes of a string does not end it. -/
theorem IsQuotable.isInner {inner : List Char} (h : IsQuotable inner) : IsInner inner := by
  induction h with
  | nil => exact .nil
  | plain hq hb _ _ ih => exact .plain hq hb ih
  | letter _ _ ih => exact .escaped ih
  | code hd _ ih => exact .escaped (.append (fun e he => (of_isSome_hexValue? (hd e he)).2) ih)

theorem mem_of_letterEscape? {e : Char} (h : letterEscape? e = some c) :
    e ∈ ['"', '\\', '/', 'b', 'f', 'n', 'r', 't'] := by
  unfold letterEscape? at h
  split_ifs at h with h1 h2 h3 h4 h5 h6
  · rcases h1 with rfl | rfl | rfl <;> simp
  all_goals
    subst e
    simp

/-- The form of a character may stand between quotes. -/
theorem isQuotable_of_spellsChar {c : Char} {form cs : List Char} (h : SpellsChar c form)
    (hcs : IsQuotable cs) : IsQuotable (form ++ cs) := by
  cases h with
  | plain hq hb hc => exact .plain hq hb hc hcs
  | letter he => exact .letter (mem_of_letterEscape? he) hcs
  | code hn => exact .code (isSome_of_hexCode? hn) hcs
  | pair hm _ hn => exact .code (isSome_of_hexCode? hm) (.code (isSome_of_hexCode? hn) hcs)

theorem isQuotable_of_spellsChars {cs forms : List Char} (h : SpellsChars cs forms) :
    IsQuotable forms := by
  induction h with
  | nil => exact .nil
  | cons hc _ ih => exact isQuotable_of_spellsChar hc ih

/-! ## Strings that are read -/

/-- What is read as a code is a code of the character, or two. -/
theorem spells_of_readCoded (h : readCoded (read + 2) cs = .ok (c, next, rest)) :
    ∃ form, SpellsChar c form ∧ '\\' :: 'u' :: cs = form ++ rest ∧ next = read + width form := by
  simp only [readCoded, bind, Except.bind, pure, Except.pure] at h
  split at h
  · cases h
  rename_i first hfirst
  obtain ⟨m, behind⟩ := first
  obtain ⟨a, b, c', d, hm, rfl⟩ := readCode_eq_ok hfirst
  dsimp only at h
  split_ifs at h with ht hl
  · split at h
    · cases h
    · cases h
    · split at h
      · cases h
      rename_i second hsecond
      obtain ⟨n, behind'⟩ := second
      obtain ⟨a', b', c'', d', hn, rfl⟩ := readCode_eq_ok hsecond
      dsimp only at h
      split_ifs at h with ht'
      simp only [Except.ok.injEq, Prod.mk.injEq] at h
      obtain ⟨rfl, rfl, rfl⟩ := h
      refine ⟨_, .pair hm hl hn ht', rfl, ?_⟩
      rw [show ['\\', 'u', a, b, c', d, '\\', 'u', a', b', c'', d'] =
        ['\\', 'u', a, b, c', d] ++ ['\\', 'u', a', b', c'', d'] from rfl, width_append,
        width_code hm, width_code hn]
    · cases h
    · cases h
  · cases h
    refine ⟨_, .code hm (by simpa using hl) (by simpa using ht), rfl, ?_⟩
    rw [width_code hm]

theorem utf8Size_of_letterEscape? {e : Char} (h : letterEscape? e = some c) : e.utf8Size = 1 := by
  have hall : ['"', '\\', '/', 'b', 'f', 'n', 'r', 't'].all (·.utf8Size == 1) = true := by decide
  exact eq_of_beq (List.all_eq_true.1 hall e (mem_of_letterEscape? h))

/-- A character is spelled in front of what is read behind it. -/
theorem spells_cons {form s : List Char} {start : Nat} {x : Located (List Char × Nat × List Char)}
    (hc : SpellsChar c form) (hx : (do let (cs, next, rest) ← x; return (c :: cs, next, rest)) =
      Except.ok (s, next, rest))
    (ih : ∀ {s}, x = .ok (s, next, rest) → ∃ inner, SpellsChars s inner ∧
      cs = inner ++ '"' :: rest ∧
      next = start + width form + width inner + 1) :
    ∃ inner, SpellsChars s inner ∧ form ++ cs = inner ++ '"' :: rest ∧
      next = start + width inner + 1 := by
  obtain _ | ⟨behind, n, left⟩ := x
  · cases hx
  cases hx
  obtain ⟨inner, hi, rfl, rfl⟩ := ih rfl
  exact ⟨form ++ inner, .cons hc hi, (List.append_assoc ..).symm, by rw [width_append]; omega⟩

/-- What is read as a string is spelled up to its closing quote. -/
theorem spells_of_unquoteFrom {s : List Char} (h : unquoteFrom read cs = .ok (s, next, rest)) :
    ∃ inner, SpellsChars s inner ∧ cs = inner ++ '"' :: rest ∧ next = read + width inner + 1 := by
  have hbackslash : '\\'.utf8Size = 1 := by decide
  fun_induction unquoteFrom read cs generalizing s with
  | case1 | case2 | case3 | case6 | case8 => cases h
  | case4 read r c behind left hcoded ih =>
    obtain ⟨form, hc, he, rfl⟩ := spells_of_readCoded hcoded
    rw [he]
    exact spells_cons hc h ih
  | case5 read e r _ c hletter ih =>
    have hform : SpellsChar c ['\\', e] := .letter hletter
    refine spells_cons hform h ?_
    rwa [width_cons, width_cons, width_nil, hbackslash, utf8Size_of_letterEscape? hletter]
  | case7 =>
    cases h
    exact ⟨[], .nil, rfl, rfl⟩
  | case9 read c r hend hcode hescape hq hc ih =>
    have hb : c ≠ '\\' := by
      rintro rfl
      cases r with
      | nil => exact hend rfl rfl
      | cons e r => exact hescape e r rfl rfl
    exact spells_cons (.plain hq hb hc) h ih

/-! ## Strings that are passed over -/

/-- What is passed over up to a quote is passed over wherever it stands. -/
theorem passes_of_skipQuotedFrom (h : skipQuotedFrom read cs = .ok (next, rest)) :
    ∃ inner, IsInner inner ∧ cs = inner ++ '"' :: rest ∧ ∀ read behind,
      skipQuotedFrom read (inner ++ '"' :: behind) = .ok (read + width inner + 1, behind) := by
  have hbackslash : '\\'.utf8Size = 1 := by decide
  fun_induction skipQuotedFrom read cs with
  | case1 | case2 | case3 | case6 | case8 => cases h
  | case4 read r code behind hcode ih =>
    obtain ⟨a, b, c, d, hn, rfl⟩ := readCode_eq_ok hcode
    obtain ⟨inner, hi, rfl, hall⟩ := ih h
    refine ⟨['\\', 'u', a, b, c, d] ++ inner, isInner_code hn hi, rfl, fun read behind => ?_⟩
    rw [width_append, width_code hn, List.append_assoc]
    refine (skipQuotedFrom_code hn _).trans ((hall _ _).trans ?_)
    rw [Nat.add_assoc read]
  | case5 read e r _ hletter ih =>
    obtain ⟨c, hc⟩ := Option.isSome_iff_exists.1 hletter
    obtain ⟨inner, hi, rfl, hall⟩ := ih h
    refine ⟨'\\' :: e :: inner, .escaped hi, rfl, fun read behind => ?_⟩
    refine (skipQuotedFrom_letter hc _ _).trans ((hall _ _).trans ?_)
    rw [width_cons, width_cons, hbackslash, utf8Size_of_letterEscape? hc, ← Nat.add_assoc 1,
      ← Nat.add_assoc read]
  | case7 =>
    cases h
    refine ⟨[], .nil, rfl, fun read behind => ?_⟩
    rw [List.nil_append, skipQuotedFrom] <;> simp
  | case9 read c r hend hcode hescape hq hc ih =>
    have hb : c ≠ '\\' := by
      rintro rfl
      cases r with
      | nil => exact hend rfl rfl
      | cons e r => exact hescape e r rfl rfl
    obtain ⟨inner, hi, rfl, hall⟩ := ih h
    refine ⟨c :: inner, .plain hq hb hi, rfl, fun read behind => ?_⟩
    refine (skipQuotedFrom_plain hq hb hc _ _).trans ((hall _ _).trans ?_)
    rw [width_cons, ← Nat.add_assoc read]

/-! ## The same string in two texts -/

/-- What is read ends at a quote, and is the same wherever it stands. -/
def EndsAtQuote (f : List Char → Located (α × Nat × List Char)) : Prop :=
  ∀ {cs x n rest}, f cs = .ok (x, n, rest) → ∃ inner, IsInner inner ∧ cs = inner ++ '"' :: rest ∧
    ∀ behind, f (inner ++ '"' :: behind) = .ok (x, width inner + 1, behind)

/-- Reading a string ends at its quote. -/
theorem endsAtQuote_unquote : EndsAtQuote unquote := by
  intro cs s n rest h
  obtain ⟨inner, hs, rfl, -⟩ := spells_of_unquoteFrom h
  have hi := (isQuotable_of_spellsChars hs).isInner
  refine ⟨inner, hi, rfl, fun behind => ?_⟩
  obtain ⟨m, hm⟩ := exists_unquoteFrom_spellsChars hs 0 behind
  obtain ⟨inner', hs', he, rfl⟩ := spells_of_unquoteFrom hm
  obtain ⟨rfl, -⟩ := hi.unique (isQuotable_of_spellsChars hs').isInner he
  rw [unquote, hm, Nat.zero_add]

/-- Passing over a string ends at its quote. -/
theorem endsAtQuote_skipQuoted : EndsAtQuote fun cs => valueless (skipQuoted cs) := by
  intro cs x n rest h
  dsimp only at h
  cases hs : skipQuoted cs with
  | error fault =>
    rw [hs] at h
    cases h
  | ok p =>
    rw [hs] at h
    cases h
    obtain ⟨inner, hi, rfl, hall⟩ := passes_of_skipQuotedFrom hs
    refine ⟨inner, hi, rfl, fun behind => ?_⟩
    dsimp only
    rw [skipQuoted, hall, Nat.zero_add]
    rfl

namespace InQuotes

variable {a b : List Char}

/-- A string of the first text is in the second one too. -/
theorem exists_right (h : InQuotes (inner ++ '"' :: a) b) (hi : IsInner inner) :
    ∃ b', b = inner ++ '"' :: b' ∧ SameTokens a b' := by
  obtain rfl | ⟨inner', a', b', hi', h, he, rfl⟩ := h
  · exact ⟨a, rfl, .rest a⟩
  · obtain ⟨rfl, rfl⟩ := hi.unique hi' he
    exact ⟨b', rfl, h⟩

/-- A string of the second text is in the first one too. -/
theorem exists_left (h : InQuotes a (inner ++ '"' :: b)) (hi : IsInner inner) :
    ∃ a', a = inner ++ '"' :: a' := by
  obtain rfl | ⟨inner', a', b', hi', h, rfl, he⟩ := h
  · exact ⟨b, rfl⟩
  · obtain ⟨rfl, rfl⟩ := hi.unique hi' he
    exact ⟨a', rfl⟩

end InQuotes

/-- Inside of the same string two texts are read the same. -/
theorem EndsAtQuote.readAlike {f : List Char → Located (α × Nat × List Char)} {a b : List Char}
    (hf : EndsAtQuote f) (h : InQuotes a b) : ReadAlike 1 a b (f a) (f b) := by
  cases ha : f a with
  | error fault =>
    cases hb : f b with
    | error fault' => exact .error
    | ok p =>
      obtain ⟨inner, hi, rfl, hall⟩ := hf hb
      obtain ⟨a', rfl⟩ := h.exists_left hi
      rw [hall a'] at ha
      cases ha
  | ok p =>
    obtain ⟨x, n, rest⟩ := p
    obtain ⟨inner, hi, rfl, hall⟩ := hf ha
    obtain ⟨b', rfl, hr⟩ := h.exists_right hi
    have hwidth : width (inner ++ ['"']) = width inner + 1 := by
      rw [width_append]
      rfl
    have hread := (hall rest).symm.trans ha
    cases hread
    rw [hall b', ← hwidth]
    exact .ok (by simp) (List.append_cons ..) (List.append_cons ..) hr

end SvgComponent.Json
