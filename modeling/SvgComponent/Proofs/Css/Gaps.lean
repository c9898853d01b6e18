import Mathlib.Data.List.TakeWhile
import SvgComponent.Proofs.Css.Joining

/-!
# Blanks between tokens

A run of blanks is one token, or none if it is empty (`tokens_gap`). No declaration is made of
it, and it makes no difference in front of others (`declarations_gap_append`).
-/

namespace SvgComponent.Css

open Text

/-- A run of blanks, perhaps empty. -/
def Gap : Type := { cs : List Char // ∀ c ∈ cs, isBlank c = true }

def noGap : Gap := ⟨[], List.forall_mem_nil _⟩

variable {rest : List Char}

/-- The token of a gap, if there is one. -/
def Gap.tokens (gap : Gap) : List Token := if gap.1 = [] then [] else [⟨.blank, gap.1⟩]

/-- A run of blanks is one token. -/
theorem readToken_blank {c : Char} (hc : isBlank c = true) (r : List Char) :
    readToken c r = (.blank, r.dropWhile isBlank) := by
  have hmark : markKind? c = none := by
    obtain rfl | rfl | rfl | rfl | rfl := isBlank_iff.1 hc <;> rfl
  rw [readToken_of_none hmark, if_pos hc]

/-- A gap is its token, or none, in front of what is no blank. -/
theorem tokens_gap (gap : Gap) (hr : ∀ c ∈ rest.head?, isBlank c = false) :
    tokens (gap.1 ++ rest) = gap.tokens ++ tokens rest := by
  obtain ⟨gap, hgap⟩ := gap
  rcases gap with - | ⟨c, r⟩
  · rfl
  · rw [List.forall_mem_cons] at hgap
    have hread : readToken c (r ++ rest) = (.blank, rest) := by
      rw [readToken_blank hgap.1, dropWhile_run hgap.2 hr]
    exact tokens_of_readToken hread rfl

theorem Gap.kind_of_mem {gap : Gap} {t : Token} (h : t ∈ gap.tokens) : t.kind = .blank := by
  unfold Gap.tokens at h
  split at h
  · simp at h
  · rw [List.mem_singleton.1 h]

/-- The token of a gap is its text. -/
theorem Gap.flatMap_lexeme (gap : Gap) : gap.tokens.flatMap (·.lexeme) = gap.1 := by
  unfold Gap.tokens
  split
  · rename_i h
    rw [h, List.flatMap_nil]
  · rw [List.flatMap_singleton]

theorem isBlank_text {c : Char} (h : isBlank c = true) : Text.isBlank c = true := by
  obtain rfl | rfl | rfl | rfl | rfl := isBlank_iff.1 h <;> decide

theorem Gap.trims (gap : Gap) : ∀ c ∈ gap.1, Text.isBlank c = true :=
  fun c hc => isBlank_text (gap.2 c hc)

/-- What can stand behind a gap, or be a blank, can be what comes next. -/
theorem Gap.head?_append {p : Char → Bool} (hp : ∀ c, isBlank c = true → p c = true) (gap : Gap)
    (hr : ∀ c ∈ rest.head?, p c = true) : ∀ c ∈ (gap.1 ++ rest).head?, p c = true := by
  obtain ⟨gap, hgap⟩ := gap
  cases gap with
  | nil => exact hr
  | cons c gap =>
    rintro d ⟨⟩
    exact hp c (hgap c List.mem_cons_self)

/-- Blanks that are taken from a gap leave a gap. -/
theorem Gap.exists_of_append_eq {gap : Gap} {taken out : List Char}
    (hr : ∀ c ∈ rest.head?, isBlank c = false) (htaken : ∀ c ∈ taken, isBlank c = true)
    (h : gap.1 ++ rest = taken ++ out) :
    ∃ left : Gap, gap.1 = taken ++ left.1 ∧ out = left.1 ++ rest := by
  obtain ⟨more, hmore, hrest⟩ | ⟨left, hleft, hout⟩ := List.append_eq_append_iff.1 h
  · have hnil : more = [] := by
      rcases more with - | ⟨c, more⟩
      · rfl
      · have hc : isBlank c = true := htaken c (by simp [hmore])
        rw [hr c (by simp [hrest])] at hc
        simp at hc
    subst hnil
    exact ⟨noGap, by simpa [noGap] using hmore.symm, by simpa [noGap] using hrest.symm⟩
  · exact ⟨⟨left, fun c hc => gap.2 c (by simp [hleft, hc])⟩, hleft, hout⟩

/-! ## Parts and declarations -/

theorem Gap.isPlain (gap : Gap) : IsPlain gap.tokens := by
  intro t ht mark
  rw [Gap.kind_of_mem ht]
  simp

theorem Gap.parts_append (gap : Gap) (us : List Token) :
    parts (gap.tokens ++ us) = gap.tokens.map Token.part ++ parts us :=
  parts_plain gap.isPlain us

theorem Gap.kind_part {gap : Gap} {p : Part} (h : p ∈ gap.tokens.map Token.part) :
    p.kind = .blank := by
  obtain ⟨t, ht, rfl⟩ := List.mem_map.1 h
  exact Gap.kind_of_mem ht

/-- No declaration is made of a gap in front of others. -/
theorem collect_gap (gap : Gap) (ps : List Part) :
    collect (gap.tokens.map Token.part ++ ps) = collect ps := by
  unfold Gap.tokens
  split
  · rfl
  · exact collect_separator rfl ps

theorem skipIdle_gap (gap : Gap) (ps : List Part) :
    skipIdle (gap.tokens.map Token.part ++ ps) = skipIdle ps := by
  refine List.dropWhile_append_of_pos fun p hp => ?_
  simp [isIdle, Gap.kind_part hp]

theorem written_gap (gap : Gap) : written (gap.tokens.map Token.part) = gap.1 := by
  rw [written, List.flatMap_map]
  exact gap.flatMap_lexeme

theorem declarations_nil : declarations [] = [] := by
  rw [declarations, tokens_nil, parts_nil, collect_nil]

/-- A gap makes no difference in front of declarations. -/
theorem declarations_gap (gap : Gap) (hr : ∀ c ∈ rest.head?, isBlank c = false) :
    declarations (gap.1 ++ rest) = declarations rest := by
  rw [declarations, tokens_gap gap hr, gap.parts_append, collect_gap, declarations]

/-- Blanks in front of all declarations make no difference, also in front of blanks. -/
theorem declarations_gap_append (gap : Gap) (cs : List Char) :
    declarations (gap.1 ++ cs) = declarations cs := by
  have hrun : ∀ c ∈ cs.takeWhile isBlank, isBlank c = true := fun c hc => List.mem_takeWhile_imp hc
  have hrest : ∀ c ∈ (cs.dropWhile isBlank).head?, isBlank c = false := by
    intro c hc
    have := List.head?_dropWhile_not isBlank cs
    rwa [Option.mem_def.1 hc] at this
  have hboth : ∀ c ∈ gap.1 ++ cs.takeWhile isBlank, isBlank c = true := fun c hc =>
    (List.mem_append.1 hc).elim (gap.2 c) (hrun c)
  calc declarations (gap.1 ++ cs)
      = declarations ((gap.1 ++ cs.takeWhile isBlank) ++ cs.dropWhile isBlank) := by
        rw [List.append_assoc, List.takeWhile_append_dropWhile]
    _ = declarations (cs.dropWhile isBlank) := declarations_gap ⟨_, hboth⟩ hrest
    _ = declarations (cs.takeWhile isBlank ++ cs.dropWhile isBlank) :=
        (declarations_gap ⟨_, hrun⟩ hrest).symm
    _ = declarations cs := by rw [List.takeWhile_append_dropWhile]

/-- A gap alone declares nothing. -/
theorem declarations_blank (gap : Gap) : declarations gap.1 = [] := by
  rw [← List.append_nil gap.1, declarations_gap_append, declarations_nil]

end SvgComponent.Css
