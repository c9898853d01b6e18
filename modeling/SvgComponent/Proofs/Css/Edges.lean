import SvgComponent.Css.Token
import SvgComponent.Proofs.Text.Marks
import SvgComponent.Proofs.Text.Runs

/-!
# Reading up to an edge

Tokens are read with some characters ahead, so what stands behind a text can change how its
end is read : an open string runs on, an escape takes one blank. Behind a text that a
semicolon would end, only what can be told from the text itself matters, as long as an edge
follows (`IsEdge`) : the end of the text, a semicolon, an exclamation mark, or blanks in front
of one of these.

Every function that skips part of a token is of one of two kinds at a text (`Settled`). Either
it takes in even a semicolon behind the text (`Crosses`), or it comes to the same end in front
of every edge (`Ends`), save for blanks of the edge that are taken in as well (`Leaves`).
`reads_readToken` says the same of a whole token.
-/

namespace SvgComponent.Css

open Text

/-! ## Edges -/

/-- The texts in front of which a closed text ends. An exclamation mark counts unless it could
be part of the mark that opens a document comment. -/
inductive IsEdge : List Char → Prop
  | nil : IsEdge []
  | semicolon (rest : List Char) : IsEdge (';' :: rest)
  | bang {rest : List Char} (h : rest.head? ≠ some '-') : IsEdge ('!' :: rest)
  | blank {c : Char} {rest : List Char} (hc : isBlank c = true) (h : IsEdge rest) :
      IsEdge (c :: rest)

/-- The characters that an edge starts with. -/
def isEdgeChar (c : Char) : Bool := c = ';' || c = '!' || isBlank c

variable {edge cs : List Char} {c : Char}

theorem isBlank_iff :
    isBlank c = true ↔ c = ' ' ∨ c = '\t' ∨ c = '\n' ∨ c = '\r' ∨ c = '\x0c' := by
  simp only [isBlank, isNewline, Bool.or_eq_true, decide_eq_true_eq, or_assoc]

theorem isEdgeChar_iff : isEdgeChar c = true ↔
    c = ';' ∨ c = '!' ∨ c = ' ' ∨ c = '\t' ∨ c = '\n' ∨ c = '\r' ∨ c = '\x0c' := by
  simp only [isEdgeChar, Bool.or_eq_true, decide_eq_true_eq, or_assoc, isBlank_iff]

/-- An edge starts with one of its characters. -/
theorem IsEdge.isEdgeChar_head (h : IsEdge (c :: edge)) : isEdgeChar c = true := by
  cases h with
  | semicolon => rfl
  | bang => rfl
  | blank hc => simp [isEdgeChar, hc]

/-- Blanks in front of an edge are part of it. -/
theorem IsEdge.of_blanks {gap : List Char} (hgap : ∀ c ∈ gap, isBlank c = true)
    (h : IsEdge edge) : IsEdge (gap ++ edge) := by
  induction gap with
  | nil => exact h
  | cons c gap ih =>
    rw [List.forall_mem_cons] at hgap
    exact .blank hgap.1 (ih hgap.2)

/-- Behind its first blanks an edge is one still. -/
theorem IsEdge.of_append {gap : List Char} (hgap : ∀ c ∈ gap, isBlank c = true)
    (h : IsEdge (gap ++ edge)) : IsEdge edge := by
  induction gap with
  | nil => exact h
  | cons c gap ih =>
    rw [List.forall_mem_cons] at hgap
    refine ih hgap.2 ?_
    cases h with
    | semicolon => simp [isBlank, isNewline] at hgap
    | bang => simp [isBlank, isNewline] at hgap
    | blank _ h => exact h

/-- A test that no character of an edge passes tells the same of a text in front of it. -/
theorem IsEdge.any_head?_append {p : Char → Bool} (hp : ∀ c, isEdgeChar c = true → p c = false)
    (h : IsEdge edge) (cs : List Char) : (cs ++ edge).head?.any p = cs.head?.any p := by
  cases cs with
  | cons c cs => rfl
  | nil =>
    cases edge with
    | nil => rfl
    | cons d edge => exact hp d h.isEdgeChar_head

/-- Characters that start no edge are dropped up to the edge. -/
theorem IsEdge.dropWhile_append {p : Char → Bool} (hp : ∀ c, isEdgeChar c = true → p c = false)
    (h : IsEdge edge) (cs : List Char) : (cs ++ edge).dropWhile p = cs.dropWhile p ++ edge := by
  induction cs with
  | nil =>
    cases edge with
    | nil => rfl
    | cons d edge =>
      rw [List.nil_append, List.dropWhile_cons_of_neg (by simp [hp d h.isEdgeChar_head])]
      rfl
  | cons c cs ih =>
    rw [List.cons_append]
    by_cases hc : p c = true
    · rw [List.dropWhile_cons_of_pos hc, List.dropWhile_cons_of_pos hc, ih]
    · rw [List.dropWhile_cons_of_neg hc, List.dropWhile_cons_of_neg hc, List.cons_append]

/-- Characters that start no edge are taken from the text alone. -/
theorem IsEdge.takeWhile_append {p : Char → Bool} {front : List Char}
    (hp : ∀ c, isEdgeChar c = true → p c = false) (h : IsEdge edge) (hfront : front <+: edge)
    (cs : List Char) : (cs ++ front).takeWhile p = cs.takeWhile p := by
  induction cs with
  | nil =>
    cases front with
    | nil => rfl
    | cons d front =>
      obtain ⟨t, rfl⟩ := hfront
      rw [List.nil_append, List.takeWhile_cons_of_neg (by simp [hp d h.isEdgeChar_head])]
      rfl
  | cons c cs ih => rw [List.cons_append, List.takeWhile_cons, List.takeWhile_cons, ih]

/-! ## What is left in front of an edge -/

/-- What is left of a text that is followed by an edge, given what is left without the edge :
the edge is left whole, or nothing is left but the edge, whose first blanks are gone too. -/
inductive Leaves (edge : List Char) : List Char → List Char → Prop
  | all (rest : List Char) : Leaves edge rest (rest ++ edge)
  | blanks (gap : List Char) {out : List Char} (hgap : ∀ c ∈ gap, isBlank c = true)
      (h : edge = gap ++ out) : Leaves edge [] out

theorem Leaves.nil : Leaves edge [] edge := .all []

/-- In front of a semicolon no blank is taken in. -/
theorem Leaves.eq_of_semicolon {rest s t : List Char} (h : Leaves (';' :: rest) s t) :
    t = s ++ ';' :: rest := by
  cases h with
  | all => rfl
  | blanks gap hgap h =>
    cases gap with
    | nil => exact h.symm
    | cons c gap =>
      rw [List.cons_append, List.cons.injEq] at h
      have := hgap c List.mem_cons_self
      rw [← h.1] at this
      exact absurd this (by decide)

/-- The edge is left whole if something stands in front of it. -/
theorem Leaves.eq_of_cons {d : Char} {s t : List Char} (h : Leaves edge (d :: s) t) :
    t = d :: s ++ edge := by
  cases h with
  | all => rfl

/-- What is left of an edge is an edge. -/
theorem Leaves.isEdge_of_nil {out : List Char} (h : Leaves edge [] out) (he : IsEdge edge) :
    IsEdge out := by
  cases h with
  | all => exact he
  | blanks gap hgap h => exact .of_append hgap (h ▸ he)

/-- Blanks of an edge may be taken in bit by bit. -/
theorem Leaves.trans_nil {s out : List Char} (h : Leaves edge [] s) (h' : Leaves s [] out) :
    Leaves edge [] out := by
  have step {t u : List Char} (h : Leaves t [] u) :
      ∃ gap, (∀ c ∈ gap, isBlank c = true) ∧ t = gap ++ u := by
    cases h with
    | all => exact ⟨[], by simp, rfl⟩
    | blanks gap hgap h => exact ⟨_, hgap, h⟩
  obtain ⟨gap, hgap, he⟩ := step h
  obtain ⟨gap', hgap', he'⟩ := step h'
  refine .blanks (gap ++ gap') (fun c hc => ?_) (by rw [he, he', List.append_assoc])
  exact (List.mem_append.1 hc).elim (hgap c) (hgap' c)

/-! ## The two ways to end -/

/-- Takes in a semicolon behind the text. -/
def Crosses (f : List Char → List Char) (cs : List Char) : Prop :=
  ∀ rest, f (cs ++ ';' :: rest) <:+ rest

/-- Comes to one end in front of all edges. -/
def Ends (f : List Char → List Char) (cs : List Char) : Prop :=
  ∀ edge, IsEdge edge → Leaves edge (f cs) (f (cs ++ edge))

/-- The text has an end of its own, or else it is open. -/
def Settled (f : List Char → List Char) (cs : List Char) : Prop :=
  Crosses f cs ∨ Ends f cs

/-- The same of a function that reads something as well : what is read does not depend on the
edge either. -/
def Reads {α : Type} (f : List Char → α × List Char) (cs : List Char) : Prop :=
  Crosses (fun t => (f t).2) cs ∨
    Ends (fun t => (f t).2) cs ∧ ∀ edge, IsEdge edge → (f (cs ++ edge)).1 = (f cs).1

section Settling

variable {f g h : List Char → List Char} {s : List Char}

theorem settled_id : Settled id cs := .inr fun _ _ => .all _

theorem Crosses.of_eq (heq : ∀ edge, IsEdge edge → f (cs ++ edge) = g (s ++ edge))
    (hg : Crosses g s) : Crosses f cs := fun rest => heq _ (.semicolon rest) ▸ hg rest

/-- What is equal to another function, from some place on, ends where that one does. -/
theorem Ends.of_eq (heq : ∀ edge, IsEdge edge → f (cs ++ edge) = g (s ++ edge))
    (hg : Ends g s) : Ends f cs := fun edge he => by
  have hnil := heq [] .nil
  rw [List.append_nil, List.append_nil] at hnil
  rw [hnil, heq edge he]
  exact hg edge he

/-- What is equal to another function, from some place on, is settled there if that one is. -/
theorem Settled.of_eq (heq : ∀ edge, IsEdge edge → f (cs ++ edge) = g (s ++ edge))
    (hg : Settled g s) : Settled f cs :=
  hg.imp (.of_eq heq) (.of_eq heq)

/-- What is skipped whole is left out of the edge. -/
theorem settled_of_eq_append (s : List Char)
    (heq : ∀ edge, IsEdge edge → f (cs ++ edge) = s ++ edge) : Settled f cs := .of_eq heq settled_id

/-- A semicolon that is taken in is not given back. -/
theorem Crosses.comp (hsuffix : ∀ t, g t <:+ t) (hh : Crosses h cs) :
    Crosses (fun t => g (h t)) cs := fun rest => (hsuffix _).trans (hh rest)

/-- What starts where something else ends takes in a semicolon if it does so there. -/
theorem Ends.comp_crosses (hh : Ends h cs) (hg : Crosses g (h cs)) :
    Crosses (fun t => g (h t)) cs := fun rest => by
  have heq : h (cs ++ ';' :: rest) = h cs ++ ';' :: rest :=
    (hh _ (.semicolon rest)).eq_of_semicolon
  simpa only [heq] using hg rest

/-- What starts in front of an edge, or of what is left of it, leaves the edge as the other does. -/
theorem Leaves.comp {s t : List Char} (hsuffix : ∀ t, g t <:+ t) (he : IsEdge edge)
    (hl : Leaves edge s t) (hg : Ends g s) : Leaves edge (g s) (g t) := by
  cases s with
  | cons d s =>
    rw [hl.eq_of_cons]
    exact hg edge he
  | nil =>
    have hnil : g [] = [] := List.suffix_nil.1 (hsuffix [])
    have hout : Leaves t (g []) (g t) := hg t (hl.isEdge_of_nil he)
    rw [hnil] at hout ⊢
    exact hl.trans_nil hout

/-- What is read behind something else does not depend on the edge. -/
theorem Leaves.fst_eq {α : Type} {f : List Char → α × List Char} {s t : List Char}
    (he : IsEdge edge) (hl : Leaves edge s t)
    (hf : ∀ edge, IsEdge edge → (f (s ++ edge)).1 = (f s).1) : (f t).1 = (f s).1 := by
  cases s with
  | cons d s =>
    rw [hl.eq_of_cons]
    exact hf edge he
  | nil => exact hf t (hl.isEdge_of_nil he)

/-- Two functions that are settled are so one after the other. -/
theorem Settled.comp (hsuffix : ∀ t, g t <:+ t) (hh : Settled h cs)
    (hg : Settled g (h cs)) : Settled (fun t => g (h t)) cs := by
  obtain hh | hh := hh
  · exact .inl (hh.comp hsuffix)
  obtain hg | hg := hg
  · exact .inl (hh.comp_crosses hg)
  · exact .inr fun edge he => (hh edge he).comp hsuffix he hg

/-- Where reading ends can be told from the text if what is read can. -/
theorem Reads.settled {α : Type} {f : List Char → α × List Char} (h : Reads f cs) :
    Settled (fun t => (f t).2) cs := h.imp_right And.left

/-- One kind for whatever is skipped. -/
theorem Settled.reads {α : Type} (k : α) (h : Settled f cs) : Reads (fun t => (k, f t)) cs :=
  h.imp_right fun h => ⟨h, fun _ _ => rfl⟩

/-- What is equal to another reader, from some place on, reads what that one reads. -/
theorem Reads.of_eq {α : Type} {f g : List Char → α × List Char}
    (heq : ∀ edge, IsEdge edge → f (cs ++ edge) = g (s ++ edge)) (hg : Reads g s) :
    Reads f cs := by
  have hsnd : ∀ edge, IsEdge edge → (f (cs ++ edge)).2 = (g (s ++ edge)).2 :=
    fun edge he => congrArg Prod.snd (heq edge he)
  refine hg.imp (.of_eq hsnd) fun hg => ⟨.of_eq hsnd hg.1, fun edge he => ?_⟩
  have hnil := heq [] .nil
  rw [List.append_nil, List.append_nil] at hnil
  rw [heq edge he, hnil, hg.2 edge he]

theorem Reads.map {α β : Type} {f : List Char → α × List Char} (k : α → β) (h : Reads f cs) :
    Reads (fun t => (k (f t).1, (f t).2)) cs :=
  h.imp_right fun h => ⟨h.1, fun edge he => congrArg k (h.2 edge he)⟩

/-- One reader after another. -/
theorem Reads.comp {α β γ : Type} {f : List Char → α × List Char} {h : List Char → β × List Char}
    (k : β → α → γ) (hsuffix : ∀ t, (f t).2 <:+ t) (hh : Reads h cs)
    (hf : Reads f (h cs).2) : Reads (fun t => (k (h t).1 (f (h t).2).1, (f (h t).2).2)) cs := by
  obtain hh | ⟨hh, hfst⟩ := hh
  · exact .inl (Crosses.comp (g := fun t => (f t).2) hsuffix hh)
  obtain hf | ⟨hf, hfst'⟩ := hf
  · exact .inl (hh.comp_crosses hf)
  · refine .inr ⟨fun edge he => (hh edge he).comp hsuffix he hf, fun edge he => ?_⟩
    exact congrArg₂ k (hfst edge he) ((hh edge he).fst_eq he hfst')

end Settling

/-! ## Characters in front of an edge -/

/-- The tests that tell the characters of tokens apart from those of an edge. -/
theorem isNameChar_eq_false (h : isEdgeChar c = true) : isNameChar c = false := by
  obtain rfl | rfl | rfl | rfl | rfl | rfl | rfl := isEdgeChar_iff.1 h <;> decide

theorem isHex_eq_false (h : isEdgeChar c = true) : isHex c = false := by
  obtain rfl | rfl | rfl | rfl | rfl | rfl | rfl := isEdgeChar_iff.1 h <;> decide

theorem isDigit_eq_false (h : isEdgeChar c = true) : c.isDigit = false := by
  obtain rfl | rfl | rfl | rfl | rfl | rfl | rfl := isEdgeChar_iff.1 h <;> decide

theorem isNameStart_eq_false (h : isEdgeChar c = true) : isNameStart c = false := by
  have := isNameChar_eq_false h
  simp only [isNameChar, Bool.or_eq_false_iff] at this
  exact this.1.1

theorem IsEdge.ne {d : Char} (h : IsEdge (c :: edge)) (hd : isEdgeChar d = false) : c ≠ d := by
  rintro rfl
  rw [h.isEdgeChar_head] at hd
  exact absurd hd (by decide)

/-- Whether a digit comes next does not depend on the edge. -/
theorem IsEdge.startsWithDigit_append (h : IsEdge edge) (cs : List Char) :
    startsWithDigit (cs ++ edge) = startsWithDigit cs := by
  have := h.any_head?_append (p := Char.isDigit) (fun _ => isDigit_eq_false) cs
  have heq (t : List Char) : startsWithDigit t = t.head?.any Char.isDigit := by cases t <;> rfl
  rw [heq, heq, this]

theorem startsWithNewline_append {cs : List Char} (hne : cs ≠ []) (t : List Char) :
    startsWithNewline (cs ++ t) = startsWithNewline cs := by
  cases cs with
  | nil => exact absurd rfl hne
  | cons c cs => rfl

theorem startsName_of_ne {r : List Char} (hslash : c ≠ '\\') (hdash : c ≠ '-') :
    startsName (c :: r) = isNameStart c := by
  rw [startsName.eq_def]
  split <;> simp_all

theorem startsName_hyphen_of_ne {r : List Char} (hslash : c ≠ '\\') :
    startsName ('-' :: c :: r) = (isNameStart c || decide (c = '-')) := by
  simp [startsName]

/-- No name starts at an edge. -/
theorem IsEdge.startsName_eq_false (h : IsEdge edge) : startsName edge = false := by
  cases edge with
  | nil => rfl
  | cons c edge =>
    rw [startsName_of_ne (h.ne (by decide)) (h.ne (by decide)),
      isNameStart_eq_false h.isEdgeChar_head]

/-- A hyphen in front of an edge starts no name. -/
theorem IsEdge.startsName_hyphen (h : IsEdge edge) : startsName ('-' :: edge) = false := by
  cases edge with
  | nil => rfl
  | cons c edge =>
    rw [startsName_hyphen_of_ne (h.ne (by decide)), isNameStart_eq_false h.isEdgeChar_head,
      decide_eq_false (h.ne (by decide)), Bool.or_false]

/-- A backslash at the end, alone or behind a hyphen. -/
def IsOpenName (cs : List Char) : Prop := cs = ['\\'] ∨ cs = ['-', '\\']

/-- Whether a name is in front can be told in front of an edge, unless it is an escape that
takes in the edge. -/
theorem IsEdge.startsName_append (h : IsEdge edge) (hopen : ¬ IsOpenName cs) :
    startsName (cs ++ edge) = startsName cs := by
  rw [IsOpenName, not_or] at hopen
  rcases cs with - | ⟨c, r⟩
  · exact h.startsName_eq_false
  by_cases hslash : c = '\\'
  · subst hslash
    have hr : r ≠ [] := by rintro rfl; exact hopen.1 rfl
    exact congrArg (!·) (startsWithNewline_append hr edge)
  by_cases hdash : c = '-'
  · subst hdash
    rcases r with - | ⟨d, r⟩
    · exact h.startsName_hyphen
    by_cases hd : d = '\\'
    · subst hd
      have hr : r ≠ [] := by rintro rfl; exact hopen.2 rfl
      exact congrArg (!·) (startsWithNewline_append hr edge)
    · rw [List.cons_append, List.cons_append, startsName_hyphen_of_ne hd,
        startsName_hyphen_of_ne hd]
  · rw [List.cons_append, startsName_of_ne hslash hdash, startsName_of_ne hslash hdash]

/-- Whether a certain mark comes next does not depend on the edge, unless edges start with it. -/
theorem IsEdge.head?_append_iff {d : Char} (h : IsEdge edge) (hd : isEdgeChar d = false) :
    (cs ++ edge).head? = some d ↔ cs.head? = some d := by
  cases cs with
  | cons c cs => exact Iff.rfl
  | nil =>
    cases edge with
    | nil => exact Iff.rfl
    | cons c edge => simpa using h.ne hd

/-- Whether a fraction comes next does not depend on the edge. -/
theorem IsEdge.startsWithFraction_append (h : IsEdge edge) (cs : List Char) :
    (match cs ++ edge with | '.' :: s => startsWithDigit s | _ => false) =
      match cs with | '.' :: s => startsWithDigit s | _ => false := by
  cases cs with
  | nil =>
    cases edge with
    | nil => rfl
    | cons c edge =>
      have hc : c ≠ '.' := h.ne (by decide)
      simp [hc]
  | cons c cs =>
    by_cases hc : c = '.'
    · subst hc
      exact h.startsWithDigit_append cs
    · simp [hc]

theorem startsNumber_of_ne {r : List Char} (hplus : c ≠ '+') (hdash : c ≠ '-') (hdot : c ≠ '.') :
    startsNumber (c :: r) = c.isDigit := by
  rw [startsNumber.eq_def]
  split <;> simp_all

/-- Whether a number starts here does not depend on the edge. -/
theorem IsEdge.startsNumber_append (h : IsEdge edge) (cs : List Char) :
    startsNumber (cs ++ edge) = startsNumber cs := by
  rcases cs with - | ⟨c, r⟩
  · cases edge with
    | nil => rfl
    | cons c edge =>
      rw [List.nil_append, startsNumber_of_ne (h.ne (by decide)) (h.ne (by decide))
        (h.ne (by decide)), isDigit_eq_false h.isEdgeChar_head]
      rfl
  rw [List.cons_append]
  by_cases hplus : c = '+'
  · subst hplus
    exact congrArg₂ (· || ·) (h.startsWithDigit_append r) (h.startsWithFraction_append r)
  by_cases hdash : c = '-'
  · subst hdash
    exact congrArg₂ (· || ·) (h.startsWithDigit_append r) (h.startsWithFraction_append r)
  by_cases hdot : c = '.'
  · subst hdot
    exact h.startsWithDigit_append r
  · rw [startsNumber_of_ne hplus hdash hdot, startsNumber_of_ne hplus hdash hdot]

/-- A mark without characters of edges does not reach into an edge. -/
theorem IsEdge.isSome_stripMark?_append {m : List Char} (h : IsEdge edge)
    (hm : m.any isEdgeChar = false) (cs : List Char) :
    (stripMark? m (cs ++ edge)).isSome = (stripMark? m cs).isSome := by
  induction m generalizing cs with
  | nil => rfl
  | cons d m ih =>
    rw [List.any_cons, Bool.or_eq_false_iff] at hm
    cases cs with
    | nil =>
      cases edge with
      | nil => rfl
      | cons c edge => simp [stripMark?, (h.ne hm.1).symm]
    | cons c cs =>
      rw [List.cons_append, stripMark?, stripMark?]
      split
      · exact ih hm.2 cs
      · rfl

/-- Nor does the mark that opens a document comment, by the choice of what an edge is. -/
theorem IsEdge.isSome_stripMark?_opening (h : IsEdge edge) (cs : List Char) :
    (stripMark? ['!', '-', '-'] (cs ++ edge)).isSome =
      (stripMark? ['!', '-', '-'] cs).isSome := by
  cases cs with
  | cons c cs =>
    rw [List.cons_append, stripMark?, stripMark?]
    split
    · exact h.isSome_stripMark?_append (by decide) cs
    · rfl
  | nil =>
    cases h with
    | nil => rfl
    | semicolon => rfl
    | @bang rest hrest =>
      cases rest with
      | nil => rfl
      | cons d rest =>
        have hd : '-' ≠ d := fun e => hrest (by rw [e]; rfl)
        simp [stripMark?, hd]
    | @blank c _ hc =>
      have hne : '!' ≠ c := by rintro rfl; exact absurd hc (by decide)
      simp [stripMark?, hne]

end SvgComponent.Css
