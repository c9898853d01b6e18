import SvgComponent.Proofs.Css.Closing

/-!
# Names in style texts

An ASCII identifier without escapes (`IsIdent`) is one token, up to a blank, a colon or what
else ends a name (`tokens_ident`) : it is not read as a number, and its hyphens not as the mark
that closes a document comment.
-/

namespace SvgComponent.Css

open Text

def isLetter (c : Char) : Bool := c.isAlpha || c = '_'

/-- The ASCII characters of names. -/
def isWordChar (c : Char) : Bool := isLetter c || c.isDigit || c = '-'

/-- The ASCII identifiers without escapes, those of custom properties included. -/
inductive IsIdent : List Char → Prop
  | letter {c : Char} {rest : List Char} (hc : isLetter c = true)
      (h : ∀ d ∈ rest, isWordChar d = true) : IsIdent (c :: rest)
  | hyphen {c : Char} {rest : List Char} (hc : isLetter c = true)
      (h : ∀ d ∈ rest, isWordChar d = true) : IsIdent ('-' :: c :: rest)
  | custom {rest : List Char} (h : ∀ d ∈ rest, isWordChar d = true) : IsIdent ('-' :: '-' :: rest)

/-- The characters in front of which a name ends. -/
def isNameEnd (c : Char) : Bool := c = ':' || isEdgeChar c

variable {c d : Char} {name rest : List Char}

/-! ## Characters -/

theorem isWordChar_of_isLetter (h : isLetter c = true) : isWordChar c = true := by
  simp [isWordChar, h]

/-- An identifier consists of the characters of names. -/
theorem IsIdent.isWordChar (h : IsIdent name) : ∀ d ∈ name, isWordChar d = true := by
  cases h with
  | letter hc h => exact List.forall_mem_cons.2 ⟨isWordChar_of_isLetter hc, h⟩
  | hyphen hc h =>
    exact List.forall_mem_cons.2 ⟨rfl, List.forall_mem_cons.2 ⟨isWordChar_of_isLetter hc, h⟩⟩
  | custom h => exact List.forall_mem_cons.2 ⟨rfl, List.forall_mem_cons.2 ⟨rfl, h⟩⟩

theorem isNameStart_of_isLetter (h : isLetter c = true) : isNameStart c = true := by
  simp only [isLetter, Bool.or_eq_true, decide_eq_true_eq] at h
  obtain h | rfl := h
  · simp [isNameStart, h]
  · decide

/-- What an identifier consists of is read as part of a name. -/
theorem isNameChar_of_isWordChar (h : isWordChar c = true) : isNameChar c = true := by
  simp only [isWordChar, Bool.or_eq_true, decide_eq_true_eq] at h
  obtain (h | h) | rfl := h
  · simp [isNameChar, isNameStart_of_isLetter h]
  · simp [isNameChar, h]
  · decide

theorem isWordChar_ne (h : isWordChar c = true) (hd : isWordChar d = false) : c ≠ d := by
  rintro rfl
  rw [h] at hd
  exact absurd hd (by decide)

theorem isLetter_ne (h : isLetter c = true) (hd : isLetter d = false) : c ≠ d := by
  rintro rfl
  rw [h] at hd
  exact absurd hd (by decide)

theorem isDigit_of_isLetter (h : isLetter c = true) : c.isDigit = false := by
  have hdigits : ∀ n < 58, 48 ≤ n → isLetter (Char.ofNat n) = false := by decide
  by_contra hd
  rw [Bool.not_eq_false] at hd
  have hbounds : 48 ≤ c.toNat ∧ c.toNat < 58 := by
    simp only [Char.isDigit, Bool.and_eq_true, decide_eq_true_eq, UInt32.le_iff_toNat_le,
      ge_iff_le] at hd
    exact ⟨hd.1, Nat.lt_succ_of_le hd.2⟩
  have hletter := hdigits c.toNat hbounds.2 hbounds.1
  rw [Char.ofNat_toNat, h] at hletter
  exact Bool.noConfusion hletter

theorem isNameEnd_iff : isNameEnd c = true ↔ c = ':' ∨ isEdgeChar c = true := by
  simp only [isNameEnd, Bool.or_eq_true, decide_eq_true_eq]

theorem isNameEnd_ne (h : isNameEnd c = true) (hd : isNameEnd d = false) : c ≠ d := by
  rintro rfl
  rw [h] at hd
  exact absurd hd (by decide)

/-- A name is not read on past its end. -/
theorem isNameChar_of_isNameEnd (h : isNameEnd c = true) : isNameChar c = false := by
  obtain rfl | h := isNameEnd_iff.1 h
  · decide
  · exact isNameChar_eq_false h

/-! ## Reading a name -/

/-- A name is read whole, up to what ends names. -/
theorem readName_append (h : ∀ d ∈ name, isWordChar d = true)
    (hr : ∀ d ∈ rest.head?, isNameEnd d = true) : readName (name ++ rest) = (name, rest) := by
  induction name with
  | nil =>
    cases rest with
    | nil => rw [List.nil_append, readName]
    | cons d rest =>
      have hd : isNameEnd d = true := hr d rfl
      exact readName_of_ne (isNameEnd_ne hd (by decide)) (isNameChar_of_isNameEnd hd)
  | cons c name ih =>
    rw [List.forall_mem_cons] at h
    have hne : c ≠ '\x00' := isWordChar_ne h.1 (by decide)
    rw [List.cons_append, readName_isNameChar (isNameChar_of_isWordChar h.1), ih h.2, if_neg hne]

/-- An identifier is read as a name, even with hyphens in front. -/
theorem IsIdent.isNamed (h : IsIdent name) (hr : ∀ d ∈ rest.head?, isNameEnd d = true) :
    isNamed (name ++ rest) = true := by
  cases h with
  | @letter c name hc h =>
    have hname : startsName (c :: (name ++ rest)) = true := by
      rw [startsName_of_ne (isLetter_ne hc (by decide)) (isLetter_ne hc (by decide)),
        isNameStart_of_isLetter hc]
    have hnumber : startsNumber (c :: (name ++ rest)) = false := by
      rw [startsNumber_of_ne (isLetter_ne hc (by decide)) (isLetter_ne hc (by decide))
        (isLetter_ne hc (by decide)), isDigit_of_isLetter hc]
    have hmark : '-' ≠ c := (isLetter_ne hc (by decide)).symm
    simp [Css.isNamed, hname, hnumber, stripMark?, hmark]
  | @hyphen c name hc h =>
    have hname : startsName ('-' :: c :: (name ++ rest)) = true := by
      rw [startsName_hyphen_of_ne (isLetter_ne hc (by decide)), isNameStart_of_isLetter hc,
        Bool.true_or]
    have hdot : c ≠ '.' := isLetter_ne hc (by decide)
    have hmark : '-' ≠ c := (isLetter_ne hc (by decide)).symm
    simp [Css.isNamed, hname, startsNumber, startsWithDigit, isDigit_of_isLetter hc, hdot,
      stripMark?, hmark]
  | @custom name h =>
    have hmark : stripMark? ['-', '-', '>'] ('-' :: '-' :: (name ++ rest)) = none := by
      have hhead : ∀ d ∈ (name ++ rest).head?, '>' ≠ d := by
        cases name with
        | nil => exact fun d hd => (isNameEnd_ne (hr d hd) (by decide)).symm
        | cons d name =>
          rintro e ⟨⟩
          exact (isWordChar_ne (h d List.mem_cons_self) (by decide)).symm
      cases hcs : name ++ rest with
      | nil => rfl
      | cons d cs =>
        rw [hcs] at hhead
        simp [stripMark?, hhead d rfl]
    have hname : startsName ('-' :: '-' :: (name ++ rest)) = true := rfl
    have hnumber : startsNumber ('-' :: '-' :: (name ++ rest)) = false := rfl
    simp [Css.isNamed, hname, hnumber, hmark]

theorem markKind?_of_isWordChar (h : isWordChar c = true) : markKind? c = none := by
  unfold markKind?
  split <;> first | rfl | exact absurd h (by decide)

theorem isBlank_of_isWordChar (h : isWordChar c = true) : isBlank c = false := by
  by_contra hb
  rw [Bool.not_eq_false, isBlank_iff] at hb
  obtain rfl | rfl | rfl | rfl | rfl := hb <;> exact absurd h (by decide)

theorem IsIdent.ne_nil (h : IsIdent name) : name ≠ [] := by
  cases h <;> exact List.cons_ne_nil _ _

/-- An identifier is one token, up to what ends names. -/
theorem tokens_ident (h : IsIdent name) (hr : ∀ d ∈ rest.head?, isNameEnd d = true) :
    tokens (name ++ rest) = ⟨.ident name, name⟩ :: tokens rest := by
  obtain ⟨c, r, rfl⟩ := List.exists_cons_of_ne_nil h.ne_nil
  have hc : Css.isWordChar c = true := h.isWordChar c List.mem_cons_self
  have hname : readName (c :: (r ++ rest)) = (c :: r, rest) := readName_append h.isWordChar hr
  have hparen : (readName (c :: (r ++ rest))).2.head? ≠ some '(' := by
    rw [hname]
    exact fun hp => isNameEnd_ne (hr '(' hp) (by decide) rfl
  have hnamed : Css.isNamed (c :: (r ++ rest)) = true := h.isNamed hr
  have hread : readToken c (r ++ rest) = (.ident (c :: r), rest) := by
    rw [readToken_of_none (markKind?_of_isWordChar hc), if_neg (by simp [isBlank_of_isWordChar hc]),
      if_neg (not_or.2 ⟨isWordChar_ne hc (by decide), isWordChar_ne hc (by decide)⟩),
      if_neg fun h => isWordChar_ne hc (by decide) h.1, readWord,
      if_neg fun h => isWordChar_ne hc (by decide) h.1, if_pos hnamed, readNamed_eq_ident hparen,
      hname]
  exact tokens_of_readToken hread rfl

end SvgComponent.Css
