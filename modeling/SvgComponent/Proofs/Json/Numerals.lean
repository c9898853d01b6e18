import SvgComponent.Proofs.Json.Respacing
import SvgComponent.Proofs.Text.Casing

/-!
# Numbers at the front of words

Numbers are read and passed over digit by digit, so that neither looks behind the word that the
number stands in (`readAlike_read`, `readAlike_skip`) : at the end of the word there is no digit, no
point and no exponent, whatever follows. The number of bytes given is that of the characters in
front of what is left (`Leaves`).
-/

namespace SvgComponent.Json

open Text Numeral

variable {a b cs word rest : List Char} {c d : Char} {n : Nat}

/-! ## Digits -/

/-- A digit is a character of words, and one byte. -/
theorem isWordChar_of_isDigit (h : c.isDigit = true) : isWordChar c = true ∧ c.utf8Size = 1 := by
  have hall : ∀ c : Char, c.toNat < 0x80 →
      c.isDigit = true → isWordChar c = true ∧ c.utf8Size = 1 := forall_ascii (by decide)
  have hbound : c.val ≤ '9'.val := of_decide_eq_true (Bool.and_eq_true_iff.1 h).2
  exact hall c (Nat.lt_of_le_of_lt (UInt32.le_iff_toNat_le.1 hbound) (by decide)) h

/-- Behind a word no digit comes next. -/
theorem isDigit_of_startsWord (h : startsWord a = false) : ∀ c ∈ a.head?, c.isDigit = false := by
  intro c hc
  obtain ⟨rest, rfl⟩ := List.head?_eq_some_iff.1 hc
  rw [← Bool.not_eq_true]
  exact fun hd => ne_of_startsWord h (isWordChar_of_isDigit hd).1 rfl

theorem startsWithDigit_of_startsWord (h : startsWord a = false) : startsWithDigit a = false := by
  cases a with
  | nil => rfl
  | cons c a => exact isDigit_of_startsWord h c rfl

/-- The digits of a word do not go on behind it. -/
theorem takeWhile_isDigit_append (word : List Char) (ha : startsWord a = false) :
    (word ++ a).takeWhile Char.isDigit = word.takeWhile Char.isDigit := by
  induction word with
  | nil => exact takeWhile_run (List.forall_mem_nil _) (isDigit_of_startsWord ha)
  | cons c word ih =>
    rw [List.cons_append, List.takeWhile_cons, List.takeWhile_cons, ih]

/-- What follows the digits of a word is in it, or behind it. -/
theorem dropWhile_isDigit_append (word : List Char) (ha : startsWord a = false) :
    (word ++ a).dropWhile Char.isDigit = word.dropWhile Char.isDigit ++ a := by
  induction word with
  | nil => exact dropWhile_run (List.forall_mem_nil _) (isDigit_of_startsWord ha)
  | cons c word ih =>
    rw [List.cons_append, List.dropWhile_cons, List.dropWhile_cons, ih]
    split_ifs <;> rfl

theorem width_takeWhile_isDigit (cs : List Char) :
    width (cs.takeWhile Char.isDigit) = (cs.takeWhile Char.isDigit).length := by
  induction cs with
  | nil => rfl
  | cons c cs ih =>
    rw [List.takeWhile_cons]
    split_ifs with hc
    · rw [width_cons, (isWordChar_of_isDigit hc).2, ih, List.length_cons, Nat.add_comm]
    · rfl

/-- What is left of a word behind some bytes of it, of which there are some. -/
def Leaves (word : List Char) (n : Nat) (rest : List Char) : Prop :=
  ∃ front, front ≠ [] ∧ word = front ++ rest ∧ width front = n

namespace Leaves

theorem append {front : List Char} (h : Leaves word n (front ++ rest)) :
    Leaves word (n + width front) rest := by
  obtain ⟨before, hne, rfl, rfl⟩ := h
  exact ⟨before ++ front, by simp [hne], by rw [List.append_assoc], width_append _ _⟩

/-- A letter or mark of a numeral is one byte. -/
theorem cons (h : Leaves word n (c :: rest)) (hc : c.utf8Size = 1) : Leaves word (n + 1) rest := by
  have hbehind : Leaves word (n + width [c]) rest := h.append
  rwa [width_cons, hc, width_nil] at hbehind

theorem digits (h : Leaves word n rest) :
    Leaves word (n + (rest.takeWhile Char.isDigit).length) (rest.dropWhile Char.isDigit) := by
  rw [← List.takeWhile_append_dropWhile (p := Char.isDigit) (l := rest)] at h
  have hbehind := h.append
  rwa [width_takeWhile_isDigit] at hbehind

/-- The sign of an exponent is read off what is left of a word. -/
theorem sign (h : Leaves word n rest) :
    Leaves word (n + (exponentSign rest).2.1) (exponentSign rest).2.2 := by
  rw [exponentSign.eq_def]
  split
  · exact h.cons (by decide)
  · exact h.cons (by decide)
  · exact h

theorem of_digits (h : word.takeWhile Char.isDigit ≠ []) :
    Leaves word (word.takeWhile Char.isDigit).length (word.dropWhile Char.isDigit) :=
  ⟨_, h, List.takeWhile_append_dropWhile.symm, width_takeWhile_isDigit word⟩

/-- What is left of a word that two texts have in common is left in both. -/
theorem readAlike {α : Type} {x : α} (h : Leaves word n rest) (hw : CommonWord word a b) :
    ReadAlike 1 (word ++ a) (word ++ b) (.ok (x, n, rest ++ a)) (.ok (x, n, rest ++ b)) := by
  obtain ⟨front, hne, rfl, rfl⟩ := h
  exact .ok (List.length_pos_iff.2 hne) (List.append_assoc ..) (List.append_assoc ..)
    hw.of_append.inWord.1

end Leaves

/-- The sign of an exponent is in the word, or there is none. -/
theorem exponentSign_append (word : List Char) (ha : startsWord a = false) :
    exponentSign (word ++ a) =
      ((exponentSign word).1, (exponentSign word).2.1, (exponentSign word).2.2 ++ a) := by
  cases word with
  | nil =>
    cases a with
    | nil => rfl
    | cons c a =>
      have hplus : c ≠ '+' := ne_of_startsWord ha (by decide)
      have hminus : c ≠ '-' := ne_of_startsWord ha (by decide)
      rw [List.nil_append, exponentSign]
      · rfl
      · exact fun _ he => hplus (List.cons.inj he).1
      · exact fun _ he => hminus (List.cons.inj he).1
  | cons c word =>
    by_cases hplus : c = '+'
    · subst hplus
      rfl
    by_cases hminus : c = '-'
    · subst hminus
      rfl
    have hsame (cs : List Char) : exponentSign (c :: cs) = (true, 0, c :: cs) :=
      exponentSign.eq_3 _ (fun _ he => hplus (List.cons.inj he).1)
        (fun _ he => hminus (List.cons.inj he).1)
    rw [List.cons_append, hsame, hsame]
    rfl

/-- An exponent that is taken in is taken in whole. -/
theorem length_of_accumulateExponent {value read m e : Nat}
    (h : accumulateExponent value read cs = (some e, m)) : m = read + cs.length := by
  induction cs generalizing value read with
  | nil =>
    cases h
    rfl
  | cons c cs ih =>
    rw [accumulateExponent] at h
    split_ifs at h
    · rw [ih h, List.length_cons]
      omega
    · cases h

/-! ## Reading a number -/

section

variable (hw : CommonWord word a b)
include hw

/-- A number that ends in a word is the same whatever follows the word. -/
theorem readAlike_finish (positive : Bool) (significand : Nat) (exponent : Int)
    (h : Leaves word n rest) :
    ReadAlike 1 (word ++ a) (word ++ b) (finish positive significand exponent n (rest ++ a))
      (finish positive significand exponent n (rest ++ b)) := by
  rw [finish, finish]
  cases doubleOf? significand exponent with
  | some x => exact h.readAlike hw
  | none => exact .error

/-- An exponent that starts in a word ends in it. -/
theorem readAlike_readExponent (positive : Bool) (significand : Nat) (start : Int)
    (h : Leaves word n rest) :
    ReadAlike 1 (word ++ a) (word ++ b) (readExponent positive significand start n (rest ++ a))
      (readExponent positive significand start n (rest ++ b)) := by
  have hsign := h.sign
  rw [readExponent, readExponent, exponentSign_append rest hw.left,
    exponentSign_append rest hw.right]
  generalize exponentSign rest = sign at hsign
  obtain ⟨up, length, digits⟩ := sign
  dsimp only at hsign ⊢
  simp only [takeWhile_isDigit_append _ hw.left, takeWhile_isDigit_append _ hw.right,
    dropWhile_isDigit_append _ hw.left, dropWhile_isDigit_append _ hw.right]
  cases digits with
  | nil =>
    simp only [List.nil_append, startsWithDigit_of_startsWord hw.left,
      startsWithDigit_of_startsWord hw.right, Bool.false_eq_true, if_false]
    split <;> split <;> exact .error
  | cons c digits =>
    have hstarts (cs : List Char) : startsWithDigit (c :: digits ++ cs) = c.isDigit := rfl
    have hrest := hsign.digits
    simp only [hstarts]
    by_cases hc : c.isDigit = true
    · rw [if_pos hc, if_pos hc]
      cases hvalue : accumulateExponent 0 0 ((c :: digits).takeWhile Char.isDigit) with
      | mk value read =>
        cases value with
        | some exponent =>
          have hread := length_of_accumulateExponent hvalue
          rw [Nat.zero_add] at hread
          rw [← hread] at hrest
          exact readAlike_finish hw _ _ _ hrest
        | none =>
          dsimp only
          split_ifs
          · exact .error
          · exact hrest.readAlike hw
    · rw [if_neg hc, if_neg hc]
      exact .error

/-- Behind the digits of a number an exponent is in the same word. -/
theorem readAlike_readTail (positive : Bool) (significand : Nat) (exponent : Int)
    (h : Leaves word n rest) :
    ReadAlike 1 (word ++ a) (word ++ b) (readTail positive significand exponent n (rest ++ a))
      (readTail positive significand exponent n (rest ++ b)) := by
  have hbehind : ∀ {x}, startsWord x = false → ∀ n,
      readTail positive significand exponent n x = finish positive significand exponent n x := by
    intro x hx n
    cases x with
    | nil => rfl
    | cons c x =>
      have he : c ≠ 'e' := ne_of_startsWord hx (by decide)
      have hE : c ≠ 'E' := ne_of_startsWord hx (by decide)
      exact if_neg (not_or.2 ⟨he, hE⟩)
  cases rest with
  | nil =>
    rw [List.nil_append, List.nil_append, hbehind hw.left, hbehind hw.right]
    exact readAlike_finish hw _ _ _ h
  | cons c rest =>
    rw [List.cons_append, List.cons_append, readTail, readTail]
    split_ifs with hc
    · exact readAlike_readExponent hw _ _ _ (h.cons (by rcases hc with rfl | rfl <;> decide))
    · exact readAlike_finish hw _ _ _ h

/-- A fraction that starts in a word ends in it. -/
theorem readAlike_readFraction (positive : Bool) (significand : Nat) (exponent : Int)
    (h : Leaves word n rest) :
    ReadAlike 1 (word ++ a) (word ++ b) (readFraction positive significand exponent n (rest ++ a))
      (readFraction positive significand exponent n (rest ++ b)) := by
  have hdigits := h.digits
  rw [readFraction, readFraction, takeWhile_isDigit_append _ hw.left,
    takeWhile_isDigit_append _ hw.right, dropWhile_isDigit_append _ hw.left,
    dropWhile_isDigit_append _ hw.right]
  cases hd : rest.takeWhile Char.isDigit with
  | nil =>
    generalize rest.dropWhile Char.isDigit ++ a = left
    generalize rest.dropWhile Char.isDigit ++ b = right
    cases left <;> cases right <;> exact .error
  | cons d digits =>
    rw [hd] at hdigits
    exact readAlike_readTail hw _ _ _ hdigits

end

/-- Whether digits are those of a whole number. -/
def areWhole : List Char → Bool
  | [] => false
  | '0' :: _ :: _ => false
  | _ => true

theorem ne_nil_of_areWhole (h : areWhole cs = true) : cs ≠ [] := by
  rintro rfl
  cases h

/-- Reads what follows the digits of a whole number. -/
def readBehind (positive : Bool) (digits : List Char) (n : Nat) : List Char → Located Scanned
  | [] =>
    if (accumulate 0 digits).2.isEmpty then .ok (whole positive (accumulate 0 digits).1, n, [])
    else finish positive (accumulate 0 digits).1 (accumulate 0 digits).2.length n []
  | c :: cs =>
    if c = '.' then
      readFraction positive (accumulate 0 digits).1 (accumulate 0 digits).2.length (n + 1) cs
    else if c = 'e' ∨ c = 'E' then
      readExponent positive (accumulate 0 digits).1 (accumulate 0 digits).2.length (n + 1) cs
    else if (accumulate 0 digits).2.isEmpty then
      .ok (whole positive (accumulate 0 digits).1, n, c :: cs)
    else finish positive (accumulate 0 digits).1 (accumulate 0 digits).2.length n (c :: cs)

/-- There is no number without digits, or with a leading zero. -/
theorem exists_read_eq_error (positive : Bool) (n : Nat)
    (h : areWhole (cs.takeWhile Char.isDigit) = false) :
    ∃ fault, Numeral.read positive n cs = .error fault := by
  unfold Numeral.read
  generalize cs.takeWhile Char.isDigit = digits at h
  dsimp only
  split
  · exact ⟨_, rfl⟩
  · exact ⟨_, rfl⟩
  · exact ⟨_, rfl⟩
  · rename_i hnil hzero
    rw [areWhole.eq_3 _ hnil hzero] at h
    cases h

/-- A number is read as its digits and what follows them. -/
theorem read_eq_readBehind (positive : Bool) (n : Nat)
    (h : areWhole (cs.takeWhile Char.isDigit) = true) :
    Numeral.read positive n cs =
      readBehind positive (cs.takeWhile Char.isDigit) (n + (cs.takeWhile Char.isDigit).length)
        (cs.dropWhile Char.isDigit) := by
  unfold Numeral.read
  have hne : cs ≠ [] := by
    rintro rfl
    cases h
  generalize cs.takeWhile Char.isDigit = digits at h
  generalize cs.dropWhile Char.isDigit = rest
  dsimp only
  split
  · contradiction
  · cases h
  · cases h
  · split
    · rfl
    · rfl
    · rfl
    · rename_i hpoint he hE
      cases rest with
      | nil => rfl
      | cons c rest =>
        have hp : c ≠ '.' := fun hc => hpoint rest (hc ▸ rfl)
        have hletter : ¬ (c = 'e' ∨ c = 'E') :=
          not_or.2 ⟨fun hc => he rest (hc ▸ rfl), fun hc => hE rest (hc ▸ rfl)⟩
        rw [readBehind, if_neg hp, if_neg hletter]

/-- What follows the digits of a number is in the same word. -/
theorem readAlike_readBehind (hw : CommonWord word a b) (positive : Bool) (digits : List Char)
    (h : Leaves word n rest) :
    ReadAlike 1 (word ++ a) (word ++ b) (readBehind positive digits n (rest ++ a))
      (readBehind positive digits n (rest ++ b)) := by
  have hbehind : ∀ {x}, startsWord x = false → ∀ n, readBehind positive digits n x =
      if (accumulate 0 digits).2.isEmpty then .ok (whole positive (accumulate 0 digits).1, n, x)
      else finish positive (accumulate 0 digits).1 (accumulate 0 digits).2.length n x := by
    intro x hx n
    cases x with
    | nil => rfl
    | cons c x =>
      have hp : c ≠ '.' := ne_of_startsWord hx (by decide)
      have he : c ≠ 'e' := ne_of_startsWord hx (by decide)
      have hE : c ≠ 'E' := ne_of_startsWord hx (by decide)
      rw [readBehind, if_neg hp, if_neg (not_or.2 ⟨he, hE⟩)]
  cases rest with
  | nil =>
    rw [List.nil_append, List.nil_append, hbehind hw.left, hbehind hw.right]
    split_ifs
    · exact h.readAlike hw
    · exact readAlike_finish hw _ _ _ h
  | cons c rest =>
    rw [List.cons_append, List.cons_append, readBehind, readBehind]
    split_ifs with hp he
    · exact readAlike_readFraction hw _ _ _ (h.cons (by rw [hp]; decide))
    · exact readAlike_readExponent hw _ _ _ (h.cons (by rcases he with rfl | rfl <;> decide))
    · exact h.readAlike hw
    · exact readAlike_finish hw _ _ _ h

/-- The number that a word starts with is the same whatever follows the word. -/
theorem readAlike_read (positive : Bool) (hw : CommonWord word a b) :
    ReadAlike 1 (word ++ a) (word ++ b) (Numeral.read positive 0 (word ++ a))
      (Numeral.read positive 0 (word ++ b)) := by
  have hleft := takeWhile_isDigit_append word hw.left
  have hright := takeWhile_isDigit_append word hw.right
  cases hd : areWhole (word.takeWhile Char.isDigit) with
  | false =>
    obtain ⟨fault, hf⟩ := exists_read_eq_error positive 0 (hleft ▸ hd)
    obtain ⟨fault', hf'⟩ := exists_read_eq_error positive 0 (hright ▸ hd)
    rw [hf, hf']
    exact .error
  | true =>
    rw [read_eq_readBehind positive 0 (hleft ▸ hd), read_eq_readBehind positive 0 (hright ▸ hd),
      hleft, hright, dropWhile_isDigit_append word hw.left, dropWhile_isDigit_append word hw.right,
      Nat.zero_add]
    exact readAlike_readBehind hw _ _ (.of_digits (ne_nil_of_areWhole hd))

/-! ## Passing over a number -/

/-- Passes over what can follow the digits of a number. -/
def skipTail (n : Nat) : List Char → Located (Nat × List Char)
  | [] => .ok (n, [])
  | c :: cs => if c = 'e' ∨ c = 'E' then Numeral.skipExponent (n + 1) cs else .ok (n, c :: cs)

/-- Passes over what follows the digits of a whole number. -/
def skipBehind (n : Nat) : List Char → Located (Nat × List Char)
  | '.' :: cs =>
    if cs.takeWhile Char.isDigit = [] then .error (.badNumber, if cs = [] then n + 1 else n + 2)
    else skipTail (n + 1 + (cs.takeWhile Char.isDigit).length) (cs.dropWhile Char.isDigit)
  | cs => skipTail n cs

/-- No number is passed over without digits, or with a leading zero. -/
theorem exists_skip_eq_error (n : Nat) (h : areWhole (cs.takeWhile Char.isDigit) = false) :
    ∃ fault, Numeral.skip n cs = .error fault := by
  unfold Numeral.skip
  generalize cs.takeWhile Char.isDigit = digits at h
  dsimp only
  split
  · exact ⟨_, rfl⟩
  · exact ⟨_, rfl⟩
  · exact ⟨_, rfl⟩
  · rename_i hnil hzero
    rw [areWhole.eq_3 _ hnil hzero] at h
    cases h

theorem skipTail_of_ne (n : Nat) (he : ∀ r, cs = 'e' :: r → False)
    (hE : ∀ r, cs = 'E' :: r → False) :
    skipTail n cs = .ok (n, cs) := by
  cases cs with
  | nil => rfl
  | cons c cs =>
    refine if_neg (not_or.2 ⟨?_, ?_⟩)
    · rintro rfl
      exact he cs rfl
    · rintro rfl
      exact hE cs rfl

/-- A number is passed over as its digits and what follows them. -/
theorem skip_eq_skipBehind (n : Nat) (h : areWhole (cs.takeWhile Char.isDigit) = true) :
    Numeral.skip n cs =
      skipBehind (n + (cs.takeWhile Char.isDigit).length) (cs.dropWhile Char.isDigit) := by
  unfold Numeral.skip
  have hne : cs ≠ [] := by
    rintro rfl
    cases h
  generalize cs.takeWhile Char.isDigit = digits at h
  generalize cs.dropWhile Char.isDigit = rest
  dsimp only
  split
  · contradiction
  · cases h
  · cases h
  · split
    · rename_i r
      rw [skipBehind]
      cases hf : r.takeWhile Char.isDigit with
      | nil => cases r <;> rfl
      | cons d fraction =>
        dsimp only
        split
        · rename_i he
          rw [he]
          rfl
        · rename_i he
          rw [he]
          rfl
        · rename_i he hE
          rw [skipTail_of_ne _ he hE]
          rfl
    · rfl
    · rfl
    · rename_i hpoint he hE
      rw [skipBehind.eq_2 _ _ hpoint, skipTail_of_ne _ he hE]

/-- Behind a word there is no exponent to pass over. -/
theorem skipTail_of_startsWord (n : Nat) (ha : startsWord a = false) :
    skipTail n a = .ok (n, a) := by
  refine skipTail_of_ne n ?_ ?_
  all_goals
    rintro r rfl
    exact ne_of_startsWord ha (by decide) rfl

section

variable (hw : CommonWord word a b)
include hw

/-- An exponent that starts in a word is passed over in it. -/
theorem readAlike_skipExponent (h : Leaves word n rest) :
    ReadAlike 1 (word ++ a) (word ++ b) (valueless (Numeral.skipExponent n (rest ++ a)))
      (valueless (Numeral.skipExponent n (rest ++ b))) := by
  have hsign := h.sign
  rw [Numeral.skipExponent, Numeral.skipExponent, exponentSign_append rest hw.left,
    exponentSign_append rest hw.right]
  generalize exponentSign rest = sign at hsign
  obtain ⟨up, length, digits⟩ := sign
  dsimp only at hsign ⊢
  simp only [takeWhile_isDigit_append _ hw.left, takeWhile_isDigit_append _ hw.right,
    dropWhile_isDigit_append _ hw.left, dropWhile_isDigit_append _ hw.right]
  cases digits with
  | nil =>
    simp only [List.nil_append, startsWithDigit_of_startsWord hw.left,
      startsWithDigit_of_startsWord hw.right, Bool.false_eq_true, if_false]
    split <;> split <;> exact .error
  | cons c digits =>
    have hstarts (cs : List Char) : startsWithDigit (c :: digits ++ cs) = c.isDigit := rfl
    simp only [hstarts]
    by_cases hc : c.isDigit = true
    · rw [if_pos hc, if_pos hc]
      exact hsign.digits.readAlike hw
    · rw [if_neg hc, if_neg hc]
      exact .error

/-- What can follow the digits of a number is passed over in the same word. -/
theorem readAlike_skipTail (h : Leaves word n rest) :
    ReadAlike 1 (word ++ a) (word ++ b) (valueless (skipTail n (rest ++ a)))
      (valueless (skipTail n (rest ++ b))) := by
  cases rest with
  | nil =>
    rw [List.nil_append, List.nil_append, skipTail_of_startsWord n hw.left,
      skipTail_of_startsWord n hw.right]
    exact h.readAlike hw
  | cons c rest =>
    rw [List.cons_append, List.cons_append, skipTail, skipTail]
    split_ifs with hc
    · exact readAlike_skipExponent hw (h.cons (by rcases hc with rfl | rfl <;> decide))
    · exact h.readAlike hw

/-- What follows the digits of a whole number is passed over in the same word. -/
theorem readAlike_skipBehind (h : Leaves word n rest) :
    ReadAlike 1 (word ++ a) (word ++ b) (valueless (skipBehind n (rest ++ a)))
      (valueless (skipBehind n (rest ++ b))) := by
  by_cases hpoint : ∃ r, rest = '.' :: r
  · obtain ⟨r, rfl⟩ := hpoint
    have hfraction := (h.cons (by decide)).digits
    rw [List.cons_append, List.cons_append, skipBehind, skipBehind,
      takeWhile_isDigit_append _ hw.left, takeWhile_isDigit_append _ hw.right,
      dropWhile_isDigit_append _ hw.left, dropWhile_isDigit_append _ hw.right]
    by_cases hd : r.takeWhile Char.isDigit = []
    · rw [if_pos hd, if_pos hd]
      exact .error
    · rw [if_neg hd, if_neg hd]
      exact readAlike_skipTail hw hfraction
  · have hbehind : ∀ {x}, startsWord x = false →
        skipBehind n (rest ++ x) = skipTail n (rest ++ x) := by
      intro x hx
      refine skipBehind.eq_2 _ _ fun r he => ?_
      cases rest with
      | nil =>
        rw [List.nil_append] at he
        subst he
        exact ne_of_startsWord hx (by decide) rfl
      | cons c rest => exact hpoint ⟨rest, by rw [(List.cons.inj he).1]⟩
    rw [hbehind hw.left, hbehind hw.right]
    exact readAlike_skipTail hw h

end

/-- The number that a word starts with is passed over up to the same place whatever follows the
word. -/
theorem readAlike_skip (hw : CommonWord word a b) :
    ReadAlike 1 (word ++ a) (word ++ b) (valueless (Numeral.skip 0 (word ++ a)))
      (valueless (Numeral.skip 0 (word ++ b))) := by
  have hleft := takeWhile_isDigit_append word hw.left
  have hright := takeWhile_isDigit_append word hw.right
  cases hd : areWhole (word.takeWhile Char.isDigit) with
  | false =>
    obtain ⟨fault, hf⟩ := exists_skip_eq_error 0 (hleft ▸ hd)
    obtain ⟨fault', hf'⟩ := exists_skip_eq_error 0 (hright ▸ hd)
    rw [hf, hf']
    exact .error
  | true =>
    rw [skip_eq_skipBehind 0 (hleft ▸ hd), skip_eq_skipBehind 0 (hright ▸ hd), hleft, hright,
      dropWhile_isDigit_append word hw.left, dropWhile_isDigit_append word hw.right, Nat.zero_add]
    exact readAlike_skipBehind hw (.of_digits (ne_nil_of_areWhole hd))

end SvgComponent.Json
