import SvgComponent.Json.Numeral
import SvgComponent.Proofs.Text.Runs
import SvgComponent.Text.Position

/-!
# Texts with the same tokens

Two texts have the same tokens if the gaps between their tokens differ and nothing else does
(`SameTokens`); from where on they are the same they need not be made of tokens. Behind its gap each
of them starts with the same token (`faces_skipGap`).

A word is a run of characters that are neither gaps nor marks. Two texts that are inside the same
one go on with the same characters up to its end (`InWord.exists_commonWord`), so what is read off a
word is the same in both (`ReadAlike`).
-/

namespace SvgComponent.Json

open Text Numeral

variable {a b cs word : List Char} {c d : Char}

/-! ## Tokens -/

/-- Whether a character is a token of its own. -/
def isPunctuation (c : Char) : Bool :=
  ['{', '}', '[', ']', ':', ','].contains c

/-- Whether a character can stand in a word, which is a literal or a numeral. -/
def isWordChar (c : Char) : Bool :=
  !isGap c && !isPunctuation c && c ≠ '"' && c ≠ '/'

/-- Whether a text starts inside a word. -/
def startsWord (cs : List Char) : Bool :=
  cs.head?.any isWordChar

/-- What can stand between quotes : a quote only behind a backslash. -/
inductive IsInner : List Char → Prop
  | nil : IsInner []
  | plain {c : Char} {cs : List Char} (hq : c ≠ '"') (hb : c ≠ '\\') (h : IsInner cs) :
    IsInner (c :: cs)
  | escaped {c : Char} {cs : List Char} (h : IsInner cs) : IsInner ('\\' :: c :: cs)

/-- Texts of the same tokens with other gaps between them, up to where they are the same. -/
inductive SameTokens : List Char → List Char → Prop
  | rest (cs : List Char) : SameTokens cs cs
  | gapLeft {g : Char} {a b : List Char} (hg : isGap g = true) (h : SameTokens a b) :
    SameTokens (g :: a) b
  | gapRight {g : Char} {a b : List Char} (hg : isGap g = true) (h : SameTokens a b) :
    SameTokens a (g :: b)
  | mark {c : Char} {a b : List Char} (hc : isPunctuation c = true) (h : SameTokens a b) :
    SameTokens (c :: a) (c :: b)
  | letter {c : Char} {a b : List Char} (hc : isWordChar c = true)
    (hw : startsWord a = startsWord b) (h : SameTokens a b) : SameTokens (c :: a) (c :: b)
  | string {inner a b : List Char} (hi : IsInner inner) (h : SameTokens a b) :
    SameTokens ('"' :: (inner ++ '"' :: a)) ('"' :: (inner ++ '"' :: b))

/-- Texts that are both in front of the same token, or both at their end. -/
inductive Faces : List Char → List Char → Prop
  | rest {cs : List Char} (h : ∀ c ∈ cs.head?, isGap c = false) : Faces cs cs
  | mark {c : Char} {a b : List Char} (hc : isPunctuation c = true) (h : SameTokens a b) :
    Faces (c :: a) (c :: b)
  | letter {c : Char} {a b : List Char} (hc : isWordChar c = true)
    (hw : startsWord a = startsWord b) (h : SameTokens a b) : Faces (c :: a) (c :: b)
  | string {inner a b : List Char} (hi : IsInner inner) (h : SameTokens a b) :
    Faces ('"' :: (inner ++ '"' :: a)) ('"' :: (inner ++ '"' :: b))

/-- Texts that are both inside the same word, or neither of them inside one. -/
def InWord (a b : List Char) : Prop :=
  SameTokens a b ∧ startsWord a = startsWord b

/-- Texts that are both inside the same string. -/
def InQuotes (a b : List Char) : Prop :=
  a = b ∨ ∃ inner a' b', IsInner inner ∧ SameTokens a' b' ∧
    a = inner ++ '"' :: a' ∧ b = inner ++ '"' :: b'

theorem isGap_of_isPunctuation (h : isPunctuation c = true) : isGap c = false := by
  have hall : ['{', '}', '[', ']', ':', ','].all (fun c => !isGap c) = true := by decide
  simpa using List.all_eq_true.1 hall c (List.contains_iff_mem.1 h)

/-- A character of a word is neither a gap nor a mark. -/
theorem isWordChar_iff : isWordChar c = true ↔
    isGap c = false ∧ isPunctuation c = false ∧ c ≠ '"' ∧ c ≠ '/' := by
  simp [isWordChar, and_assoc]

theorem startsWord_cons : startsWord (c :: cs) = isWordChar c := rfl

/-! ## The token in front -/

theorem skipGap_cons_of_isGap (h : isGap c = true) (cs : List Char) :
    skipGap (c :: cs) = skipGap cs :=
  List.dropWhile_cons_of_pos h

theorem skipGap_cons_of_not_isGap (h : isGap c = false) (cs : List Char) :
    skipGap (c :: cs) = c :: cs :=
  List.dropWhile_cons_of_neg (Bool.not_eq_true _ ▸ h)

theorem isGap_head_skipGap (h : c ∈ (skipGap cs).head?) : isGap c = false := by
  induction cs with
  | nil => cases h
  | cons d cs ih =>
    cases hd : isGap d with
    | true =>
      rw [skipGap_cons_of_isGap hd] at h
      exact ih h
    | false =>
      rw [skipGap_cons_of_not_isGap hd] at h
      cases h
      exact hd

/-- Behind its gap each of two texts with the same tokens starts with the same one. -/
theorem faces_skipGap (h : SameTokens a b) : Faces (skipGap a) (skipGap b) := by
  induction h with
  | rest cs => exact .rest fun _ => isGap_head_skipGap
  | gapLeft hg _ ih => rwa [skipGap_cons_of_isGap hg]
  | gapRight hg _ ih => rwa [skipGap_cons_of_isGap hg]
  | mark hc h =>
    have hgap := isGap_of_isPunctuation hc
    rw [skipGap_cons_of_not_isGap hgap, skipGap_cons_of_not_isGap hgap]
    exact .mark hc h
  | letter hc hw h =>
    have hgap := (isWordChar_iff.1 hc).1
    rw [skipGap_cons_of_not_isGap hgap, skipGap_cons_of_not_isGap hgap]
    exact .letter hc hw h
  | string hi h =>
    have hgap : isGap '"' = false := by decide
    rw [skipGap_cons_of_not_isGap hgap, skipGap_cons_of_not_isGap hgap]
    exact .string hi h

namespace Faces

/-- Texts in front of the same token have the same tokens. -/
theorem sameTokens (h : Faces a b) : SameTokens a b := by
  cases h with
  | rest => exact .rest a
  | mark hc h => exact .mark hc h
  | letter hc hw h => exact .letter hc hw h
  | string hi h => exact .string hi h

theorem head?_eq (h : Faces a b) : a.head? = b.head? := by
  cases h <;> rfl

/-- Behind a mark that one text starts with the other one has the same tokens. -/
theorem of_mark (h : Faces (c :: a) b) (hc : isPunctuation c = true) :
    ∃ b', b = c :: b' ∧ SameTokens a b' := by
  cases h with
  | rest => exact ⟨a, rfl, .rest a⟩
  | mark _ h => exact ⟨_, rfl, h⟩
  | letter hw =>
    rw [(isWordChar_iff.1 hw).2.1] at hc
    cases hc
  | string => cases hc

/-- A letter that one text starts with is the first one of a word in both. -/
theorem of_letter (h : Faces (c :: a) b) (hc : isWordChar c = true) :
    ∃ b', b = c :: b' ∧ InWord a b' := by
  cases h with
  | rest => exact ⟨a, rfl, .rest a, rfl⟩
  | mark hm =>
    rw [(isWordChar_iff.1 hc).2.1] at hm
    cases hm
  | letter _ hw h => exact ⟨_, rfl, h, hw⟩
  | string => exact absurd rfl (isWordChar_iff.1 hc).2.2.1

/-- A quote that one text starts with opens the same string in both. -/
theorem of_quote (h : Faces ('"' :: a) b) : ∃ b', b = '"' :: b' ∧ InQuotes a b' := by
  cases h with
  | rest => exact ⟨a, rfl, .inl rfl⟩
  | mark hm => cases hm
  | letter hc => exact absurd rfl (isWordChar_iff.1 hc).2.2.1
  | string hi h => exact ⟨_, rfl, .inr ⟨_, _, _, hi, h, rfl, rfl⟩⟩

/-- In front of a word one is inside it. -/
theorem inWord (h : Faces (c :: a) b) (hc : isWordChar c = true) : InWord (c :: a) b := by
  obtain ⟨b', rfl, -⟩ := h.of_letter hc
  exact ⟨h.sameTokens, rfl⟩

end Faces

/-! ## Words -/

namespace InWord

/-- The next character of a word is the same in both texts. -/
theorem of_cons (h : InWord (c :: a) b) (hc : isWordChar c = true) :
    ∃ b', b = c :: b' ∧ InWord a b' := by
  obtain ⟨h, hw⟩ := h
  rw [startsWord_cons, hc] at hw
  cases h with
  | rest => exact ⟨a, rfl, .rest a, rfl⟩
  | gapLeft hg =>
    rw [(isWordChar_iff.1 hc).1] at hg
    cases hg
  | gapRight hg =>
    rw [startsWord_cons, eq_comm, isWordChar_iff, hg] at hw
    cases hw.1
  | mark hm =>
    rw [(isWordChar_iff.1 hc).2.1] at hm
    cases hm
  | letter _ hsame h => exact ⟨_, rfl, h, hsame⟩
  | string => exact absurd rfl (isWordChar_iff.1 hc).2.2.1

/-- A word that goes on in one text goes on in the other. -/
theorem symm_head (h : InWord a (c :: b)) (hc : isWordChar c = true) : ∃ a', a = c :: a' := by
  have hw := h.2
  rw [startsWord_cons, hc] at hw
  cases a with
  | nil => cases hw
  | cons d a =>
    obtain ⟨b', he, -⟩ := h.of_cons hw
    cases he
    exact ⟨a, rfl⟩

end InWord

/-- A word that two texts have in common, each in front of something else than a word. -/
structure CommonWord (word a b : List Char) : Prop where
  chars : ∀ c ∈ word, isWordChar c = true
  left : startsWord a = false
  right : startsWord b = false
  behind : SameTokens a b

namespace CommonWord

theorem inWord (h : CommonWord word a b) : InWord (word ++ a) (word ++ b) := by
  obtain ⟨hchars, hleft, hright, hbehind⟩ := h
  induction word with
  | nil => exact ⟨hbehind, hleft.trans hright.symm⟩
  | cons c word ih =>
    obtain ⟨hc, hchars⟩ := List.forall_mem_cons.1 hchars
    obtain ⟨h, hw⟩ := ih hchars
    exact ⟨.letter hc hw h, rfl⟩

/-- What is left of a word is a word. -/
theorem of_append {front rest : List Char} (h : CommonWord (front ++ rest) a b) :
    CommonWord rest a b :=
  ⟨fun c hc => h.chars c (List.mem_append_right front hc), h.left, h.right, h.behind⟩

end CommonWord

/-- Two texts inside a word have the rest of it in common. -/
theorem InWord.exists_commonWord (h : InWord a b) :
    ∃ word a' b', CommonWord word a' b' ∧ a = word ++ a' ∧ b = word ++ b' := by
  induction a generalizing b with
  | nil => exact ⟨[], [], b, ⟨List.forall_mem_nil _, rfl, h.2.symm, h.1⟩, rfl, rfl⟩
  | cons c a ih =>
    cases hc : isWordChar c with
    | true =>
      obtain ⟨b', rfl, h'⟩ := h.of_cons hc
      obtain ⟨word, a', b', hw, rfl, rfl⟩ := ih h'
      have hchars : ∀ d ∈ c :: word, isWordChar d = true := List.forall_mem_cons.2 ⟨hc, hw.chars⟩
      exact ⟨c :: word, a', b', ⟨hchars, hw.left, hw.right, hw.behind⟩, rfl, rfl⟩
    | false => exact ⟨[], c :: a, b, ⟨List.forall_mem_nil _, hc, h.2.symm.trans hc, h.1⟩, rfl, rfl⟩

/-- A text that does not start inside a word starts with no character of one. -/
theorem ne_of_startsWord (h : startsWord (d :: a) = false) (hc : isWordChar c = true) : d ≠ c := by
  rintro rfl
  rw [startsWord_cons, hc] at h
  cases h

/-! ## Reading in a token -/

/-- What is passed over has no value. -/
def valueless : Located (Nat × List Char) → Located (Unit × Nat × List Char) :=
  Except.map fun p => ((), p)

/-- What two texts are read as : the same, over the same characters, of which there are at least
`k`, or a fault each. -/
inductive ReadAlike {α : Type} (k : Nat) (a b : List Char) :
    Located (α × Nat × List Char) → Located (α × Nat × List Char) → Prop
  | ok {x : α} {front a' b' : List Char} (hk : k ≤ front.length) (ha : a = front ++ a')
    (hb : b = front ++ b') (h : SameTokens a' b') :
    ReadAlike k a b (.ok (x, width front, a')) (.ok (x, width front, b'))
  | error {fault fault' : Fault × Nat} : ReadAlike k a b (.error fault) (.error fault')

end SvgComponent.Json
