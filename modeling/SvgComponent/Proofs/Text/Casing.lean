import Mathlib.Tactic.Common
import SvgComponent.Text.Casing

/-!
# Letters of ASCII in a text

The small form of a text is made of its characters with their surroundings : what a capital sigma
becomes depends on whether there are letters around it. Which of the letters of ASCII around it are
capitals makes no difference (`lowercase_map_toLower`), and a text of ASCII without capitals is its
own small form (`lowercase_eq_self`).
-/

namespace SvgComponent.Text

variable {α : Type} {c : Char} {cs : List Char}

/-- What is true of all codes of ASCII is true of its characters. -/
theorem forall_ascii {P : Char → Prop} (h : ∀ n < 0x80, P (Char.ofNat n)) (c : Char)
    (hc : c.toNat < 0x80) : P c := by
  have hn := h c.toNat hc
  rwa [Char.ofNat_toNat] at hn

theorem toLower_eq_self (h : c.isUpper = false) : c.toLower = c := by
  have hbounds : ¬ (c.val ≥ 'A'.val ∧ c.val ≤ 'Z'.val) := of_decide_eq_false h
  exact dif_neg hbounds

/-- What makes no difference between the characters of ASCII and their small forms makes none for
any character. -/
theorem apply_toLower (f : Char → α) (h : ∀ n < 0x80, f (Char.ofNat n).toLower = f (Char.ofNat n))
    (c : Char) : f c.toLower = f c := by
  cases hc : c.isUpper with
  | false => rw [toLower_eq_self hc]
  | true =>
    have hbounds : c.val ≥ 'A'.val ∧ c.val ≤ 'Z'.val := of_decide_eq_true hc
    have hascii : c.toNat < 0x80 :=
      Nat.lt_of_le_of_lt (UInt32.le_iff_toNat_le.1 hbounds.2) (by decide)
    exact forall_ascii (P := fun c => f c.toLower = f c) h c hascii

/-- Whether a letter comes next does not depend on capitals. -/
theorem meetsCased_map_toLower (cs : List Char) :
    meetsCased (cs.map Char.toLower) = meetsCased cs := by
  have hignored := apply_toLower (fun c => inRanges c.toNat ignoredRanges) (by decide +kernel)
  have hcased := apply_toLower (fun c => inRanges c.toNat casedRanges) (by decide +kernel)
  have hkept : (fun c : Char => inRanges c.toNat ignoredRanges) ∘ Char.toLower =
      fun c : Char => inRanges c.toNat ignoredRanges := funext hignored
  rw [meetsCased, meetsCased, List.dropWhile_map, hkept]
  cases cs.dropWhile fun c => inRanges c.toNat ignoredRanges with
  | nil => rfl
  | cons c rest => exact hcased c

/-- Texts that differ in capitals only have the same small form. -/
theorem lowercaseAfter_map_toLower (before cs : List Char) :
    lowercaseAfter (before.map Char.toLower) (cs.map Char.toLower) = lowercaseAfter before cs := by
  have hsigma := apply_toLower (fun c => c = 'Σ') (by decide +kernel)
  have hlower := apply_toLower toLower (by decide +kernel)
  induction cs generalizing before with
  | nil => rfl
  | cons c cs ih =>
    have hrest := ih (c :: before)
    rw [List.map_cons] at hrest
    rw [List.map_cons, lowercaseAfter, lowercaseAfter, hrest, hlower, meetsCased_map_toLower,
      meetsCased_map_toLower]
    simp only [hsigma]

/-- Which letters of ASCII are capitals makes no difference to the small form of a text. -/
theorem lowercase_map_toLower (cs : List Char) :
    lowercase (cs.map Char.toLower) = lowercase cs :=
  lowercaseAfter_map_toLower [] cs

/-- A text of small ASCII letters is its own small form. -/
theorem lowercaseAfter_eq_self (h : ∀ c ∈ cs, c.toNat < 0x80 ∧ c.isUpper = false)
    (before : List Char) : lowercaseAfter before cs = cs := by
  have hascii : ∀ c : Char, c.toNat < 0x80 → c.isUpper = false → c ≠ 'Σ' ∧ toLower c = [c] :=
    forall_ascii (by decide +kernel)
  induction cs generalizing before with
  | nil => rfl
  | cons c cs ih =>
    rw [List.forall_mem_cons] at h
    obtain ⟨hsigma, hlower⟩ := hascii c h.1.1 h.1.2
    rw [lowercaseAfter, if_neg hsigma, hlower, ih h.2]
    rfl

/-- A text of ASCII without capitals is its own small form. -/
theorem lowercase_eq_self (h : ∀ c ∈ cs, c.toNat < 0x80 ∧ c.isUpper = false) :
    lowercase cs = cs :=
  lowercaseAfter_eq_self h []

end SvgComponent.Text
