import Mathlib.Tactic.Common
import SvgComponent.Json.Quoted
import SvgComponent.Json.Unquote
import SvgComponent.Proofs.Text.Marks

/-!
# Quoted strings read back

What `quote` writes `unquote` reads (`unquote_quote`), whatever follows : no character of the
text ends the string early, and every escape stands for the character it was written for. A
text without escapes can be cut at the closing quote (`cutAt?_of_isPlain`).
-/

namespace SvgComponent.Json

open Text

/-- A text that stands in quotes as it is ends at the first quote. -/
theorem cutAt?_of_isPlain {cs : List Char} (h : isPlain cs = true) (rest : List Char) :
    cutAt? ['"'] (cs ++ '"' :: rest) = some (cs, rest) := by
  have hq : ¬ ([] ++ ['"']) <:+: cs := by
    rw [List.nil_append, List.singleton_infix_iff]
    intro hm
    have := List.all_eq_true.1 h _ hm
    revert this
    decide
  exact cutAt?_append_mark rest (by simp) hq

/-! ## Escapes -/

theorem hexValue?_hexDigit (n : Nat) : hexValue? (hexDigit n) = some (n % 16) := by
  have h : ∀ d < 16, hexValue? (Nat.digitChar d) = some d := by decide
  exact h _ (Nat.mod_lt _ (by decide))

theorem utf8Size_hexDigit (n : Nat) : (hexDigit n).utf8Size = 1 := by
  have h : ∀ d < 16, (Nat.digitChar d).utf8Size = 1 := by decide
  exact h _ (Nat.mod_lt _ (by decide))

/-- The two last digits of a code below the blank give it back. -/
theorem hexCode?_control {c : Char} (h : c.toNat < 0x20) :
    hexCode? '0' '0' (hexDigit (c.toNat / 16)) (hexDigit c.toNat) = some c.toNat := by
  have h0 : hexValue? '0' = some 0 := by decide
  simp only [hexCode?, h0, hexValue?_hexDigit, bind, Option.bind, pure, Option.some.injEq]
  omega

theorem readCoded_control {c : Char} (h : c.toNat < 0x20) (read : Nat) (rest : List Char) :
    readCoded read ('0' :: '0' :: hexDigit (c.toNat / 16) :: hexDigit c.toNat :: rest) =
      .ok (c, read + 4, rest) := by
  have ht : isTrailing c.toNat = false := by simp [isTrailing]; omega
  have hl : isLeading c.toNat = false := by simp [isLeading]; omega
  simp [readCoded, readCode, hexCode?_control h, bind, Except.bind, ht, hl, pure, Except.pure]

theorem unquoteFrom_letter {e c : Char} (he : e ≠ 'u') (h : letterEscape? e = some c) (read : Nat)
    (rest : List Char) :
    unquoteFrom read ('\\' :: e :: rest) =
      (unquoteFrom (read + 2) rest).map fun p => (c :: p.1, p.2) := by
  rw [unquoteFrom, h]
  · cases unquoteFrom (read + 2) rest <;> rfl
  · exact he

/-- An escape by a code is read back. -/
theorem unquoteFrom_coded {c : Char} {read next : Nat} {cs rest : List Char}
    (h : readCoded (read + 2) cs = .ok (c, next, rest)) :
    unquoteFrom read ('\\' :: 'u' :: cs) =
      (unquoteFrom next rest).map fun p => (c :: p.1, p.2) := by
  rw [unquoteFrom]
  split
  · simp_all
  · rename_i hr
    rw [h] at hr
    cases hr
    cases unquoteFrom next rest <;> rfl

/-- A character of its own is read back. -/
theorem unquoteFrom_plain {c : Char} (hq : c ≠ '"') (hb : c ≠ '\\') (hc : ¬ c.toNat < 0x20)
    (read : Nat) (rest : List Char) :
    unquoteFrom read (c :: rest) =
      (unquoteFrom (read + c.utf8Size) rest).map fun p => (c :: p.1, p.2) := by
  rw [unquoteFrom, if_neg hq, if_neg hc]
  · cases unquoteFrom (read + c.utf8Size) rest <;> rfl
  · exact fun h => absurd h hb
  · exact fun _ h => absurd h hb
  · exact fun _ _ h => absurd h hb

/-- The form of a character is read as that character. -/
theorem unquoteFrom_escape (c : Char) (read : Nat) (rest : List Char) :
    unquoteFrom read (escape c ++ rest) =
      (unquoteFrom (read + width (escape c)) rest).map fun p => (c :: p.1, p.2) := by
  unfold escape
  split_ifs with h1 h2 h3 h4 h5 h6 h7 h8
  · exact unquoteFrom_letter (by decide) (by rw [h1]; decide) read rest
  · exact unquoteFrom_letter (by decide) (by rw [h2]; decide) read rest
  · exact unquoteFrom_letter (by decide) (by rw [h3]; decide) read rest
  · exact unquoteFrom_letter (by decide) (by rw [h4]; decide) read rest
  · exact unquoteFrom_letter (by decide) (by rw [h5]; decide) read rest
  · exact unquoteFrom_letter (by decide) (by rw [h6]; decide) read rest
  · exact unquoteFrom_letter (by decide) (by rw [h7]; decide) read rest
  · have hw : width ['\\', 'u', '0', '0', hexDigit (c.toNat / 16), hexDigit c.toNat] = 6 := by
      simp only [width_cons, width_nil, utf8Size_hexDigit]
      decide
    rw [hw]
    exact unquoteFrom_coded (readCoded_control h8 (read + 2) rest)
  · exact unquoteFrom_plain h1 h2 h8 read rest

/-- A text between quotes is read up to the quote that closes it. -/
theorem unquoteFrom_flatMap_escape (cs : List Char) (read : Nat) (rest : List Char) :
    unquoteFrom read (cs.flatMap escape ++ '"' :: rest) =
      .ok (cs, read + width (cs.flatMap escape) + 1, rest) := by
  induction cs generalizing read with
  | nil =>
    rw [List.flatMap_nil, List.nil_append, unquoteFrom]
    · rfl
    · simp
    · simp
    · simp
  | cons c cs ih =>
    rw [List.flatMap_cons, List.append_assoc, unquoteFrom_escape, ih, width_append, ← Nat.add_assoc]
    rfl

/-- What is quoted reads back, behind the opening quote. -/
theorem unquote_quote (cs rest : List Char) :
    unquote ((quote cs).tail ++ rest) = .ok (cs, width (cs.flatMap escape) + 1, rest) := by
  rw [unquote, quote, List.cons_append, List.tail_cons, List.append_assoc, List.singleton_append,
    unquoteFrom_flatMap_escape, Nat.zero_add]

end SvgComponent.Json
