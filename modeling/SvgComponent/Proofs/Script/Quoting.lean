import SvgComponent.Proofs.Json.Quoting
import SvgComponent.Script.Token

/-!
# Quoted strings in a script

A JSON string is also a string literal of a script : what `Json.quote` writes `scanString`
reads back (`scanString_quote`), whatever follows. No character is half a surrogate pair, so
the codes that are read stand for the characters one by one (`textOfCodes?_toNat`).
-/

namespace SvgComponent.Script

/-! ## Codes -/

theorem not_isLeading (c : Char) : Json.isLeading c.toNat = false := by
  have h := c.valid
  simp only [UInt32.isValidChar, Nat.isValidChar] at h
  simp only [Json.isLeading, Char.toNat, Bool.and_eq_false_iff, decide_eq_false_iff_not]
  omega

theorem not_isTrailing (c : Char) : Json.isTrailing c.toNat = false := by
  have h := c.valid
  simp only [UInt32.isValidChar, Nat.isValidChar] at h
  simp only [Json.isTrailing, Char.toNat, Bool.and_eq_false_iff, decide_eq_false_iff_not]
  omega

/-- The codes of characters stand for these. -/
theorem textOfCodes?_toNat (cs : List Char) : textOfCodes? (cs.map Char.toNat) = some cs := by
  induction cs with
  | nil => rfl
  | cons c cs ih =>
    cases cs with
    | nil => simp [textOfCodes?, not_isLeading, not_isTrailing]
    | cons d cs =>
      rw [List.map_cons] at ih
      rw [List.map_cons, List.map_cons, textOfCodes?, ih]
      simp [not_isLeading, not_isTrailing]

/-- No code stands for more than one character. -/
theorem length_le_of_textOfCodes? {codes : List Nat} {cs : List Char}
    (h : textOfCodes? codes = some cs) : cs.length ≤ codes.length := by
  fun_induction textOfCodes? codes generalizing cs with
  | case1 =>
    cases h
    exact Nat.le_refl _
  | case2 first second rest hp ih =>
    obtain ⟨cs', hr, rfl⟩ := Option.map_eq_some_iff.1 h
    have := ih hr
    simp only [List.length_cons]
    omega
  | case3 => cases h
  | case4 first second rest hp hl ih =>
    obtain ⟨cs', hr, rfl⟩ := Option.map_eq_some_iff.1 h
    exact Nat.succ_le_succ (ih hr)
  | case5 => cases h
  | case6 =>
    cases h
    exact Nat.le_refl _

/-! ## Strings -/

theorem stringFrom_backslash {steps code : Nat} {cs rest : List Char}
    (h : escape? cs = some ([code], rest)) :
    stringFrom '"' (steps + 1) ('\\' :: cs) =
      (stringFrom '"' steps rest).map fun p => (code :: p.1, p.2) := by
  rw [stringFrom, if_neg (by decide), if_neg (by decide), if_pos rfl, h]
  cases hs : stringFrom '"' steps rest <;> simp [hs]

/-- The form of a character is read in one step, as the code of that character. -/
theorem stringFrom_escape (c : Char) (steps : Nat) (rest : List Char) :
    stringFrom '"' (steps + 1) (Json.escape c ++ rest) =
      (stringFrom '"' steps rest).map fun p => (c.toNat :: p.1, p.2) := by
  unfold Json.escape
  split_ifs with h1 h2 h3 h4 h5 h6 h7 h8
  · exact stringFrom_backslash (by rw [h1]; rfl)
  · exact stringFrom_backslash (by rw [h2]; rfl)
  · exact stringFrom_backslash (by rw [h3]; rfl)
  · exact stringFrom_backslash (by rw [h4]; rfl)
  · exact stringFrom_backslash (by rw [h5]; rfl)
  · exact stringFrom_backslash (by rw [h6]; rfl)
  · exact stringFrom_backslash (by rw [h7]; rfl)
  · refine stringFrom_backslash ?_
    simp [escape?, codeEscape?, Json.hexCode?_control h8]
  · rw [List.singleton_append, stringFrom, if_neg h1, if_neg (not_or.2 ⟨h3, h4⟩), if_neg h2]
    cases stringFrom '"' steps rest <;> rfl

/-- A quoted string is read as what has been quoted; by induction on its characters. -/
theorem stringFrom_flatMap_escape {cs : List Char} {steps : Nat} (h : cs.length < steps)
    (rest : List Char) :
    stringFrom '"' steps (cs.flatMap Json.escape ++ '"' :: rest) =
      some (cs.map Char.toNat, rest) := by
  obtain ⟨n, rfl⟩ := Nat.exists_eq_succ_of_ne_zero (Nat.ne_zero_of_lt h)
  induction cs generalizing n with
  | nil => rfl
  | cons c cs ih =>
    obtain ⟨n, rfl⟩ := Nat.exists_eq_succ_of_ne_zero (Nat.ne_zero_of_lt (Nat.lt_of_succ_lt_succ h))
    rw [List.flatMap_cons, List.append_assoc, stringFrom_escape, ih n (Nat.lt_of_succ_lt_succ h)]
    rfl

/-- Escaping makes no text shorter. -/
theorem length_le_flatMap_escape (cs : List Char) :
    cs.length ≤ (cs.flatMap Json.escape).length := by
  have h : ∀ c, 0 < (Json.escape c).length := by
    intro c
    unfold Json.escape
    split_ifs <;> simp
  induction cs with
  | nil => exact Nat.zero_le _
  | cons c cs ih =>
    have := h c
    rw [List.flatMap_cons, List.length_append, List.length_cons]
    omega

/-- What is quoted reads back, behind the opening quote. -/
theorem scanString_quote (cs rest : List Char) :
    scanString '"' (cs.flatMap Json.escape ++ '"' :: rest) =
      (.string (some (String.ofList cs)), rest) := by
  have hsteps : cs.length < (cs.flatMap Json.escape ++ '"' :: rest).length + 1 := by
    have := length_le_flatMap_escape cs
    rw [List.length_append]
    omega
  rw [scanString, stringFrom_flatMap_escape hsteps]
  simp [textOfCodes?_toNat]

end SvgComponent.Script
