import SvgComponent.Proofs.Json.Spelling
import SvgComponent.Proofs.Script.Quoting

/-!
# JSON tokens as tokens of a script

A text of a string is a string of a script with the same value (`scan_spellsString`), whatever is
escaped in it. The words and marks of JSON are cut off as words and marks of scripts
(`scan_word`), and gaps are passed over up to the next token (`exists_skipGap`).
-/

namespace SvgComponent.Script

open Json Text

/-! ## Strings -/

/-- An escape by a letter is read as its character. -/
theorem escape?_letter {c e : Char} (h : letterEscape? e = some c) (rest : List Char) :
    escape? (e :: rest) = some ([c.toNat], rest) := by
  unfold letterEscape? at h
  split_ifs at h with h1 h2 h3 h4 h5 h6
  · obtain rfl := Option.some.inj h
    rcases h1 with rfl | rfl | rfl <;> rfl
  all_goals
    obtain rfl := Option.some.inj h
    subst e
    rfl

/-- An escape by four digits is read as its code. -/
theorem escape?_code {n : Nat} {a b c d : Char} (h : hexCode? a b c d = some n)
    (rest : List Char) : escape? ('u' :: a :: b :: c :: d :: rest) = some ([n], rest) := by
  have ha : a ≠ '{' := by
    rintro rfl
    exact absurd h (by simp [hexCode?, show hexValue? '{' = none by decide])
  have hcode : codeEscape? (a :: b :: c :: d :: rest) = some (n, rest) := by
    rw [codeEscape?, h]
    · rfl
    · exact ha
  rw [escape?, hcode]
  rfl

/-- A character of its own is read as its code. -/
theorem stringFrom_plain {c : Char} (hq : c ≠ '"') (hb : c ≠ '\\') (hc : ¬ c.toNat < 0x20)
    (steps : Nat) (rest : List Char) :
    stringFrom '"' (steps + 1) (c :: rest) =
      (stringFrom '"' steps rest).map fun p => (c.toNat :: p.1, p.2) := by
  have hline : ¬ (c = '\n' ∨ c = '\r') := by
    rintro (rfl | rfl) <;> exact hc (by decide)
  rw [stringFrom, if_neg hq, if_neg hline, if_neg hb]
  cases stringFrom '"' steps rest <;> rfl

/-- A code that is no half of a pair stands for its character. -/
theorem textOfCodes?_cons {n : Nat} (hl : isLeading n = false) (ht : isTrailing n = false)
    (more : List Nat) :
    textOfCodes? (n :: more) = (textOfCodes? more).map (Char.ofNat n :: ·) := by
  cases more with
  | nil => simp [textOfCodes?, hl, ht]
  | cons next more => simp [textOfCodes?, hl, ht]

/-- The codes that a form of characters is read as, and that they stand for these. -/
structure Codes (cs form : List Char) (codes : List Nat) : Prop where
  length_le : codes.length ≤ form.length
  read (steps : Nat) (rest : List Char) : stringFrom '"' (steps + codes.length) (form ++ rest) =
    (stringFrom '"' steps rest).map fun p => (codes ++ p.1, p.2)
  text (more : List Nat) : textOfCodes? (codes ++ more) = (textOfCodes? more).map (cs ++ ·)

/-- Forms one after the other are read as their codes. -/
theorem Codes.append {cs ds form forms : List Char} {codes more : List Nat}
    (hc : Codes cs form codes) (hd : Codes ds forms more) :
    Codes (cs ++ ds) (form ++ forms) (codes ++ more) where
  length_le := by
    have := hc.length_le
    have := hd.length_le
    simp only [List.length_append]
    omega
  read steps rest := by
    have hsteps : steps + (codes ++ more).length = steps + more.length + codes.length := by
      rw [List.length_append]
      omega
    rw [hsteps, List.append_assoc, hc.read, hd.read, Option.map_map]
    simp [Function.comp_def]
  text rest := by
    rw [List.append_assoc, hc.text, hd.text, Option.map_map]
    simp [Function.comp_def]

/-- A code that is no half of a pair, read in one step. -/
theorem Codes.single {n : Nat} {form : List Char} (hf : form ≠ []) (hl : isLeading n = false)
    (ht : isTrailing n = false)
    (hread : ∀ steps rest, stringFrom '"' (steps + 1) (form ++ rest) =
      (stringFrom '"' steps rest).map fun p => (n :: p.1, p.2)) :
    Codes [Char.ofNat n] form [n] where
  length_le := List.length_pos_of_ne_nil hf
  read := hread
  text more := textOfCodes?_cons hl ht more

/-- The form of a character is read as codes that stand for it. -/
theorem exists_codes_of_spellsChar {c : Char} {form : List Char} (h : SpellsChar c form) :
    ∃ codes, Codes [c] form codes := by
  cases h with
  | plain hq hb hc =>
    have hcodes := Codes.single (List.cons_ne_nil c []) (not_isLeading c) (not_isTrailing c)
      (stringFrom_plain hq hb hc)
    rw [Char.ofNat_toNat] at hcodes
    exact ⟨_, hcodes⟩
  | @letter _ e he =>
    have hcodes := Codes.single (List.cons_ne_nil '\\' [e]) (not_isLeading c) (not_isTrailing c)
      fun steps rest => stringFrom_backslash (escape?_letter he rest)
    rw [Char.ofNat_toNat] at hcodes
    exact ⟨_, hcodes⟩
  | code hn hl ht =>
    exact ⟨_, .single (List.cons_ne_nil _ _) hl ht
      fun steps rest => stringFrom_backslash (escape?_code hn rest)⟩
  | @pair m n _ _ _ _ a b c d hm hl hn ht =>
    refine ⟨[m, n], by simp, fun steps rest => ?_, fun more => ?_⟩
    · have hsecond : stringFrom '"' (steps + 1) ('\\' :: 'u' :: a :: b :: c :: d :: rest) =
          (stringFrom '"' steps rest).map fun p => (n :: p.1, p.2) :=
        stringFrom_backslash (escape?_code hn rest)
      have hfirst := escape?_code hm ('\\' :: 'u' :: a :: b :: c :: d :: rest)
      refine (stringFrom_backslash hfirst).trans ?_
      rw [List.length_singleton, hsecond, Option.map_map]
      rfl
    · show textOfCodes? (m :: n :: more) = _
      rw [textOfCodes?, if_pos ⟨hl, ht⟩]
      rfl

/-- The forms of characters are read as codes that stand for them. -/
theorem exists_codes_of_spellsChars {cs forms : List Char} (h : SpellsChars cs forms) :
    ∃ codes, Codes cs forms codes := by
  induction h with
  | nil => exact ⟨[], Nat.le_refl _, fun steps rest => by simp, fun more => by simp⟩
  | cons hc _ ih =>
    obtain ⟨codes, hcodes⟩ := exists_codes_of_spellsChar hc
    obtain ⟨more, hmore⟩ := ih
    exact ⟨codes ++ more, hcodes.append hmore⟩

/-- A text of a string is cut off as a string with that value. -/
theorem scan_spellsString {s : String} {cs : List Char} (h : SpellsString s cs)
    (rest : List Char) : Token.scan (cs ++ rest) = (.string (some s), rest) := by
  obtain ⟨inner, hs, rfl⟩ := h
  obtain ⟨codes, hc⟩ := exists_codes_of_spellsChars hs
  have hlength := hc.length_le
  obtain ⟨more, hmore⟩ : ∃ more, (inner ++ '"' :: rest).length + 1 = more + 1 + codes.length := by
    refine ⟨(inner ++ '"' :: rest).length - codes.length, ?_⟩
    rw [List.length_append]
    omega
  have hend : stringFrom '"' (more + 1) ('"' :: rest) = some ([], rest) := by
    rw [stringFrom, if_pos rfl]
  have htext := hc.text []
  rw [List.append_nil] at htext
  have hscan : Token.scan ('"' :: (inner ++ '"' :: rest)) =
      scanString '"' (inner ++ '"' :: rest) := rfl
  rw [List.cons_append, List.append_assoc, List.singleton_append, hscan, scanString, hmore,
    hc.read, hend, Option.map_some, List.append_nil]
  simp [htext, textOfCodes?, String.ofList_toList]

/-! ## Words -/

/-- A word is read up to what cannot be part of it. -/
theorem wordFrom_append {word rest : List Char} (steps : Nat)
    (hw : ∀ c ∈ word, isIdentifierPart c = true ∧ c ≠ '\\')
    (hr : ∀ c ∈ rest.head?, isIdentifierPart c = false ∧ c ≠ '\\') :
    wordFrom (word.length + steps) (word ++ rest) = some (word, false, rest) := by
  induction word with
  | nil =>
    cases steps with
    | zero => rfl
    | succ steps =>
      cases rest with
      | nil => rfl
      | cons c rest =>
        obtain ⟨hc, hb⟩ := hr c rfl
        rw [List.length_nil, Nat.zero_add, List.nil_append, wordFrom, hc]
        · rfl
        · exact hb
  | cons c word ih =>
    obtain ⟨hc, hb⟩ := hw c List.mem_cons_self
    have hrest := ih fun d hd => hw d (List.mem_cons_of_mem c hd)
    rw [List.length_cons, Nat.succ_add, List.cons_append, wordFrom, if_pos hc, hrest]
    · rfl
    · exact hb

/-- A word without escapes is cut off up to where no letter follows. -/
theorem scan_word {c : Char} {word rest : List Char} (hc : isIdentifierStart c = true)
    (hw : (c :: word).all (fun d => isIdentifierPart d && d ≠ '\\') = true)
    (hr : ∀ d ∈ rest.head?, isIdentifierPart d = false ∧ d ≠ '\\') :
    Token.scan (c :: word ++ rest) = (.word (String.ofList (c :: word)), rest) := by
  have hslash : c ≠ '/' := by
    rintro rfl
    exact absurd hc (by decide)
  have hpoint : c ≠ '.' := by
    rintro rfl
    exact absurd hc (by decide)
  have hscan : Token.scan (c :: (word ++ rest)) = scanWord (c :: (word ++ rest)) := by
    rw [Token.scan, if_pos (.inl hc)]
    · exact fun _ h => absurd h hslash
    · exact fun _ _ h => absurd h hpoint
  have hparts : ∀ d ∈ c :: word, isIdentifierPart d = true ∧ d ≠ '\\' := by
    intro d hd
    have hd := List.all_eq_true.1 hw d hd
    rwa [Bool.and_eq_true, decide_eq_true_eq] at hd
  have hword := wordFrom_append rest.length hparts hr
  rw [← List.length_append] at hword
  rw [List.cons_append, hscan, scanWord, ← List.cons_append, hword]
  simp [hc]

/-! ## Gaps -/

/-- A text with a token in front, or an empty one : no gap is passed over there. -/
def AtToken (cs : List Char) : Prop :=
  ∀ newline, skipGap .blank newline cs = (cs, newline)

theorem atToken_nil : AtToken [] := fun _ => rfl

/-- A value starts with a token. -/
theorem atToken_of_start? {v : Json} {c : Char} (h : start? v = some c) (rest : List Char) :
    AtToken (c :: rest) := by
  intro newline
  cases v with
  | bool b => cases b <;> cases h <;> cases newline <;> rfl
  | _ => cases h <;> cases newline <;> rfl

theorem atToken_of_spells {v : Json} {cs : List Char} (hp : Plain v) (h : Spells v cs)
    (rest : List Char) : AtToken (cs ++ rest) := by
  obtain ⟨c, tail, rfl, hc⟩ := exists_cons_of_spells hp h
  exact atToken_of_start? hc (tail ++ rest)

/-- A gap is passed over up to the token behind it. -/
theorem exists_skipGap {gap rest : List Char} (hg : IsGap gap) (hr : AtToken rest)
    (newline : Bool) : ∃ newline', skipGap .blank newline (gap ++ rest) = (rest, newline') := by
  induction gap generalizing newline with
  | nil => exact ⟨newline, hr newline⟩
  | cons c gap ih =>
    have hstep : ∃ newline', skipGap .blank newline (c :: (gap ++ rest)) =
        skipGap .blank newline' (gap ++ rest) := by
      have hc := hg c List.mem_cons_self
      simp only [isGap, Bool.or_eq_true, decide_eq_true_eq] at hc
      rcases hc with ((rfl | rfl) | rfl) | rfl <;> cases newline <;> exact ⟨_, rfl⟩
    obtain ⟨newline', h⟩ := hstep
    obtain ⟨last, hlast⟩ := ih (fun d hd => hg d (List.mem_cons_of_mem c hd)) newline'
    exact ⟨last, h.trans hlast⟩

end SvgComponent.Script
