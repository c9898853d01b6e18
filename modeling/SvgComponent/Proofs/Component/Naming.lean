import SvgComponent.Component.Naming
import SvgComponent.Proofs.Script.Tokens
import SvgComponent.Proofs.Text.Casing

/-!
# Names for components

The name of a component has the letters and digits of the stem of its file, all of them and in their
order; only small letters become capitals (`map_toLower_joinWords`). What it starts with is a
capital, or an underscore in front of a digit, so that a script reads it as one word, which is none
of those that it keeps for itself (`IsComponentName.scan_eq`, `IsComponentName.canRefer_eq`).

Nothing is put in front of a name without characters. A stem without letters and digits of ASCII
therefore gives a name that is none, and every other stem gives one (`isComponentName_iff`).
-/

namespace SvgComponent.Component

open Text Script

variable {raise : Bool} {c : Char} {cs : List Char}

/-- A name that the generated script can export a component under. -/
structure IsComponentName (name : List Char) : Prop where
  ne_nil : name ≠ []
  chars : ∀ c ∈ name, c.isAlphanum = true ∨ c = '_'
  starts : ∀ c ∈ name.head?, c.isUpper = true ∨ c = '_'

/-- A name without the underscore in front. -/
def bareName : List Char → List Char
  | '_' :: cs => cs
  | cs => cs

/-! ## Letters and digits -/

/-- Letters and digits are of ASCII here. -/
theorem toNat_lt_of_isAlphanum (h : c.isAlphanum = true) : c.toNat < 0x80 := by
  have hkinds : (c.isUpper || c.isLower || c.isDigit) = true := h
  rw [Bool.or_eq_true, Bool.or_eq_true] at hkinds
  obtain (h | h) | h := hkinds
  · have hbound : c.val ≥ 'A'.val ∧ c.val ≤ 'Z'.val := of_decide_eq_true h
    exact Nat.lt_of_le_of_lt (UInt32.le_iff_toNat_le.1 hbound.2) (by decide)
  · have hbound : c.val ≤ 'z'.val := of_decide_eq_true (Bool.and_eq_true_iff.1 h).2
    exact Nat.lt_of_le_of_lt (UInt32.le_iff_toNat_le.1 hbound) (by decide)
  · have hbound : c.val ≤ '9'.val := of_decide_eq_true (Bool.and_eq_true_iff.1 h).2
    exact Nat.lt_of_le_of_lt (UInt32.le_iff_toNat_le.1 hbound) (by decide)

/-- The capital form of a letter is a capital, and the one of a digit the digit. -/
theorem capital_of_isAlphanum (h : c.isAlphanum = true) :
    c.toUpper.isAlphanum = true ∧ (c.toUpper.isUpper = true ∨ c.toUpper.isDigit = true) ∧
      c.toUpper.toLower = c.toLower := by
  have hall : ∀ c : Char, c.toNat < 0x80 → c.isAlphanum = true →
      c.toUpper.isAlphanum = true ∧ (c.toUpper.isUpper = true ∨ c.toUpper.isDigit = true) ∧
        c.toUpper.toLower = c.toLower :=
    forall_ascii (by decide)
  exact hall c (toNat_lt_of_isAlphanum h) h

theorem ne_underscore_of_isAlphanum (h : c.isAlphanum = true) : c ≠ '_' := by
  rintro rfl
  revert h
  decide

theorem isIdentifierPart_of_isAlphanum (h : c.isAlphanum = true) : isIdentifierPart c = true := by
  have hall : ∀ c : Char, c.toNat < 0x80 → c.isAlphanum = true → isIdentifierPart c = true :=
    forall_ascii (by decide)
  exact hall c (toNat_lt_of_isAlphanum h) h

/-! ## Words joined -/

/-- A letter or digit stays, and is raised at the start of a word. -/
theorem joinWords_of_isAlphanum (h : c.isAlphanum = true) :
    joinWords raise (c :: cs) = (if raise then c.toUpper else c) :: joinWords false cs :=
  if_pos h

theorem joinWords_of_not_isAlphanum (h : ¬ c.isAlphanum = true) :
    joinWords raise (c :: cs) = joinWords true cs :=
  if_neg h

/-- Joined words consist of letters and digits. -/
theorem isAlphanum_of_mem_joinWords (h : c ∈ joinWords raise cs) : c.isAlphanum = true := by
  induction cs generalizing raise with
  | nil => cases h
  | cons d cs ih =>
    by_cases hd : d.isAlphanum = true
    · rw [joinWords_of_isAlphanum hd] at h
      obtain rfl | h := List.mem_cons.1 h
      · split_ifs
        · exact (capital_of_isAlphanum hd).1
        · exact hd
      · exact ih h
    · rw [joinWords_of_not_isAlphanum hd] at h
      exact ih h

/-- The first word starts with a capital or a digit. -/
theorem isUpper_or_isDigit_head_joinWords (h : c ∈ (joinWords true cs).head?) :
    c.isUpper = true ∨ c.isDigit = true := by
  induction cs with
  | nil => cases h
  | cons d cs ih =>
    by_cases hd : d.isAlphanum = true
    · rw [joinWords_of_isAlphanum hd] at h
      cases h
      exact (capital_of_isAlphanum hd).2.1
    · rw [joinWords_of_not_isAlphanum hd] at h
      exact ih h

/-- All letters and digits are kept, and in their order. -/
theorem map_toLower_joinWords (raise : Bool) (cs : List Char) :
    (joinWords raise cs).map Char.toLower = (cs.filter Char.isAlphanum).map Char.toLower := by
  induction cs generalizing raise with
  | nil => rfl
  | cons d cs ih =>
    by_cases hd : d.isAlphanum = true
    · rw [joinWords_of_isAlphanum hd, List.filter_cons_of_pos hd, List.map_cons, List.map_cons, ih]
      cases raise
      · rfl
      · exact congrArg (· :: _) (capital_of_isAlphanum hd).2.2
    · rw [joinWords_of_not_isAlphanum hd, List.filter_cons_of_neg hd, ih]

/-- Nothing is joined if there are neither letters nor digits. -/
theorem joinWords_eq_nil_iff : joinWords raise cs = [] ↔ ∀ c ∈ cs, ¬ c.isAlphanum = true := by
  rw [← List.map_eq_nil_iff, map_toLower_joinWords, List.map_eq_nil_iff, List.filter_eq_nil_iff]

/-! ## A digit in front -/

theorem guardDigit_eq_nil_iff : guardDigit cs = [] ↔ cs = [] := by
  cases cs with
  | nil => exact Iff.rfl
  | cons c cs =>
    rw [guardDigit]
    split_ifs <;> simp

/-- At most an underscore is added. -/
theorem mem_guardDigit (h : c ∈ guardDigit cs) : c ∈ cs ∨ c = '_' := by
  cases cs with
  | nil => cases h
  | cons d cs =>
    rw [guardDigit] at h
    split_ifs at h
    · exact (List.mem_cons.1 h).symm
    · exact .inl h

/-- No digit stands in front. -/
theorem head_guardDigit (h : c ∈ (guardDigit cs).head?) :
    c = '_' ∨ c ∈ cs.head? ∧ ¬ c.isDigit = true := by
  cases cs with
  | nil => cases h
  | cons d cs =>
    rw [guardDigit] at h
    split_ifs at h with hd
    · cases h
      exact .inl rfl
    · cases h
      exact .inr ⟨rfl, hd⟩

/-- Only what was put in front is taken away again. -/
theorem bareName_guardDigit (h : '_' ∉ cs) : bareName (guardDigit cs) = cs := by
  cases cs with
  | nil => rfl
  | cons c cs =>
    rw [guardDigit]
    split_ifs
    · rfl
    · exact bareName.eq_2 _ fun rest he => h (he ▸ List.mem_cons_self)

/-! ## Names in a script -/

namespace IsComponentName

variable {name : List Char}

/-- A script reads the name as one word. -/
theorem scan_eq (h : IsComponentName name) :
    Token.scan name = (.word (String.ofList name), []) := by
  obtain ⟨c, rest, rfl⟩ := List.exists_cons_of_ne_nil h.ne_nil
  have hstart : isIdentifierStart c = true := by
    obtain hc | rfl := h.starts c rfl
    · have halpha : c.isAlpha = true := Bool.or_eq_true_iff.2 (.inl hc)
      simp [isIdentifierStart, halpha]
    · decide
  have hparts : (c :: rest).all (fun d => isIdentifierPart d && d ≠ '\\') = true := by
    refine List.all_eq_true.2 fun d hd => ?_
    obtain hd | rfl := h.chars d hd
    · have hne : d ≠ '\\' := by
        rintro rfl
        revert hd
        decide
      simp [isIdentifierPart_of_isAlphanum hd, hne]
    · decide
  have hend : ∀ d ∈ ([] : List Char).head?, isIdentifierPart d = false ∧ d ≠ '\\' := by simp
  have hscan := scan_word hstart hparts hend
  rwa [List.append_nil] at hscan

/-- No word that a script keeps for itself starts with a capital or an underscore. -/
theorem canRefer_eq (h : IsComponentName name) : canRefer (String.ofList name) = true := by
  have hwords : (keywords ++ reservedWords).all (fun word =>
      !word.toList.head?.any fun c => c.isUpper || c = '_') = true := by decide +kernel
  obtain ⟨c, rest, rfl⟩ := List.exists_cons_of_ne_nil h.ne_nil
  have hnone : String.ofList (c :: rest) ∉ keywords ++ reservedWords := by
    intro hm
    have hhead := List.all_eq_true.1 hwords _ hm
    rw [String.toList_ofList, List.head?_cons] at hhead
    have hstart := h.starts c rfl
    simp_all
  rw [List.mem_append, not_or, ← List.contains_iff_mem, ← List.contains_iff_mem,
    Bool.not_eq_true, Bool.not_eq_true] at hnone
  rw [canRefer, hnone.1, hnone.2]
  exact Bool.or_true _

end IsComponentName

/-! ## The name of a file -/

/-- Joined words are a name if there are any. -/
theorem isComponentName_guardDigit_iff :
    IsComponentName (guardDigit (joinWords true cs)) ↔ ∃ c ∈ cs, c.isAlphanum = true := by
  constructor
  · intro h
    by_contra hnone
    push Not at hnone
    exact h.ne_nil (guardDigit_eq_nil_iff.2 (joinWords_eq_nil_iff.2 hnone))
  · rintro ⟨c, hm, hc⟩
    refine ⟨fun he => ?_, fun d hd => ?_, fun d hd => ?_⟩
    · exact joinWords_eq_nil_iff.1 (guardDigit_eq_nil_iff.1 he) c hm hc
    · exact (mem_guardDigit hd).imp_left isAlphanum_of_mem_joinWords
    · obtain rfl | ⟨hd, hdigit⟩ := head_guardDigit hd
      · exact .inr rfl
      · exact .inl ((isUpper_or_isDigit_head_joinWords hd).resolve_right hdigit)

/-- A file gives a name that a component can be exported under exactly if there is a letter or a
digit in its stem; the letters and digits of the stem are those of the name. -/
theorem isComponentName_iff (file : String) :
    (IsComponentName (componentName file).toList ∧
        Token.scan (componentName file).toList = (.word (componentName file), []) ∧
        canRefer (componentName file) = true ↔
      ∃ c ∈ (Path.stem file).toList, c.isAlphanum = true) ∧
    (bareName (componentName file).toList).map Char.toLower =
      ((Path.stem file).toList.filter Char.isAlphanum).map Char.toLower := by
  have hname : componentName file =
      String.ofList (guardDigit (joinWords true (Path.stem file).toList)) := rfl
  have hbare : '_' ∉ joinWords true (Path.stem file).toList := fun hm =>
    ne_underscore_of_isAlphanum (isAlphanum_of_mem_joinWords hm) rfl
  rw [hname, String.toList_ofList, bareName_guardDigit hbare, map_toLower_joinWords]
  refine ⟨⟨fun h => isComponentName_guardDigit_iff.1 h.1, fun h => ?_⟩, rfl⟩
  have hvalid := isComponentName_guardDigit_iff.2 h
  exact ⟨hvalid, hvalid.scan_eq, hvalid.canRefer_eq⟩

/-- Letters beyond ASCII are left out, and a stem of nothing else gives a name without characters.
-/
theorem not_forall_isComponentName :
    ¬ ∀ file, IsComponentName (componentName file).toList :=
  fun h => (h "стрелка.svg").ne_nil (by decide +kernel)

end SvgComponent.Component
