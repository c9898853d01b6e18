import Mathlib.Tactic.MkIffOfInductiveProp
import SvgComponent.Proofs.Text.Casing
import SvgComponent.Proofs.Text.Marks
import SvgComponent.Style

/-!
# Keys and the properties they name

A key is turned back into a property by a hyphen in front of each capital, and one more in front of
`ms-` (`propertyOf`). This gives back every name of small letters, digits, underscores and hyphens
in which letters follow the hyphens, unless the name starts with `ms-` as no property does
(`IsPropertyName`); so two of them never have the same key (`propertyOf_keyOf_unique`).

The name is put into its small form only after it has been looked at for `-ms-`. Names that are the
same but for capitals therefore have the same key exactly if both start with `-ms-`, in this
spelling, or neither does (`keyOf_respelled`).
-/

namespace SvgComponent.Style

open Text

/-- What the names of custom properties start with. -/
def customMark : List Char := ['-', '-']

/-- What the names of properties of one vendor start with. -/
def microsoftMark : List Char := ['-', 'm', 's', '-']

theorem keyOf_eq {name : List Char} (h : ¬ customMark <+: name) :
    keyOf name = camelCase (lowercase (if microsoftMark <+: name then name.tail else name)) := by
  have hcustom : ¬ (stripMark? ['-', '-'] name).isSome = true := isSome_stripMark?_iff.not.2 h
  rw [keyOf, if_neg hcustom]
  exact congrArg (fun text => camelCase (lowercase text)) (if_congr isSome_stripMark?_iff rfl rfl)

/-! ## Keys read back -/

/-- A key with hyphens in place of capitals. -/
def hyphenated (key : List Char) : List Char :=
  key.flatMap fun c => if c.isUpper then ['-', c.toLower] else [c]

/-- The property that is set under a key. -/
def propertyOf (key : List Char) : List Char :=
  if microsoftMark.tail <+: hyphenated key then '-' :: hyphenated key else hyphenated key

def isPropertyChar (c : Char) : Bool :=
  c.isLower || c.isDigit || c = '_' || c = '-'

/-- A text of small letters, digits, underscores and hyphens, each hyphen in front of a letter. -/
@[mk_iff]
structure IsHyphenated (name : List Char) : Prop where
  chars : name.all isPropertyChar = true
  hyphens : ∀ rest ∈ name.tails, rest.head? = some '-' → rest.tail.head?.any Char.isLower = true

instance {name : List Char} : Decidable (IsHyphenated name) :=
  decidable_of_iff _ (isHyphenated_iff name).symm

/-- The names of properties that their keys tell apart. -/
def IsPropertyName (name : List Char) : Prop :=
  IsHyphenated name ∧ ¬ microsoftMark.tail <+: name

instance {name : List Char} : Decidable (IsPropertyName name) := instDecidableAnd

variable {c : Char} {name cs : List Char}

/-- The names of properties are of ASCII characters. -/
theorem toNat_lt_of_isPropertyChar (h : isPropertyChar c = true) : c.toNat < 0x80 := by
  simp only [isPropertyChar, Bool.or_eq_true, decide_eq_true_eq] at h
  obtain ((h | h) | rfl) | rfl := h
  · have hbound : c.val ≤ 'z'.val := of_decide_eq_true (Bool.and_eq_true_iff.1 h).2
    exact Nat.lt_of_le_of_lt (UInt32.le_iff_toNat_le.1 hbound) (by decide)
  · have hbound : c.val ≤ '9'.val := of_decide_eq_true (Bool.and_eq_true_iff.1 h).2
    exact Nat.lt_of_le_of_lt (UInt32.le_iff_toNat_le.1 hbound) (by decide)
  · decide
  · decide

theorem isUpper_of_isPropertyChar (h : isPropertyChar c = true) : c.isUpper = false := by
  have hall : ∀ c : Char, c.toNat < 0x80 → isPropertyChar c = true → c.isUpper = false :=
    forall_ascii (by decide)
  exact hall c (toNat_lt_of_isPropertyChar h) h

/-- A small letter takes the place of a hyphen as a capital, and the capital is read as both. -/
theorem capital_of_isLower (h : c.isLower = true) :
    isJoint c = true ∧ c.toUpper.isUpper = true ∧ c.toUpper.toLower = c := by
  have hall : ∀ c : Char, c.toNat < 0x80 → c.isLower = true →
      isJoint c = true ∧ c.toUpper.isUpper = true ∧ c.toUpper.toLower = c :=
    forall_ascii (by decide)
  exact hall c (toNat_lt_of_isPropertyChar (by simp [isPropertyChar, h])) h

theorem IsHyphenated.isPropertyChar (h : IsHyphenated name) :
    ∀ c ∈ name, isPropertyChar c = true :=
  List.all_eq_true.1 h.chars

theorem IsHyphenated.of_cons (h : IsHyphenated (c :: cs)) : IsHyphenated cs where
  chars := List.all_eq_true.2 (List.forall_mem_cons.1 h.isPropertyChar).2
  hyphens rest hr := h.hyphens rest (by rw [List.tails_cons]; exact List.mem_cons_of_mem _ hr)

/-- What follows a hyphen is a letter. -/
theorem IsHyphenated.exists_cons (h : IsHyphenated ('-' :: cs)) :
    ∃ c rest, cs = c :: rest ∧ c.isLower = true := by
  have hnext : cs.head?.any Char.isLower = true :=
    h.hyphens ('-' :: cs) (by rw [List.tails_cons]; exact List.mem_cons_self) rfl
  cases cs with
  | nil => cases hnext
  | cons c rest => exact ⟨c, rest, rfl, hnext⟩

theorem hyphenated_cons (c : Char) (cs : List Char) :
    hyphenated (c :: cs) = (if c.isUpper then ['-', c.toLower] else [c]) ++ hyphenated cs :=
  List.flatMap_cons

/-- Each capital of a key is read as the hyphen and the letter that it stands for. -/
theorem hyphenated_camelCase (h : IsHyphenated name) : hyphenated (camelCase name) = name := by
  fun_induction camelCase name with
  | case1 => rfl
  | case2 =>
    obtain ⟨c, rest, he, -⟩ := h.exists_cons
    cases he
  | case3 c cs hj ih =>
    obtain ⟨d, rest, he, hd⟩ := h.exists_cons
    obtain ⟨rfl, rfl⟩ := List.cons_eq_cons.1 he
    obtain ⟨-, hupper, hlower⟩ := capital_of_isLower hd
    rw [hyphenated_cons, if_pos hupper, hlower, ih h.of_cons.of_cons]
    rfl
  | case4 c cs hj ih =>
    obtain ⟨d, rest, he, hd⟩ := h.exists_cons
    obtain ⟨rfl, rfl⟩ := List.cons_eq_cons.1 he
    exact absurd (capital_of_isLower hd).1 hj
  | case5 c cs hne hne' ih =>
    have hc := isUpper_of_isPropertyChar (h.isPropertyChar c List.mem_cons_self)
    rw [hyphenated_cons, hc, ih h.of_cons]
    rfl

/-- A name in small letters stays as it is. -/
theorem IsHyphenated.lowercase_eq (h : IsHyphenated name) : lowercase name = name :=
  lowercase_eq_self fun c hc =>
    ⟨toNat_lt_of_isPropertyChar (h.isPropertyChar c hc),
      isUpper_of_isPropertyChar (h.isPropertyChar c hc)⟩

/-- No letter follows the first hyphen of a custom property. -/
theorem IsHyphenated.not_customMark (h : IsHyphenated name) : ¬ customMark <+: name := by
  rintro ⟨rest, rfl⟩
  obtain ⟨c, tail, he, hc⟩ := h.exists_cons
  obtain ⟨rfl, -⟩ := List.cons_eq_cons.1 he
  exact absurd hc (by decide)

/-- The key of a property gives its name back. -/
theorem propertyOf_keyOf (h : IsPropertyName name) : propertyOf (keyOf name) = name := by
  obtain ⟨hname, hms⟩ := h
  have hread {text : List Char} (ht : IsHyphenated text) :
      hyphenated (camelCase (lowercase text)) = text := by
    rw [ht.lowercase_eq, hyphenated_camelCase ht]
  rw [keyOf_eq hname.not_customMark]
  by_cases hm : microsoftMark <+: name
  · obtain ⟨rest, rfl⟩ := hm
    have htail : IsHyphenated (microsoftMark.tail ++ rest) := hname.of_cons
    have hdrop : (microsoftMark ++ rest).tail = microsoftMark.tail ++ rest := rfl
    rw [if_pos (List.prefix_append _ _), hdrop, propertyOf, hread htail,
      if_pos (List.prefix_append _ _)]
    rfl
  · rw [if_neg hm, propertyOf, hread hname, if_neg hms]

/-- A key names the property that it was made from, so different properties have different keys. -/
theorem propertyOf_keyOf_unique (h : IsPropertyName name) :
    propertyOf (keyOf name) = name ∧
      ∀ other, IsPropertyName other → keyOf other = keyOf name → other = name := by
  refine ⟨propertyOf_keyOf h, fun other ho he => ?_⟩
  rw [← propertyOf_keyOf ho, he, propertyOf_keyOf h]

theorem propertyOf_keyOf_unique_microsoft :
    IsPropertyName "-ms-high-contrast_2-a".toList ∧ IsPropertyName "-ms".toList ∧
      keyOf "-ms-high-contrast_2-a".toList = "msHighContrast_2A".toList ∧
      propertyOf (keyOf "-ms-high-contrast_2-a".toList) = "-ms-high-contrast_2-a".toList ∧
      keyOf "-ms".toList ≠ keyOf "-ms-high-contrast_2-a".toList := by
  have h : IsPropertyName "-ms-high-contrast_2-a".toList := by decide +kernel
  have hs : IsPropertyName "-ms".toList := by decide +kernel
  obtain ⟨hkey, hother⟩ := propertyOf_keyOf_unique h
  exact ⟨h, hs, by decide +kernel, hkey, fun he => absurd (hother _ hs he) (by decide)⟩

/-! ## Names that differ in capitals only -/

variable {p q : List Char}

theorem lowercase_congr (h : p.map Char.toLower = q.map Char.toLower) :
    lowercase p = lowercase q := by
  rw [← lowercase_map_toLower p, h, lowercase_map_toLower]

/-- Names that differ in capitals only have one key if both start with the mark of the vendor, or
neither does. -/
theorem keyOf_congr (hp : ¬ customMark <+: p) (hq : ¬ customMark <+: q)
    (h : p.map Char.toLower = q.map Char.toLower)
    (hms : microsoftMark <+: p ↔ microsoftMark <+: q) : keyOf p = keyOf q := by
  rw [keyOf_eq hp, keyOf_eq hq]
  by_cases hm : microsoftMark <+: p
  · have htail : p.tail.map Char.toLower = q.tail.map Char.toLower := by
      simp only [List.map_tail, h]
    rw [if_pos hm, if_pos (hms.1 hm), lowercase_congr htail]
  · rw [if_neg hm, if_neg (mt hms.2 hm), lowercase_congr h]

/-- The key of a name with the vendor's mark starts with a small letter. -/
theorem head?_keyOf_microsoft (rest : List Char) :
    (keyOf (microsoftMark ++ rest)).head? = some 'm' := by
  rw [keyOf_eq (by simp [customMark, microsoftMark]), if_pos (List.prefix_append _ _)]
  rfl

/-- The key of a name with the mark in another spelling starts with a capital. -/
theorem head?_keyOf_of_not_microsoft (hc : ¬ customMark <+: q) (hm : ¬ microsoftMark <+: q)
    {rest : List Char} (h : q.map Char.toLower = (microsoftMark ++ rest).map Char.toLower) :
    (keyOf q).head? = some 'M' := by
  rw [keyOf_eq hc, if_neg hm, lowercase_congr h]
  rfl

/-- They have two keys if only one of them does. -/
theorem keyOf_ne (hq : ¬ customMark <+: q) (h : p.map Char.toLower = q.map Char.toLower)
    (hp : microsoftMark <+: p) (hm : ¬ microsoftMark <+: q) : keyOf p ≠ keyOf q := by
  obtain ⟨rest, rfl⟩ := hp
  intro he
  have hhead := head?_keyOf_of_not_microsoft hq hm h.symm
  rw [← he, head?_keyOf_microsoft] at hhead
  cases hhead

/-- Names that differ in capitals only have the same key exactly if they agree about the vendor's
mark, and then it makes no difference to an object which of them is written. -/
theorem keyOf_respelled (hp : ¬ customMark <+: p) (hq : ¬ customMark <+: q)
    (h : p.map Char.toLower = q.map Char.toLower) :
    (keyOf p = keyOf q ↔ (microsoftMark <+: p ↔ microsoftMark <+: q)) ∧
      ((microsoftMark <+: p ↔ microsoftMark <+: q) →
        ∀ css css' before after value, Css.declarations css = before ++ ⟨p, value⟩ :: after →
          Css.declarations css' = before ++ ⟨q, value⟩ :: after → object css = object css') := by
  refine ⟨⟨fun he => ⟨fun hm => ?_, fun hm => ?_⟩, keyOf_congr hp hq h⟩, ?_⟩
  · by_contra hn
    exact keyOf_ne hq h hm hn he
  · by_contra hn
    exact keyOf_ne hp h.symm hm hn he.symm
  · intro hms css css' before after value hd hd'
    have hkey := keyOf_congr hp hq h hms
    rw [object, object, hd, hd']
    simp only [List.map_append, List.map_cons, hkey]

theorem keyOf_respelled_transform :
    ¬ customMark <+: "-ms-Transform".toList ∧ ¬ customMark <+: "-ms-TRANSFORM".toList ∧
      "-ms-Transform".toList.map Char.toLower = "-ms-TRANSFORM".toList.map Char.toLower ∧
      keyOf "-ms-Transform".toList = keyOf "-ms-TRANSFORM".toList ∧
      object "Fill:red;-ms-Transform:none".toList =
        object "Fill:red;-ms-TRANSFORM:none".toList := by
  have hp : ¬ customMark <+: "-ms-Transform".toList := by decide
  have hq : ¬ customMark <+: "-ms-TRANSFORM".toList := by decide
  have h : "-ms-Transform".toList.map Char.toLower = "-ms-TRANSFORM".toList.map Char.toLower := by
    decide
  have hms :
      microsoftMark <+: "-ms-Transform".toList ↔ microsoftMark <+: "-ms-TRANSFORM".toList := by
    decide
  obtain ⟨hkey, hobject⟩ := keyOf_respelled hp hq h
  refine ⟨hp, hq, h, hkey.2 hms,
    hobject hms _ _ [⟨"Fill".toList, "red".toList⟩] [] "none".toList ?_ ?_⟩
  · decide +kernel
  · decide +kernel

/-- The mark is known in small letters only, so a property can have two keys. -/
theorem not_forall_keyOf_eq :
    ¬ ∀ p q : List Char, ¬ customMark <+: p → ¬ customMark <+: q →
      p.map Char.toLower = q.map Char.toLower → keyOf p = keyOf q := by
  intro h
  have he := h "-ms-transform".toList "-MS-transform".toList (by decide) (by decide) (by decide)
  exact absurd he (by decide +kernel)

end SvgComponent.Style
