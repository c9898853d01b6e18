import SvgComponent.Proofs.Json.Numerals
import SvgComponent.Proofs.Json.Quotes

/-!
# JSON texts

The grammar of JSON without its values : which texts are texts of a value, whatever the value is,
and whether or not there is a double for every numeral and a character for every code. It is told by
what the parts of a text are made of (`Derives`), with gaps around every token.
-/

namespace SvgComponent.Json

open Text

/-! ## Numerals -/

/-- A text of digits, of at least one. -/
def IsDigits (cs : List Char) : Prop :=
  cs ≠ [] ∧ ∀ c ∈ cs, c.isDigit = true

/-- The digits of a whole number : a zero in front is the only one. -/
inductive IsWhole : List Char → Prop
  | zero : IsWhole ['0']
  | digits {cs : List Char} (h : IsDigits cs) (h0 : cs.head? ≠ some '0') : IsWhole cs

/-- A point with digits behind it, or nothing. -/
inductive IsFraction : List Char → Prop
  | none : IsFraction []
  | digits {cs : List Char} (h : IsDigits cs) : IsFraction ('.' :: cs)

/-- The letter of an exponent with digits behind it, maybe with a sign, or nothing. -/
inductive IsExponent : List Char → Prop
  | none : IsExponent []
  | digits {e : Char} {sign cs : List Char} (he : e ∈ ['e', 'E']) (hs : sign ∈ [[], ['+'], ['-']])
    (h : IsDigits cs) : IsExponent (e :: (sign ++ cs))

/-- A text of a number. -/
def IsNumeral (cs : List Char) : Prop :=
  ∃ sign whole fraction exponent, sign ∈ [[], ['-']] ∧ IsWhole whole ∧ IsFraction fraction ∧
    IsExponent exponent ∧ cs = sign ++ (whole ++ (fraction ++ exponent))

/-! ## Values -/

/-- The parts of a text that are told by one another. -/
inductive Part where
  | value
  | member
  | entries (of : Part)

/-- What the parts of a text are made of. -/
inductive Derives : Part → List Char → Prop
  | null : Derives .value ['n', 'u', 'l', 'l']
  | true : Derives .value ['t', 'r', 'u', 'e']
  | false : Derives .value ['f', 'a', 'l', 's', 'e']
  | number {cs : List Char} (h : IsNumeral cs) : Derives .value cs
  | string {inner : List Char} (h : IsQuotable inner) : Derives .value ('"' :: (inner ++ ['"']))
  | emptyList {gap : List Char} (hg : IsGap gap) : Derives .value ('[' :: (gap ++ [']']))
  | list {items : List Char} (h : Derives (.entries .value) items) :
    Derives .value ('[' :: (items ++ [']']))
  | emptyObject {gap : List Char} (hg : IsGap gap) : Derives .value ('{' :: (gap ++ ['}']))
  | object {members : List Char} (h : Derives (.entries .member) members) :
    Derives .value ('{' :: (members ++ ['}']))
  | member {key colon value : List Char} (hk : IsQuotable key) (hc : IsMark ':' colon)
    (hv : Derives .value value) : Derives .member ('"' :: (key ++ '"' :: (colon ++ value)))
  | last {part : Part} {before entry after : List Char} (hb : IsGap before)
    (he : Derives part entry)
    (ha : IsGap after) : Derives (.entries part) (before ++ (entry ++ after))
  | more {part : Part} {before entry comma rest : List Char} (hb : IsGap before)
    (he : Derives part entry) (hc : IsMark ',' comma) (hr : Derives (.entries part) rest) :
    Derives (.entries part) (before ++ (entry ++ (comma ++ rest)))

/-- A JSON text : a text of a value with gaps around it. -/
def IsJson (text : List Char) : Prop :=
  ∃ before value after, IsGap before ∧ Derives .value value ∧ IsGap after ∧
    text = before ++ (value ++ after)

/-! ## Tokens -/

theorem IsDigits.isWordChar {cs : List Char} (h : IsDigits cs) : ∀ c ∈ cs, isWordChar c = true :=
  fun c hc => (isWordChar_of_isDigit (h.2 c hc)).1

/-- A numeral is a word. -/
theorem IsNumeral.isWordChar {cs : List Char} (h : IsNumeral cs) :
    ∀ c ∈ cs, isWordChar c = true := by
  obtain ⟨sign, whole, fraction, exponent, hs, hw, hf, he, rfl⟩ := h
  have hminus : [[], ['-']].all (·.all Json.isWordChar) = true := by decide
  have hsigns : [[], ['+'], ['-']].all (·.all Json.isWordChar) = true := by decide
  have hletters : ['e', 'E'].all Json.isWordChar = true := by decide
  simp only [List.all_eq_true] at hminus hsigns hletters
  simp only [List.forall_mem_append]
  refine ⟨hminus sign hs, ?_, ?_, ?_⟩
  · cases hw with
    | zero => exact List.all_eq_true.1 (by decide)
    | digits h => exact h.isWordChar
  · cases hf with
    | none => exact List.forall_mem_nil _
    | digits h => exact List.forall_mem_cons.2 ⟨by decide, h.isWordChar⟩
  · cases he with
    | none => exact List.forall_mem_nil _
    | digits he hs h =>
      have hdigits := List.forall_mem_append.2 ⟨hsigns _ hs, h.isWordChar⟩
      exact List.forall_mem_cons.2 ⟨hletters _ he, hdigits⟩

/-! ## Texts of values -/

/-- Texts of entries are entries, with a comma between any two. -/
theorem derives_of_sequence {ι : Type} {text : ι → List Char → Prop} {part : Part}
    {entries : List ι}
    {cs : List Char} (he : ∀ i ∈ entries, ∀ cs, text i cs → Derives part cs)
    (h : Sequence text true entries cs) : IsGap cs ∨ Derives (.entries part) cs := by
  have hbehind : ∀ {entries : List ι} {before entry behind : List Char},
      (∀ i ∈ entries, ∀ cs, text i cs → Derives part cs) → IsGap before → Derives part entry →
      Sequence text false entries behind →
      Derives (.entries part) (before ++ (entry ++ behind)) := by
    intro entries
    induction entries with
    | nil => exact fun _ hb hv hg => .last hb hv hg
    | cons i rest ih =>
      rintro before entry _ he hb hv ⟨comma, next, behind, hc, hi, hr, rfl⟩
      have hnext := he i List.mem_cons_self next hi
      exact .more hb hv hc (ih (fun j hj => he j (List.mem_cons_of_mem i hj)) isGap_nil hnext hr)
  cases entries with
  | nil => exact .inl h
  | cons i rest =>
    obtain ⟨front, entry, behind, hf, hi, hr, rfl⟩ := h
    have hentry := he i List.mem_cons_self entry hi
    exact .inr (hbehind (fun j hj => he j (List.mem_cons_of_mem i hj)) hf hentry hr)

/-- A text of a value is in the grammar. -/
theorem derives_of_spells {v : Json} {cs : List Char} (hp : Plain v) (h : Spells v cs) :
    Derives .value cs := by
  induction v using nested_induction generalizing cs with
  | null =>
    cases h
    exact .null
  | bool b =>
    cases b <;> cases h
    · exact .false
    · exact .true
  | number n => exact hp.elim
  | string s =>
    obtain ⟨inner, hs, rfl⟩ := h
    exact .string (isQuotable_of_spellsChars hs)
  | array items ih =>
    obtain ⟨inner, hi, rfl⟩ := h
    have hitems : ∀ v ∈ items, ∀ cs, Spells v cs → Derives .value cs :=
      fun v hv cs hcs => ih v hv (plain_of_mem_items hp hv) hcs
    exact (derives_of_sequence hitems (sequence_of_spellsItems hi)).elim .emptyList .list
  | object members ih =>
    obtain ⟨inner, hi, rfl⟩ := h
    have hmembers : ∀ p ∈ members, ∀ cs, SpellsMember p cs → Derives .member cs := by
      rintro p hm _ ⟨_, colon, item, ⟨key, hk, rfl⟩, hc, hv, rfl⟩
      have hvalue := ih p hm (plain_of_mem_members hp.2 hm) hv
      have hmember := Derives.member (isQuotable_of_spellsChars hk) hc hvalue
      rwa [List.cons_append, List.append_assoc, List.singleton_append]
    exact (derives_of_sequence hmembers (sequence_of_spellsMembers hi)).elim .emptyObject .object

/-- A text of a plain value is a JSON text. -/
theorem isJson_of_isTextOf {v : Json} {text : List Char} (hp : Plain v) (h : IsTextOf v text) :
    IsJson text := by
  obtain ⟨before, cs, after, hb, hcs, ha, rfl⟩ := h
  exact ⟨before, cs, after, hb, derives_of_spells hp hcs, ha, rfl⟩

end SvgComponent.Json
