import SvgComponent.Json.Value
import SvgComponent.Proofs.Json.Quoting
import SvgComponent.Text.Blank

/-!
# Texts of values

`Spells` is the grammar of JSON : it says of a value which texts are texts of it, by recursion on
the value. A string may have any of its characters escaped, by a letter or by codes
(`SpellsChar`), and there may be gaps around every token (`IsGap`). Half of a surrogate pair
spells nothing.

A value is plain (`Plain`) if there are no numbers in it, and in no object a key twice. `depth`
is the number of containers around each other, of which there are no more than characters in a text
(`depth_le_length`).

The entries of lists and of objects are spelled alike (`Sequence`), so what depends on an entry only
through its text is shown once for both.
-/

namespace SvgComponent.Json

open Text

/-- What is true of a value if it is of those in it is true of every value. -/
@[elab_as_elim]
theorem nested_induction {motive : Json → Prop} (null : motive .null)
    (bool : ∀ b, motive (.bool b)) (number : ∀ n, motive (.number n))
    (string : ∀ s, motive (.string s))
    (array : ∀ items, (∀ value ∈ items, motive value) → motive (.array items))
    (object : ∀ members, (∀ p ∈ members, motive p.2) → motive (.object members)) (value : Json) :
    motive value :=
  match value with
  | .null => null
  | .bool b => bool b
  | .number n => number n
  | .string s => string s
  | .array items => array items fun v hv =>
    have := List.sizeOf_lt_of_mem hv
    nested_induction null bool number string array object v
  | .object members => object members fun p hp =>
    have := List.sizeOf_lt_of_mem hp
    have : sizeOf p.2 < sizeOf p := by
      cases p
      simp only [Prod.mk.sizeOf_spec]
      omega
    nested_induction null bool number string array object p.2
termination_by sizeOf value
decreasing_by all_goals simp; omega

/-! ## Strings -/

/-- What a character may be written as inside quotes. -/
inductive SpellsChar : Char → List Char → Prop
  | plain {c : Char} (hq : c ≠ '"') (hb : c ≠ '\\') (hc : ¬ c.toNat < 0x20) : SpellsChar c [c]
  | letter {c e : Char} (h : letterEscape? e = some c) : SpellsChar c ['\\', e]
  | code {n : Nat} {a b c d : Char} (h : hexCode? a b c d = some n) (hl : isLeading n = false)
    (ht : isTrailing n = false) : SpellsChar (Char.ofNat n) ['\\', 'u', a, b, c, d]
  | pair {m n : Nat} {a b c d a' b' c' d' : Char} (hm : hexCode? a b c d = some m)
    (hl : isLeading m = true) (hn : hexCode? a' b' c' d' = some n) (ht : isTrailing n = true) :
    SpellsChar (pairChar m n) ['\\', 'u', a, b, c, d, '\\', 'u', a', b', c', d']

/-- What characters may be written as inside quotes, one after the other. -/
inductive SpellsChars : List Char → List Char → Prop
  | nil : SpellsChars [] []
  | cons {c : Char} {cs form forms : List Char} (hc : SpellsChar c form)
    (hr : SpellsChars cs forms) : SpellsChars (c :: cs) (form ++ forms)

/-- A character may be escaped as it is when values are written. -/
theorem SpellsChar.escape (c : Char) : SpellsChar c (Json.escape c) := by
  unfold Json.escape
  split_ifs with h1 h2 h3 h4 h5 h6 h7 h8
  · exact .letter (by rw [h1]; rfl)
  · exact .letter (by rw [h2]; rfl)
  · exact .letter (by rw [h3]; rfl)
  · exact .letter (by rw [h4]; rfl)
  · exact .letter (by rw [h5]; rfl)
  · exact .letter (by rw [h6]; rfl)
  · exact .letter (by rw [h7]; rfl)
  · have hl : isLeading c.toNat = false := by simp [isLeading]; omega
    have ht : isTrailing c.toNat = false := by simp [isTrailing]; omega
    have hcode := SpellsChar.code (hexCode?_control h8) hl ht
    rwa [Char.ofNat_toNat] at hcode
  · exact .plain h1 h2 h8

/-- What a text is written as in quotes is one of its spellings. -/
theorem SpellsChars.escape (cs : List Char) : SpellsChars cs (cs.flatMap Json.escape) := by
  induction cs with
  | nil => exact .nil
  | cons c cs ih => exact .cons (.escape c) ih

/-- A text of a string. -/
def SpellsString (s : String) (cs : List Char) : Prop :=
  ∃ inner, SpellsChars s.toList inner ∧ cs = '"' :: (inner ++ ['"'])

/-! ## Values -/

/-- A text of nothing but gaps. -/
def IsGap (cs : List Char) : Prop :=
  ∀ c ∈ cs, isGap c = true

instance (cs : List Char) : Decidable (IsGap cs) :=
  List.decidableBAll (fun c => isGap c = true) cs

theorem isGap_nil : IsGap [] := by decide

/-- A mark with gaps around it. -/
def IsMark (mark : Char) (cs : List Char) : Prop :=
  ∃ before after, IsGap before ∧ IsGap after ∧ cs = before ++ mark :: after

theorem isMark_singleton (mark : Char) : IsMark mark [mark] :=
  ⟨[], [], isGap_nil, isGap_nil, rfl⟩

/-- What stands in front of an entry of a container : a gap, and a comma in it unless the entry
is the first. -/
def Separates (first : Bool) (cs : List Char) : Prop :=
  if first then IsGap cs else IsMark ',' cs

/-- The number that a text is a numeral of. -/
def number? (cs : List Char) : Option Number :=
  let read := match cs with
    | '-' :: digits => Numeral.read false 0 digits
    | digits => Numeral.read true 0 digits
  match read with
  | .ok (n, _, []) => some n
  | _ => none

mutual

/-- A text of a value, from its first token to its last. -/
def Spells : Json → List Char → Prop
  | .null, cs => cs = ['n', 'u', 'l', 'l']
  | .bool true, cs => cs = ['t', 'r', 'u', 'e']
  | .bool false, cs => cs = ['f', 'a', 'l', 's', 'e']
  | .number n, cs => number? cs = some n
  | .string s, cs => SpellsString s cs
  | .array items, cs => ∃ inner, SpellsItems true items inner ∧ cs = '[' :: (inner ++ [']'])
  | .object members, cs => ∃ inner, SpellsMembers true members inner ∧ cs = '{' :: (inner ++ ['}'])

/-- A text of the items of a list, up to its closing bracket. -/
def SpellsItems (first : Bool) : List Json → List Char → Prop
  | [], cs => IsGap cs
  | value :: rest, cs => ∃ front item behind, Separates first front ∧ Spells value item ∧
      SpellsItems false rest behind ∧ cs = front ++ (item ++ behind)

/-- A text of the members of an object, up to its closing brace. -/
def SpellsMembers (first : Bool) : List (String × Json) → List Char → Prop
  | [], cs => IsGap cs
  | (key, value) :: rest, cs => ∃ front name colon item behind, Separates first front ∧
      SpellsString key name ∧ IsMark ':' colon ∧ Spells value item ∧
      SpellsMembers false rest behind ∧ cs = front ++ (name ++ (colon ++ (item ++ behind)))

end

/-- A text of a value, with gaps around it. -/
def IsTextOf (value : Json) (text : List Char) : Prop :=
  ∃ before cs after, IsGap before ∧ Spells value cs ∧ IsGap after ∧ text = before ++ (cs ++ after)

/-! ## Plain values -/

mutual

/-- A value without numbers, in which no object has a key twice. -/
def Plain : Json → Prop
  | .number _ => False
  | .array items => PlainItems items
  | .object members => (members.map Prod.fst).Nodup ∧ PlainMembers members
  | _ => True

def PlainItems : List Json → Prop
  | [] => True
  | value :: rest => Plain value ∧ PlainItems rest

def PlainMembers : List (String × Json) → Prop
  | [] => True
  | (_, value) :: rest => Plain value ∧ PlainMembers rest

end

mutual

/-- How many containers there are around each other in a value. -/
def depth : Json → Nat
  | .array items => depthItems items + 1
  | .object members => depthMembers members + 1
  | _ => 0

def depthItems : List Json → Nat
  | [] => 0
  | value :: rest => max (depth value) (depthItems rest)

def depthMembers : List (String × Json) → Nat
  | [] => 0
  | (_, value) :: rest => max (depth value) (depthMembers rest)

end

/-- The items of a plain list are plain. -/
theorem plain_of_mem_items {items : List Json} {value : Json} (h : PlainItems items)
    (hm : value ∈ items) : Plain value := by
  induction items with
  | nil => cases hm
  | cons first rest ih =>
    obtain rfl | hm := List.mem_cons.1 hm
    · exact h.1
    · exact ih h.2 hm

/-- The members of a plain object are plain. -/
theorem plain_of_mem_members {members : List (String × Json)} {p : String × Json}
    (h : PlainMembers members) (hm : p ∈ members) : Plain p.2 := by
  induction members with
  | nil => cases hm
  | cons first rest ih =>
    obtain rfl | hm := List.mem_cons.1 hm
    · exact h.1
    · exact ih h.2 hm

/-- No item is deeper than the list. -/
theorem depth_le_of_mem_items {items : List Json} {value : Json} (hm : value ∈ items) :
    depth value ≤ depthItems items := by
  induction items with
  | nil => cases hm
  | cons first rest ih =>
    obtain rfl | hm := List.mem_cons.1 hm
    · exact Nat.le_max_left _ _
    · exact Nat.le_trans (ih hm) (Nat.le_max_right _ _)

/-- No member is deeper than the object. -/
theorem depth_le_of_mem_members {members : List (String × Json)} {p : String × Json}
    (hm : p ∈ members) : depth p.2 ≤ depthMembers members := by
  induction members with
  | nil => cases hm
  | cons first rest ih =>
    obtain rfl | hm := List.mem_cons.1 hm
    · exact Nat.le_max_left _ _
    · exact Nat.le_trans (ih hm) (Nat.le_max_right _ _)

/-! ## Shapes of texts -/

/-- The character that the texts of a value start with, unless it is a number. -/
def start? : Json → Option Char
  | .null => some 'n'
  | .bool true => some 't'
  | .bool false => some 'f'
  | .number _ => none
  | .string _ => some '"'
  | .array _ => some '['
  | .object _ => some '{'

/-- A text of a plain value starts with the character of its kind. -/
theorem exists_cons_of_spells {value : Json} {cs : List Char} (hp : Plain value)
    (h : Spells value cs) : ∃ c rest, cs = c :: rest ∧ start? value = some c := by
  cases value with
  | null => exact ⟨_, _, h, rfl⟩
  | bool b => cases b <;> exact ⟨_, _, h, rfl⟩
  | number n => exact hp.elim
  | string s =>
    obtain ⟨inner, -, rfl⟩ := h
    exact ⟨_, _, rfl, rfl⟩
  | array items =>
    obtain ⟨inner, -, rfl⟩ := h
    exact ⟨_, _, rfl, rfl⟩
  | object members =>
    obtain ⟨inner, -, rfl⟩ := h
    exact ⟨_, _, rfl, rfl⟩

theorem isGap_of_start? {value : Json} {c : Char} (h : start? value = some c) :
    isGap c = false := by
  cases value with
  | bool b => cases b <;> cases h <;> decide
  | _ => cases h <;> decide

theorem ne_bracket_of_start? {value : Json} {c : Char} (h : start? value = some c) : c ≠ ']' := by
  rintro rfl
  cases value with
  | bool b => cases b <;> cases h
  | _ => cases h

/-- Only null starts like null. -/
theorem ne_n_of_start? {value : Json} {c : Char} (h : start? value = some c)
    (hn : value ≠ .null) : c ≠ 'n' := by
  rintro rfl
  cases value with
  | null => exact hn rfl
  | bool b => cases b <;> cases h
  | _ => cases h

/-! ## Entries of containers -/

/-- Entries with gaps around them and commas between them, up to the closing mark. -/
def Sequence {ι : Type} (text : ι → List Char → Prop) (first : Bool) : List ι → List Char → Prop
  | [], cs => IsGap cs
  | i :: rest, cs => ∃ front entry behind, Separates first front ∧ text i entry ∧
      Sequence text false rest behind ∧ cs = front ++ (entry ++ behind)

/-- A text of a member of an object. -/
def SpellsMember (p : String × Json) (cs : List Char) : Prop :=
  ∃ name colon item, SpellsString p.1 name ∧ IsMark ':' colon ∧ Spells p.2 item ∧
    cs = name ++ (colon ++ item)

/-- Items are entries of a container. -/
theorem sequence_of_spellsItems {first : Bool} {items : List Json} {cs : List Char}
    (h : SpellsItems first items cs) : Sequence Spells first items cs := by
  induction items generalizing first cs with
  | nil => exact h
  | cons v rest ih =>
    obtain ⟨front, item, behind, hf, hi, hr, rfl⟩ := h
    exact ⟨front, item, behind, hf, hi, ih hr, rfl⟩

/-- Members are entries of a container. -/
theorem sequence_of_spellsMembers {first : Bool} {members : List (String × Json)}
    {cs : List Char} (h : SpellsMembers first members cs) :
    Sequence SpellsMember first members cs := by
  induction members generalizing first cs with
  | nil => exact h
  | cons p rest ih =>
    obtain ⟨front, name, colon, item, behind, hf, hk, hc, hi, hr, rfl⟩ := h
    exact ⟨front, _, behind, hf, ⟨name, colon, item, hk, hc, hi, rfl⟩, ih hr, by simp⟩

/-- There are no more entries than characters. -/
theorem length_le_of_sequence {ι : Type} {text : ι → List Char → Prop} {first : Bool}
    {entries : List ι} {cs : List Char} (h : Sequence text first entries cs)
    (hne : ∀ i ∈ entries, ∀ cs, text i cs → cs ≠ []) : entries.length ≤ cs.length := by
  induction entries generalizing first cs with
  | nil => exact Nat.zero_le _
  | cons i rest ih =>
    obtain ⟨front, entry, behind, -, he, hr, rfl⟩ := h
    have hentry := List.length_pos_of_ne_nil (hne i List.mem_cons_self entry he)
    have hrest := ih hr fun j hj => hne j (List.mem_cons_of_mem i hj)
    simp only [List.length_cons, List.length_append]
    omega

/-- There are no more items than characters. -/
theorem length_le_of_spellsItems {first : Bool} {items : List Json} {cs : List Char}
    (hp : PlainItems items) (h : SpellsItems first items cs) : items.length ≤ cs.length := by
  refine length_le_of_sequence (sequence_of_spellsItems h) fun v hv cs hcs => ?_
  obtain ⟨c, tail, rfl, -⟩ := exists_cons_of_spells (plain_of_mem_items hp hv) hcs
  exact List.cons_ne_nil c tail

theorem length_le_of_spellsMembers {first : Bool} {members : List (String × Json)}
    {cs : List Char} (h : SpellsMembers first members cs) : members.length ≤ cs.length := by
  refine length_le_of_sequence (sequence_of_spellsMembers h) fun p _ cs hcs => ?_
  obtain ⟨_, colon, item, ⟨inner, -, rfl⟩, -, -, rfl⟩ := hcs
  exact List.cons_ne_nil _ _

/-- A list is no deeper than its text is long. -/
theorem depthItems_le_length {first : Bool} {items : List Json} {cs : List Char}
    (hv : ∀ v ∈ items, ∀ cs, Spells v cs → depth v ≤ cs.length)
    (h : SpellsItems first items cs) : depthItems items ≤ cs.length := by
  induction items generalizing first cs with
  | nil => exact Nat.zero_le _
  | cons v rest ih =>
    obtain ⟨front, item, behind, -, hi, hr, rfl⟩ := h
    have hfirst := hv v List.mem_cons_self item hi
    have hrest := ih (fun w hw => hv w (List.mem_cons_of_mem v hw)) hr
    simp only [depthItems, List.length_append]
    omega

/-- An object is no deeper than its text is long. -/
theorem depthMembers_le_length {first : Bool} {members : List (String × Json)} {cs : List Char}
    (hv : ∀ p ∈ members, ∀ cs, Spells p.2 cs → depth p.2 ≤ cs.length)
    (h : SpellsMembers first members cs) : depthMembers members ≤ cs.length := by
  induction members generalizing first cs with
  | nil => exact Nat.zero_le _
  | cons p rest ih =>
    obtain ⟨front, name, colon, item, behind, -, -, -, hi, hr, rfl⟩ := h
    have hfirst := hv p List.mem_cons_self item hi
    have hrest := ih (fun q hq => hv q (List.mem_cons_of_mem p hq)) hr
    simp only [depthMembers, List.length_append]
    omega

/-- Every container has a mark of its own. -/
theorem depth_le_length {v : Json} {cs : List Char} (h : Spells v cs) : depth v ≤ cs.length := by
  induction v using nested_induction generalizing cs with
  | null => exact Nat.zero_le _
  | bool b => exact Nat.zero_le _
  | number n => exact Nat.zero_le _
  | string s => exact Nat.zero_le _
  | array items ih =>
    obtain ⟨inner, hi, rfl⟩ := h
    have hinner := depthItems_le_length (fun v hv cs hcs => ih v hv hcs) hi
    simp only [depth, List.length_cons, List.length_append]
    omega
  | object members ih =>
    obtain ⟨inner, hi, rfl⟩ := h
    have hinner := depthMembers_le_length (fun p hm cs hcs => ih p hm hcs) hi
    simp only [depth, List.length_cons, List.length_append]
    omega

end SvgComponent.Json
