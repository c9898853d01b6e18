import SvgComponent.Jsx.Props
import SvgComponent.Markup.Reference
import SvgComponent.Proofs.Script.Quoting
import SvgComponent.Proofs.Text.Runs

/-!
# What a literal denotes

JSX reads the value behind a name in two ways. A string in quotes has no escapes, but the
character references in it are replaced; an expression in braces is a string literal of a
script. `denoted?` reads both. Which names there are is a table of the reader (`named`), so it
is left open.

The form of a literal is chosen by its escapes alone :

* `denoted?_quoted` : a string in quotes denotes what its references expand to;
* `denoted?_expression` : a string in braces denotes its text;
* `denoted?_literal_iff` : a literal denotes its value unless the value stands in quotes as it
  is and holds a reference.

Strings are written as literals only (`mem_compose_of_hasString`), which `strings_denoted_iff`
puts together with this.
-/

namespace SvgComponent.Jsx

open Text

/-! ## References -/

section References

variable (named : List Char → Option Char)

/-- The code of a number, if it is that of a character. -/
def numericCode? (base : Nat) (digits : List Char) : Option Nat :=
  let code := Script.numberOf base digits
  if digits ≠ [] ∧ digits.all (fun c => (Json.hexValue? c).any (· < base)) ∧ code ≤ 0x10FFFF then
    some code
  else none

/-- The code that the text between `&` and `;` stands for. -/
def codeOf? : List Char → Option Nat
  | '#' :: 'x' :: digits => numericCode? 16 digits
  | '#' :: 'X' :: digits => numericCode? 16 digits
  | '#' :: digits => numericCode? 10 digits
  | name => (named name).map Char.toNat

/-- Reads a reference behind its `&`. -/
def reference? (cs : List Char) : Option (Nat × List Char) :=
  match cs.dropWhile (!Markup.Reference.isNameEnd ·) with
  | ';' :: rest =>
    (codeOf? named (cs.takeWhile (!Markup.Reference.isNameEnd ·))).map fun code => (code, rest)
  | _ => none

/-- A reference stands here, behind its `&` : its name, the code it stands for and the text
behind it. -/
def Refers (cs : List Char) (code : Nat) (rest : List Char) : Prop :=
  ∃ name, cs = name ++ ';' :: rest ∧ (∀ c ∈ name, Markup.Reference.isNameEnd c = false) ∧
    codeOf? named name = some code

/-- Somewhere in the text stands a reference. -/
def HoldsReference (cs : List Char) : Prop :=
  ∃ before after code rest, cs = before ++ '&' :: after ∧ Refers named after code rest

variable {named}

/-- What is read as a reference is one. -/
theorem reference?_eq_some_iff {cs rest : List Char} {code : Nat} :
    reference? named cs = some (code, rest) ↔ Refers named cs code rest := by
  constructor
  · intro h
    rw [reference?] at h
    split at h
    · rename_i behind hd
      obtain ⟨code', hc, he⟩ := Option.map_eq_some_iff.1 h
      cases he
      refine ⟨cs.takeWhile (!Markup.Reference.isNameEnd ·), ?_, fun c hc => ?_, hc⟩
      · rw [← hd, List.takeWhile_append_dropWhile]
      · simpa using List.mem_takeWhile_imp hc
    · cases h
  · rintro ⟨name, rfl, hn, hc⟩
    have hname : ∀ c ∈ name, (!Markup.Reference.isNameEnd c) = true := by simpa using hn
    have hend : ∀ c ∈ (';' :: rest).head?, (!Markup.Reference.isNameEnd c) = false := by
      simp [Markup.Reference.isNameEnd]
    rw [reference?, dropWhile_run hname hend, takeWhile_run hname hend]
    simp only [hc, Option.map_some]

theorem length_of_reference? {cs rest : List Char} {code : Nat}
    (h : reference? named cs = some (code, rest)) : rest.length < cs.length := by
  obtain ⟨name, rfl, -⟩ := reference?_eq_some_iff.1 h
  rw [List.length_append, List.length_cons]
  omega

variable (named)

/-- The codes of a text, its references replaced by what they stand for. -/
def expandReferences : List Char → List Nat
  | [] => []
  | c :: cs =>
    if c = '&' then
      match _h : reference? named cs with
      | some (code, rest) => code :: expandReferences rest
      | none => c.toNat :: expandReferences cs
    else c.toNat :: expandReferences cs
termination_by cs => cs.length
decreasing_by
  · exact Nat.lt_succ_of_lt (length_of_reference? _h)
  · exact Nat.lt_succ_self _
  · exact Nat.lt_succ_self _

variable {named}

/-- A character that starts no reference stands for itself. -/
theorem expandReferences_cons {c : Char} {cs : List Char}
    (h : c = '&' → reference? named cs = none) :
    expandReferences named (c :: cs) = c.toNat :: expandReferences named cs := by
  rw [expandReferences]
  split_ifs with hc
  · split
    · rename_i hr
      rw [h hc] at hr
      cases hr
    · rfl
  · rfl

/-- A reference stands for its character. -/
theorem expandReferences_reference {cs rest : List Char} {code : Nat}
    (h : reference? named cs = some (code, rest)) :
    expandReferences named ('&' :: cs) = code :: expandReferences named rest := by
  rw [expandReferences, if_pos rfl]
  split
  · rename_i hr
    rw [h] at hr
    cases hr
    rfl
  · rename_i hr
    rw [h] at hr
    cases hr

/-- A text holds a reference if one starts in front or is further behind. -/
theorem holdsReference_cons {c : Char} {cs : List Char} :
    HoldsReference named (c :: cs) ↔
      (c = '&' ∧ ∃ code rest, Refers named cs code rest) ∨ HoldsReference named cs := by
  constructor
  · rintro ⟨before, after, code, rest, he, hr⟩
    cases before with
    | nil =>
      cases he
      exact .inl ⟨rfl, code, rest, hr⟩
    | cons b before =>
      cases he
      exact .inr ⟨before, after, code, rest, rfl, hr⟩
  · rintro (⟨rfl, code, rest, hr⟩ | ⟨before, after, code, rest, rfl, hr⟩)
    · exact ⟨[], cs, code, rest, rfl, hr⟩
    · exact ⟨c :: before, after, code, rest, rfl, hr⟩

/-- A text without references keeps its characters. -/
theorem expandReferences_of_not {cs : List Char} (h : ¬ HoldsReference named cs) :
    expandReferences named cs = cs.map Char.toNat := by
  induction cs with
  | nil => rw [expandReferences, List.map_nil]
  | cons c cs ih =>
    rw [holdsReference_cons, not_or] at h
    rw [expandReferences_cons fun hc => ?_, ih h.2, List.map_cons]
    rw [Option.eq_none_iff_forall_ne_some]
    intro p hr
    exact h.1 ⟨hc, p.1, p.2, reference?_eq_some_iff.1 hr⟩

/-- No reference stands for more than it is. -/
theorem length_expandReferences_le (cs : List Char) :
    (expandReferences named cs).length ≤ cs.length := by
  fun_induction expandReferences named cs with
  | case1 => exact Nat.le_refl _
  | case2 cs code rest hr ih =>
    have := length_of_reference? hr
    simp only [List.length_cons]
    omega
  | case3 cs hr ih => exact Nat.succ_le_succ ih
  | case4 c cs hc ih => exact Nat.succ_le_succ ih

/-- A reference is longer than what it stands for. -/
theorem length_expandReferences_lt {cs : List Char} (h : HoldsReference named cs) :
    (expandReferences named cs).length < cs.length := by
  induction cs with
  | nil =>
    obtain ⟨before, after, _, _, he, -⟩ := h
    simp at he
  | cons c cs ih =>
    by_cases hc : c = '&' → reference? named cs = none
    · rw [expandReferences_cons hc]
      obtain ⟨hamp, code, rest, hr⟩ | hcs := holdsReference_cons.1 h
      · rw [← reference?_eq_some_iff, hc hamp] at hr
        cases hr
      · exact Nat.succ_lt_succ (ih hcs)
    · obtain ⟨rfl, hr⟩ := Classical.not_imp.1 hc
      obtain ⟨⟨code, rest⟩, hr⟩ := Option.ne_none_iff_exists'.1 hr
      have hlt := length_of_reference? hr
      have hle := @length_expandReferences_le named rest
      rw [expandReferences_reference hr, List.length_cons, List.length_cons]
      omega

/-- The characters of a text come back from its expansion exactly if it holds no reference. -/
theorem textOfCodes?_expandReferences_iff {cs : List Char} :
    Script.textOfCodes? (expandReferences named cs) = some cs ↔ ¬ HoldsReference named cs := by
  constructor
  · intro h hr
    have := Script.length_le_of_textOfCodes? h
    have := length_expandReferences_lt hr
    omega
  · intro h
    rw [expandReferences_of_not h, Script.textOfCodes?_toNat]

end References

/-! ## Values -/

section Values

variable (named : List Char → Option Char)

/-- The string that is denoted behind a name, and the text behind it. -/
def denoted? : List Char → Option (String × List Char)
  | '=' :: '"' :: cs => do
    let (content, rest) ← cutAt? ['"'] cs
    let text ← Script.textOfCodes? (expandReferences named content)
    return (String.ofList text, rest)
  | '=' :: '{' :: '"' :: cs =>
    match Script.scanString '"' cs with
    | (.string (some text), '}' :: rest) => some (text, rest)
    | _ => none
  | _ => none

/-- Between quotes references are expanded. -/
theorem denoted?_quoted {cs : List Char} (h : Json.isPlain cs = true) (rest : List Char) :
    denoted? named ('=' :: (Json.quote cs ++ rest)) =
      (Script.textOfCodes? (expandReferences named cs)).map fun text =>
        (String.ofList text, rest) := by
  rw [Json.quote, Json.flatMap_escape_of_isPlain h]
  simp only [List.cons_append, List.append_assoc, List.nil_append, denoted?,
    Json.cutAt?_of_isPlain h, Option.bind_eq_bind, Option.bind_some]
  cases Script.textOfCodes? (expandReferences named cs) <;> rfl

/-- In braces a string stands for what has been quoted. -/
theorem denoted?_expression (cs rest : List Char) :
    denoted? named ('=' :: '{' :: (Json.quote cs ++ '}' :: rest)) =
      some (String.ofList cs, rest) := by
  have h := Script.scanString_quote cs ('}' :: rest)
  rw [Json.quote, List.cons_append, List.cons_append, List.append_assoc, List.singleton_append,
    denoted?]
  simp only [h]

/-- A literal denotes its value, whatever follows, unless it is written in quotes and its value
holds a reference. -/
theorem denoted?_literal_iff (value : String) (rest : List Char) :
    denoted? named ((Emission.literal value).text.toList ++ rest) = some (value, rest) ↔
      ¬ (Json.isPlain value.toList = true ∧ HoldsReference named value.toList) := by
  rw [Emission.literal]
  split_ifs with hp
  · rw [and_iff_right hp, ← textOfCodes?_expandReferences_iff]
    have ht : (Emission.quoted (String.ofList (Json.quote value.toList))).text.toList ++ rest =
        '=' :: (Json.quote value.toList ++ rest) := by
      simp [Emission.text]
    rw [ht, denoted?_quoted named hp]
    cases Script.textOfCodes? (expandReferences named value.toList) with
    | none => simp
    | some text =>
      rw [Option.map_some, Option.some_inj, Option.some_inj, Prod.mk.injEq, and_iff_left rfl]
      exact ⟨fun h => by rw [← h, String.toList_ofList], fun h => by rw [h, String.ofList_toList]⟩
  · have ht : (Emission.expression
        (String.ofList ('{' :: Json.quote value.toList ++ ['}']))).text.toList ++ rest =
          '=' :: '{' :: (Json.quote value.toList ++ '}' :: rest) := by
      simp [Emission.text]
    rw [ht, denoted?_expression, String.ofList_toList]
    exact iff_of_true rfl fun h => hp h.1

end Values

/-! ## Attribute lists -/

/-- Whether a name is to have a string as its value : by an override that is no expression, or
by an attribute that is no style and has no override. -/
def HasString (attributes : Attributes) (overrides : Option Overrides) (name value : String) :
    Prop :=
  ((name, some value) ∈ (overrides.getD .empty).entries ∧ value.toList.head? ≠ some '{') ∨
    (name ∉ (overrides.getD .empty).keys ∧ name ≠ "style" ∧ (name, value) ∈ attributes.entries)

theorem mem_moveToEnd {props : Props} {name : String} {value : Emission} {p : String × Emission} :
    p ∈ props.moveToEnd name value ↔ (p.1 ≠ name ∧ p ∈ props) ∨ p = (name, value) := by
  rw [Props.moveToEnd, List.mem_append, List.mem_filter, List.mem_singleton, decide_eq_true_iff,
    and_comm]

/-- Entries moved to the end are there at last, and the others are as before. -/
theorem mem_foldl_moveToEnd {ps : List (String × Option String)} (h : (ps.map Prod.fst).Nodup)
    (props : Props) (p : String × Emission) :
    p ∈ ps.foldl (fun props p => props.moveToEnd p.1 (.ofOverride p.2)) props ↔
      (p.1 ∉ ps.map Prod.fst ∧ p ∈ props) ∨
        ∃ value, (p.1, value) ∈ ps ∧ p.2 = Emission.ofOverride value := by
  induction ps generalizing props with
  | nil => simp
  | cons q ps ih =>
    rw [List.map_cons, List.nodup_cons] at h
    rw [List.foldl_cons, ih h.2, mem_moveToEnd, List.map_cons, List.mem_cons, not_or]
    constructor
    · rintro (⟨hn, ⟨hne, hm⟩ | rfl⟩ | ⟨value, hv, he⟩)
      · exact .inl ⟨⟨hne, hn⟩, hm⟩
      · exact .inr ⟨q.2, List.mem_cons_self, rfl⟩
      · exact .inr ⟨value, List.mem_cons_of_mem q hv, he⟩
    · rintro (⟨⟨hne, hn⟩, hm⟩ | ⟨value, hv, he⟩)
      · exact .inl ⟨hn, .inl ⟨hne, hm⟩⟩
      · rcases List.mem_cons.1 hv with rfl | hv
        · exact .inl ⟨h.1, .inr (Prod.ext rfl he)⟩
        · exact .inr ⟨value, hv, he⟩

/-- A string is written as a literal, in the list of the element. -/
theorem mem_compose_of_hasString {attributes : Attributes} {overrides : Option Overrides}
    {name value : String} (h : HasString attributes overrides name value) :
    (name, Emission.literal value) ∈ Props.compose attributes overrides := by
  rw [Props.compose, mem_foldl_moveToEnd (overrides.getD .empty).nodup]
  obtain ⟨hm, hv⟩ | ⟨hn, hs, hm⟩ := h
  · exact .inr ⟨some value, hm, by rw [Emission.ofOverride, if_neg hv]⟩
  · refine .inl ⟨hn, List.mem_map.2 ⟨(name, value), hm, ?_⟩⟩
    rw [Emission.ofAttribute, if_neg hs]

/-- A literal denotes its value exactly if references cannot change it, and literals are all
that is written for strings. -/
theorem strings_denoted_iff (named : List Char → Option Char) (value : String) :
    (∀ rest, denoted? named ((Emission.literal value).text.toList ++ rest) = some (value, rest) ↔
      ¬ (Json.isPlain value.toList = true ∧ HoldsReference named value.toList)) ∧
    ∀ (attributes : Attributes) (overrides : Option Overrides) (name : String),
      HasString attributes overrides name value →
        (name, Emission.literal value) ∈ Props.compose attributes overrides :=
  ⟨denoted?_literal_iff named value, fun _ _ _ => mem_compose_of_hasString⟩

/-- A reference has no character that is escaped, so it stands in quotes and is replaced. -/
theorem not_forall_denoted?_literal :
    ¬ ∀ value : String,
      denoted? Markup.Reference.named? (Emission.literal value).text.toList = some (value, []) := by
  intro h
  have hd : denoted? Markup.Reference.named? (Emission.literal "&amp;").text.toList =
      some ("&", []) := by
    with_unfolding_all rfl
  have := hd.symm.trans (h "&amp;")
  revert this
  decide

end SvgComponent.Jsx
