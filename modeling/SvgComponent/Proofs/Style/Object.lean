import SvgComponent.Proofs.Json.Values
import SvgComponent.Proofs.Pairs.Repeated
import SvgComponent.Style

/-!
# Style objects as written

The object of a style text is written as a JSON object in braces, with its keys and values quoted
(`spells_object`). Read as JSON, it gives the declarations under their keys : each key once, in the
place of its first declaration and with the value of its last one (`read_expression`), whatever
characters the names and values are made of.
-/

namespace SvgComponent.Style

open Json

/-- The declarations of a style text under their keys. -/
def keyedPairs (css : List Char) : List (String × String) :=
  (Css.declarations css).map fun d => (String.ofList (keyOf d.name), String.ofList d.value)

/-- The pairs of keys and values as the members of a JSON object. -/
def members (pairs : List (String × String)) : List (String × Json) :=
  pairs.map fun p => (p.1, .string p.2)

/-! ## The text of an object -/

variable {pairs : List (String × String)}

theorem separated_cons (separator text : List Char) (texts : List (List Char)) :
    separated separator (text :: texts) = text ++ texts.flatMap (separator ++ ·) := by
  induction texts generalizing text with
  | nil => rw [List.flatMap_nil, List.append_nil, separated]
  | cons next texts ih =>
    rw [separated, ih, List.flatMap_cons, List.append_assoc, List.append_assoc]
    exact List.cons_ne_nil next texts

theorem spellsString_quote (s : String) : SpellsString s (quote s.toList) :=
  ⟨_, .escape s.toList, rfl⟩

/-- An entry spells a member, with nothing or a comma in front. -/
theorem spellsMembers_entry {first : Bool} {front behind : List Char} {p : String × String}
    (hf : Separates first front) (hb : SpellsMembers false (members pairs) behind) :
    SpellsMembers first (members (p :: pairs)) (front ++ (entry p.1 p.2 ++ behind)) := by
  refine ⟨front, quote p.1.toList, [':'], quote p.2.toList, behind, hf, spellsString_quote p.1,
    isMark_singleton ':', spellsString_quote p.2, hb, ?_⟩
  rw [entry, List.append_assoc, List.cons_append, List.singleton_append]

/-- The entries of an object spell its members. -/
theorem spellsMembers_flatMap (pairs : List (String × String)) :
    SpellsMembers false (members pairs)
      ((pairs.map fun p => entry p.1 p.2).flatMap ([','] ++ ·)) := by
  induction pairs with
  | nil => exact isGap_nil
  | cons p pairs ih =>
    rw [List.map_cons, List.flatMap_cons, List.append_assoc]
    exact spellsMembers_entry (isMark_singleton ',') ih

/-- Entries with commas between them, in braces, are a text of the object of their pairs. -/
theorem spells_object (pairs : List (String × String)) :
    Spells (.object (members pairs))
      ('{' :: (separated [','] (pairs.map fun p => entry p.1 p.2) ++ ['}'])) := by
  refine ⟨_, ?_, rfl⟩
  cases pairs with
  | nil => exact isGap_nil
  | cons p pairs =>
    have hfront : Separates true [] := isGap_nil
    rw [List.map_cons, separated_cons]
    exact spellsMembers_entry hfront (spellsMembers_flatMap pairs)

/-! ## Objects read back -/

theorem map_fst_members (pairs : List (String × String)) :
    (members pairs).map Prod.fst = pairs.map Prod.fst := by
  rw [members, List.map_map]
  rfl

/-- The members of an object are strings. -/
theorem plainMembers_members (pairs : List (String × String)) :
    PlainMembers (members pairs) := by
  induction pairs with
  | nil => exact trivial
  | cons p pairs ih => exact ⟨trivial, ih⟩

theorem depthMembers_members (pairs : List (String × String)) :
    depthMembers (members pairs) = 0 := by
  induction pairs with
  | nil => rfl
  | cons p pairs ih => exact (Nat.max_eq_right (Nat.zero_le _)).trans ih

/-- A text of an object of strings is read as that object, if each key is there once. -/
theorem read_members {text : List Char} (hn : (pairs.map Prod.fst).Nodup)
    (h : Spells (.object (members pairs)) text) :
    Json.read (Reader.value Reader.maxDepth) text = .ok (.object (members pairs)) := by
  have hp : Plain (.object (members pairs)) :=
    ⟨by rwa [map_fst_members], plainMembers_members pairs⟩
  have hd : depth (.object (members pairs)) ≤ Reader.maxDepth := by
    rw [depth, depthMembers_members]
    decide
  have hread : Yields text.length (Reader.value Reader.maxDepth) ([] ++ (text ++ []))
      (.ok (.object (members pairs))) [] :=
    yields_value _ hp hd h isGap_nil (by rw [List.append_nil])
  rw [List.nil_append, List.append_nil] at hread
  have htext := toOption_read hread isGap_nil
  cases hr : Json.read (Reader.value Reader.maxDepth) text with
  | error fault => simp [hr, Except.toOption] at htext
  | ok value =>
    simp only [hr, Except.toOption, Option.some_inj] at htext
    rw [htext]

/-- The expression of a style text is a JSON object in braces, which is read as the declarations
under their keys, of a repeated key the first place and the last value. -/
theorem read_expression (css : List Char) :
    ∃ text, expression css = '{' :: (text ++ ['}']) ∧
      Json.read (Reader.value Reader.maxDepth) text =
        .ok (.object ((object css).entries.map fun p => (p.1, .string p.2))) ∧
      ((object css).entries.map Prod.fst).Nodup ∧
      (object css).entries.map Prod.fst = ((keyedPairs css).map Prod.fst).eraseDups ∧
      ∀ p, p ∈ (object css).entries ↔ IsLast (keyedPairs css) p := by
  refine ⟨_, ?_, read_members (object css).nodup (spells_object _), (object css).nodup, ?_,
    fun p => ?_⟩
  · simp [expression]
  · exact OrderedMap.keys_ofPairs (keyedPairs css)
  · exact OrderedMap.mem_entries_ofPairs_iff

example : expression "Fill:'\"';stroke-width:1;fill:#000".toList =
    "\x7b\x7b\"fill\":\"#000\",\"strokeWidth\":\"1\"\x7d\x7d".toList := by decide +kernel

end SvgComponent.Style
