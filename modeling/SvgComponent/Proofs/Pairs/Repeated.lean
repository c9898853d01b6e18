import Mathlib.Data.List.Dedup
import Mathlib.Data.List.Induction
import SvgComponent.OrderedMap

/-!
# Repeated keys

Of several pairs with one key the last one counts (`IsLast`). A map that is written to pair by pair
lists its keys by their first pairs (`keys_ofPairs`) and has the values of the last ones
(`mem_entries_ofPairs_iff`). Where every pair is moved behind the others, the last pairs are what is
left, in their own order (`lastPairs`, `keys_lastPairs`, `mem_lastPairs_iff`).
-/

namespace SvgComponent

/-- An entry at the end is new or was there already. -/
theorem eraseDups_concat {α : Type} [BEq α] [LawfulBEq α] (l : List α) (a : α) :
    (l ++ [a]).eraseDups = if a ∈ l then l.eraseDups else l.eraseDups ++ [a] := by
  rw [List.eraseDups_append, List.removeAll]
  split_ifs with hm
  · rw [List.filter_cons_of_neg (by simpa using hm)]
    exact List.append_nil _
  · rw [List.filter_cons_of_pos (by simpa using hm)]
    rfl

variable {κ α : Type}

/-- A pair of a list behind which its key does not come again. -/
def IsLast (pairs : List (κ × α)) (p : κ × α) : Prop :=
  ∃ before after, pairs = before ++ p :: after ∧ p.1 ∉ after.map Prod.fst

/-- The last pair of a key is the first one only if the key does not come again. -/
theorem isLast_cons_iff {pairs : List (κ × α)} {p q : κ × α} :
    IsLast (q :: pairs) p ↔ p = q ∧ q.1 ∉ pairs.map Prod.fst ∨ IsLast pairs p := by
  constructor
  · rintro ⟨before, after, he, hn⟩
    cases before with
    | nil =>
      obtain ⟨rfl, rfl⟩ := List.cons_eq_cons.1 he
      exact .inl ⟨rfl, hn⟩
    | cons r before =>
      obtain ⟨rfl, rfl⟩ := List.cons_eq_cons.1 he
      exact .inr ⟨before, after, rfl, hn⟩
  · rintro (⟨rfl, hn⟩ | ⟨before, after, rfl, hn⟩)
    · exact ⟨[], pairs, rfl, hn⟩
    · exact ⟨q :: before, after, rfl, hn⟩

/-- A pair at the end is the last one of its key. -/
theorem isLast_concat_iff {pairs : List (κ × α)} {p q : κ × α} :
    IsLast (pairs ++ [q]) p ↔ p = q ∨ p.1 ≠ q.1 ∧ IsLast pairs p := by
  induction pairs with
  | nil => simp [IsLast, List.cons_eq_append_iff]
  | cons r pairs ih =>
    rw [List.cons_append, isLast_cons_iff, isLast_cons_iff, ih, List.map_append, List.mem_append,
      not_or, List.map_singleton, List.mem_singleton]
    constructor
    · rintro (⟨rfl, hn, hne⟩ | rfl | ⟨hne, h⟩)
      · exact .inr ⟨hne, .inl ⟨rfl, hn⟩⟩
      · exact .inl rfl
      · exact .inr ⟨hne, .inr h⟩
    · rintro (rfl | ⟨hne, ⟨rfl, hn⟩ | h⟩)
      · exact .inr (.inl rfl)
      · exact .inl ⟨rfl, hn, hne⟩
      · exact .inr (.inr ⟨hne, h⟩)

section

variable [DecidableEq κ]

/-! ## Pairs written to a map -/

namespace OrderedMap

theorem ofPairs_concat (pairs : List (κ × α)) (p : κ × α) :
    ofPairs (pairs ++ [p]) = (ofPairs pairs).insert p.1 p.2 := by
  rw [ofPairs, insertAll, List.foldl_append]
  rfl

/-- Each key of the pairs is there once, in the place of the first pair that has it. -/
theorem keys_ofPairs (pairs : List (κ × α)) :
    (ofPairs pairs).keys = (pairs.map Prod.fst).eraseDups := by
  induction pairs using List.reverseRecOn with
  | nil => rfl
  | append_singleton pairs p ih =>
    rw [ofPairs_concat, keys_insert, ih, List.map_append, List.map_singleton, eraseDups_concat]
    simp only [List.mem_eraseDups]

/-- Each key has the value of the last pair that has it. -/
theorem mem_entries_ofPairs_iff {pairs : List (κ × α)} {p : κ × α} :
    p ∈ (ofPairs pairs).entries ↔ IsLast pairs p := by
  induction pairs using List.reverseRecOn with
  | nil => simp [IsLast, ofPairs, insertAll, empty]
  | append_singleton pairs q ih =>
    obtain ⟨key, value⟩ := p
    obtain ⟨last, lastValue⟩ := q
    rw [isLast_concat_iff, ofPairs_concat, ← get?_eq_some_iff, get?_insert, ← ih,
      ← get?_eq_some_iff]
    by_cases hk : key = last
    · simp [hk, eq_comm]
    · simp [hk]

end OrderedMap

/-! ## Pairs moved behind the others -/

/-- The last pair of each key. -/
def lastPairs (pairs : List (κ × α)) : List (κ × α) :=
  pairs.pwFilter fun p q => p.1 ≠ q.1

theorem lastPairs_cons (p : κ × α) (pairs : List (κ × α)) :
    lastPairs (p :: pairs) =
      if p.1 ∈ pairs.map Prod.fst then lastPairs pairs else p :: lastPairs pairs := by
  have hall : (∀ q ∈ pairs.pwFilter fun p q => p.1 ≠ q.1, p.1 ≠ q.1) ↔
      p.1 ∉ pairs.map Prod.fst := by
    rw [List.forall_mem_pwFilter fun {x y z} hxz => by
      by_contra h
      rw [not_or, not_not, not_not] at h
      exact hxz (h.1.trans h.2)]
    simp only [List.mem_map, not_exists, not_and, ne_eq, eq_comm]
  rw [lastPairs, lastPairs]
  split_ifs with hm
  · exact List.pwFilter_cons_of_neg (by rwa [hall, not_not])
  · exact List.pwFilter_cons_of_pos (hall.2 hm)

/-- Each key is there once, in the place of the last pair that has it. -/
theorem keys_lastPairs (pairs : List (κ × α)) :
    (lastPairs pairs).map Prod.fst = (pairs.map Prod.fst).dedup := by
  rw [List.dedup, List.pwFilter_map]
  rfl

/-- The pairs that are left are the last ones of their keys. -/
theorem mem_lastPairs_iff {pairs : List (κ × α)} {p : κ × α} :
    p ∈ lastPairs pairs ↔ IsLast pairs p := by
  induction pairs with
  | nil => simp [IsLast, lastPairs]
  | cons q pairs ih =>
    rw [lastPairs_cons, isLast_cons_iff, ← ih]
    split_ifs with hm
    · simp [hm]
    · simp [hm]

theorem lastPairs_eq_self {pairs : List (κ × α)} (h : (pairs.map Prod.fst).Nodup) :
    lastPairs pairs = pairs :=
  List.pwFilter_eq_self.2 (List.pairwise_map.1 h)

end

end SvgComponent
