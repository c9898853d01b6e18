import Mathlib.Tactic.Common
import SvgComponent.Text.Slice

/-!
# What a slice of a text is

`slice?_eq_some_iff` says what the part of a text between two byte offsets is with the texts in
front and behind. Slices that meet can be joined (`slice?_join`).
-/

namespace SvgComponent.Text

theorem width_eq_zero_iff {cs : List Char} : width cs = 0 ↔ cs = [] := by
  cases cs with
  | nil => simp
  | cons c cs =>
    have := c.utf8Size_pos
    simp only [width_cons, List.cons_ne_nil, iff_false]
    omega

/-- A text is split behind the bytes of its first part. -/
theorem splitBytes?_append (a b : List Char) : splitBytes? (width a) (a ++ b) = some (a, b) := by
  induction a with
  | nil => rw [width_nil, List.nil_append, splitBytes?]
  | cons c a ih =>
    obtain ⟨n, hn⟩ := Nat.exists_eq_add_one_of_ne_zero (Nat.ne_of_gt c.utf8Size_pos)
    have hw : width (c :: a) = n + width a + 1 := by
      rw [width_cons, hn]
      omega
    have hle : c.utf8Size ≤ n + width a + 1 := by omega
    have hrest : n + width a + 1 - c.utf8Size = width a := by omega
    rw [hw, List.cons_append, splitBytes?, if_pos hle, hrest, ih]
    rfl

/-- What a text is split into are two parts, of which the first has so many bytes. -/
theorem splitBytes?_eq_some_iff {n : Nat} {cs a b : List Char} :
    splitBytes? n cs = some (a, b) ↔ cs = a ++ b ∧ width a = n := by
  constructor
  · intro h
    induction cs generalizing n a with
    | nil =>
      cases n with
      | zero =>
        cases h
        exact ⟨rfl, rfl⟩
      | succ n => cases h
    | cons c cs ih =>
      cases n with
      | zero =>
        cases h
        exact ⟨rfl, rfl⟩
      | succ n =>
        rw [splitBytes?] at h
        split at h
        · rename_i hle
          obtain ⟨⟨a', b'⟩, hp, he⟩ := Option.map_eq_some_iff.1 h
          cases he
          obtain ⟨rfl, hw⟩ := ih hp
          refine ⟨rfl, ?_⟩
          rw [width_cons, hw]
          omega
        · cases h
  · rintro ⟨rfl, rfl⟩
    exact splitBytes?_append a b

/-- A slice stands between a text of as many bytes as its start says and some other text. -/
theorem slice?_eq_some_iff {start stop : Nat} {cs raw : List Char} :
    slice? start stop cs = some raw ↔
      ∃ before after, cs = before ++ (raw ++ after) ∧ width before = start ∧
        start + width raw = stop := by
  rw [slice?]
  constructor
  · intro h
    split at h
    · rename_i hle
      obtain ⟨⟨before, rest⟩, hb, hm⟩ := Option.bind_eq_some_iff.1 h
      obtain ⟨⟨raw', after⟩, hr, rfl⟩ := Option.map_eq_some_iff.1 hm
      obtain ⟨rfl, hwb⟩ := splitBytes?_eq_some_iff.1 hb
      obtain ⟨hrest, hwr⟩ := splitBytes?_eq_some_iff.1 hr
      dsimp only at hrest hwr ⊢
      exact ⟨before, after, by rw [hrest], hwb, by omega⟩
    · cases h
  · rintro ⟨before, after, rfl, rfl, rfl⟩
    rw [if_pos (Nat.le_add_right _ _), splitBytes?_append, Option.bind_some,
      Nat.add_sub_cancel_left, splitBytes?_append]
    rfl

/-- A slice ends inside the text. -/
theorem le_width_of_slice? {start stop : Nat} {cs raw : List Char}
    (h : slice? start stop cs = some raw) : start + width raw = stop ∧ stop ≤ width cs := by
  obtain ⟨before, after, rfl, hb, hs⟩ := slice?_eq_some_iff.1 h
  rw [width_append, width_append]
  omega

theorem slice?_empty {start stop : Nat} {cs raw : List Char}
    (h : slice? start stop cs = some raw) : slice? stop stop cs = some [] := by
  obtain ⟨before, after, rfl, rfl, rfl⟩ := slice?_eq_some_iff.1 h
  refine slice?_eq_some_iff.2 ⟨before ++ raw, after, ?_, width_append _ _, rfl⟩
  rw [List.nil_append, List.append_assoc]

/-- Two slices that meet are one slice. -/
theorem slice?_join {start between stop : Nat} {cs a b : List Char}
    (ha : slice? start between cs = some a) (hb : slice? between stop cs = some b) :
    slice? start stop cs = some (a ++ b) := by
  obtain ⟨before, after, rfl, rfl, rfl⟩ := slice?_eq_some_iff.1 ha
  obtain ⟨before', after', he, hw, rfl⟩ := slice?_eq_some_iff.1 hb
  have hsplit := splitBytes?_append (before ++ a) after
  rw [width_append, ← hw, List.append_assoc, he, splitBytes?_append] at hsplit
  obtain ⟨rfl, rfl⟩ := Prod.mk.inj (Option.some.inj hsplit)
  refine slice?_eq_some_iff.2 ⟨before, after', ?_, rfl, ?_⟩
  · rw [List.append_assoc]
  · rw [width_append, Nat.add_assoc]

end SvgComponent.Text
