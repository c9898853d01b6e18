import Mathlib.Tactic.Common
import SvgComponent.Json.Reader

/-!
# How far a cursor gets

A reader takes characters from the front of what is left, and its place moves over just these
characters (`Reaches`). So the place of whatever is found later is some bytes behind the cursor that
reading started at (`Reaches.exists_place_eq`), and so is that of every failure (`LiesAhead`).
-/

namespace SvgComponent.Json

open Text

/-! ## Places -/

namespace Place

/-- The place behind some characters. -/
def behind (p : Place) (cs : List Char) : Place :=
  cs.foldl afterChar p

theorem after_zero (p : Place) (cs : List Char) : p.after cs 0 = p := by
  cases cs with
  | nil => rfl
  | cons c cs => exact if_pos rfl

/-- Characters are passed over by their bytes. -/
theorem after_append (p : Place) (front rest : List Char) (n : Nat) :
    p.after (front ++ rest) (width front + n) = (p.behind front).after rest n := by
  induction front generalizing p with
  | nil => rw [width_nil, Nat.zero_add]; rfl
  | cons c front ih =>
    have hpos : 0 < c.utf8Size := c.utf8Size_pos
    have hbytes : c.utf8Size + width front + n - c.utf8Size = width front + n := by omega
    rw [List.cons_append, width_cons, after, if_neg (by omega), if_neg (by omega), hbytes, ih]
    rfl

/-- As many bytes as some characters have lead behind them. -/
theorem after_width (p : Place) (front rest : List Char) :
    p.after (front ++ rest) (width front) = p.behind front := by
  rw [← Nat.add_zero (width front), after_append, after_zero]

theorem line_afterChar (p : Place) (c : Char) : (p.afterChar c).line = p.line + [c].count '\n' := by
  rw [afterChar]
  split_ifs with hc
  · rw [hc]
    rfl
  · rw [List.count_eq_zero.2 (by simpa using Ne.symm hc)]
    rfl

/-- The line is told by the line breaks that have been passed. -/
theorem line_behind (p : Place) (cs : List Char) : (p.behind cs).line = p.line + cs.count '\n' := by
  induction cs generalizing p with
  | nil => rfl
  | cons c cs ih =>
    rw [behind, List.foldl_cons, ← behind, ih, line_afterChar, Nat.add_assoc, ← List.count_append]
    rfl

/-- A place is at the end of some characters, or inside the one behind them. -/
structure IsBehind (start place : Place) (front rest : List Char) : Prop where
  line_eq : place.line = (start.behind front).line
  column_eq : ∃ inside, place.column = (start.behind front).column + inside ∧
    (inside = 0 ∨ ∃ c ∈ rest.head?, inside < c.utf8Size)

/-- Some bytes further on is behind some of the characters. -/
theorem exists_isBehind_after (p : Place) (cs : List Char) (n : Nat) :
    ∃ front rest, cs = front ++ rest ∧ IsBehind p (p.after cs n) front rest := by
  induction cs generalizing p n with
  | nil => exact ⟨[], [], rfl, rfl, 0, rfl, .inl rfl⟩
  | cons c cs ih =>
    rw [after]
    split_ifs with hzero hinside
    · exact ⟨[], c :: cs, rfl, rfl, 0, rfl, .inl rfl⟩
    · exact ⟨[], c :: cs, rfl, rfl, n, rfl, .inr ⟨c, rfl, hinside⟩⟩
    · obtain ⟨front, rest, rfl, hline, hcolumn⟩ := ih (p.afterChar c) (n - c.utf8Size)
      exact ⟨c :: front, rest, rfl, hline, hcolumn⟩

end Place

/-! ## Cursors -/

/-- A cursor is behind another, by at least `k` characters. -/
def Reaches (k : Nat) (cur cur' : Cursor) : Prop :=
  ∃ front, k ≤ front.length ∧ cur.rest = front ++ cur'.rest ∧
    cur'.place = cur.place.behind front ∧ cur'.limit = cur.limit

namespace Reaches

variable {i k : Nat} {c d e : Cursor}

theorem refl (c : Cursor) : Reaches 0 c c :=
  ⟨[], Nat.le_refl 0, rfl, rfl, rfl⟩

theorem weaken (h : Reaches k c d) (hi : i ≤ k) : Reaches i c d := by
  obtain ⟨front, hk, hrest⟩ := h
  exact ⟨front, Nat.le_trans hi hk, hrest⟩

/-- How far two readers get in sequence is what both get together. -/
theorem trans (h : Reaches i c d) (h' : Reaches (k - i) d e) : Reaches k c e := by
  obtain ⟨front, hi, hrest, hplace, hlimit⟩ := h
  obtain ⟨front', hk, hrest', hplace', hlimit'⟩ := h'
  refine ⟨front ++ front', ?_, ?_, ?_, hlimit'.trans hlimit⟩
  · rw [List.length_append]
    omega
  · rw [hrest, hrest', List.append_assoc]
  · rw [hplace', hplace, Place.behind, Place.behind, Place.behind, List.foldl_append]

theorem length_add_le (h : Reaches k c d) : d.rest.length + k ≤ c.rest.length := by
  obtain ⟨front, hk, hrest, -⟩ := h
  rw [hrest, List.length_append]
  omega

theorem exists_after_eq (h : Reaches k c d) (bytes : Nat) :
    ∃ total, d.place.after d.rest bytes = c.place.after c.rest total := by
  obtain ⟨front, -, hrest, hplace, -⟩ := h
  exact ⟨width front + bytes, by rw [hplace, hrest, Place.after_append]⟩

/-- The place of a later cursor is some bytes behind the first one. -/
theorem exists_place_eq (h : Reaches k c d) : ∃ bytes, d.place = c.place.after c.rest bytes := by
  obtain ⟨bytes, he⟩ := h.exists_after_eq 0
  exact ⟨bytes, by rw [← he, Place.after_zero]⟩

/-- Passing over a gap is a step forward. -/
theorem gapped (c : Cursor) : Reaches 0 c c.gapped := by
  refine ⟨c.rest.takeWhile isGap, Nat.zero_le _, List.takeWhile_append_dropWhile.symm, ?_, rfl⟩
  have hplace := Place.after_width c.place (c.rest.takeWhile isGap) []
  rwa [List.append_nil] at hplace

/-- One character further on. -/
theorem next (a : Char) (cs : List Char) (place : Place) (limit : Nat) :
    Reaches 1 ⟨a :: cs, place, limit⟩ ⟨cs, place.afterChar a, limit⟩ :=
  ⟨[a], Nat.le_refl 1, rfl, rfl, rfl⟩

theorem lift {front rest : List Char} (hk : k ≤ front.length) (h : c.rest = front ++ rest) :
    Reaches k c ⟨rest, c.place.after c.rest (width front), c.limit⟩ :=
  ⟨front, hk, h, by rw [h, Place.after_width], rfl⟩

end Reaches

/-! ## Failures -/

/-- A failure is placed in what is left, or will be. -/
def LiesAhead (cur : Cursor) : Failure → Prop
  | .placed _ place => ∃ bytes, place = cur.place.after cur.rest bytes
  | .open _ cur' => Reaches 0 cur cur'

/-- A failure ahead of a later cursor is ahead of the first one. -/
theorem LiesAhead.of_reaches {k : Nat} {c d : Cursor} {failure : Failure} (h : Reaches k c d)
    (hf : LiesAhead d failure) : LiesAhead c failure := by
  cases failure with
  | placed fault place =>
    obtain ⟨bytes, rfl⟩ := hf
    exact h.exists_after_eq bytes
  | «open» fault cur => exact (h.weaken (Nat.zero_le k)).trans hf

end SvgComponent.Json
