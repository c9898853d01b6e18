import Mathlib.Data.List.TakeWhile
import SvgComponent.Text.Blank

/-!
# Runs of characters

A run ends at the first character that is not of its kind (`takeWhile_run`, `dropWhile_run`).
Blanks are runs at the ends of a text : they make no difference to what is left when it is
trimmed, and nothing is left of a text of blanks (`trim_eq_nil_iff`).
-/

namespace SvgComponent.Text

section Runs

variable {p : Char → Bool} {run rest : List Char}

/-- A run is taken up to its end. -/
theorem takeWhile_run (h : ∀ c ∈ run, p c = true) (hr : ∀ c ∈ rest.head?, p c = false) :
    (run ++ rest).takeWhile p = run := by
  rw [List.takeWhile_append_of_pos h]
  cases rest with
  | nil => rw [List.takeWhile_nil, List.append_nil]
  | cons c rest => rw [List.takeWhile_cons_of_neg (by simp [hr c rfl]), List.append_nil]

/-- A run is dropped up to its end. -/
theorem dropWhile_run (h : ∀ c ∈ run, p c = true) (hr : ∀ c ∈ rest.head?, p c = false) :
    (run ++ rest).dropWhile p = rest := by
  rw [List.dropWhile_append_of_pos h]
  cases rest with
  | nil => rfl
  | cons c rest => rw [List.dropWhile_cons_of_neg (by simp [hr c rfl])]

end Runs

/-! ## Trimming -/

theorem trim_cons_of_isBlank {c : Char} (hc : isBlank c = true) (cs : List Char) :
    trim (c :: cs) = trim cs := by
  rw [trim, trim, List.dropWhile_cons_of_pos hc]

theorem trimEnd_append_of_isBlank {c : Char} (hc : isBlank c = true) (cs : List Char) :
    trimEnd (cs ++ [c]) = trimEnd cs := by
  rw [trimEnd, trimEnd, List.reverse_append, List.reverse_singleton, List.singleton_append,
    List.dropWhile_cons_of_pos hc]

theorem trim_append_of_isBlank {c : Char} (hc : isBlank c = true) (cs : List Char) :
    trim (cs ++ [c]) = trim cs := by
  induction cs with
  | nil => exact trim_cons_of_isBlank hc []
  | cons d cs ih =>
    by_cases hd : isBlank d = true
    · rw [List.cons_append, trim_cons_of_isBlank hd, trim_cons_of_isBlank hd, ih]
    · rw [trim, trim, List.dropWhile_cons_of_neg hd, List.cons_append,
        List.dropWhile_cons_of_neg hd, ← List.cons_append, trimEnd_append_of_isBlank hc]

theorem trimEnd_eq_nil_iff {cs : List Char} :
    trimEnd cs = [] ↔ ∀ c ∈ cs, isBlank c = true := by
  rw [trimEnd, List.reverse_eq_nil_iff, List.dropWhile_eq_nil_iff]
  simp only [List.mem_reverse]

/-- Nothing is left of a text of blanks, and of no other. -/
theorem trim_eq_nil_iff {cs : List Char} : trim cs = [] ↔ ∀ c ∈ cs, isBlank c = true := by
  induction cs with
  | nil => exact iff_of_true rfl (by simp)
  | cons c cs ih =>
    rw [List.forall_mem_cons]
    by_cases hc : isBlank c = true
    · rw [trim_cons_of_isBlank hc, ih]
      exact (and_iff_right hc).symm
    · rw [trim, List.dropWhile_cons_of_neg hc, trimEnd_eq_nil_iff, List.forall_mem_cons]

theorem trim_blanks_append {blanks : List Char} (h : ∀ c ∈ blanks, isBlank c = true)
    (cs : List Char) : trim (blanks ++ cs) = trim cs := by
  rw [trim, trim, List.dropWhile_append_of_pos h]

/-- Blanks behind are trimmed off. -/
theorem trim_append_blanks {blanks : List Char} (h : ∀ c ∈ blanks, isBlank c = true)
    (cs : List Char) : trim (cs ++ blanks) = trim cs := by
  induction blanks generalizing cs with
  | nil => rw [List.append_nil]
  | cons c blanks ih =>
    rw [List.forall_mem_cons] at h
    rw [← List.singleton_append, ← List.append_assoc, ih h.2, trim_append_of_isBlank h.1]

/-- Nothing is cut where no end is blank. -/
theorem trim_eq_self {cs : List Char} (hhead : cs.head?.any isBlank = false)
    (hlast : cs.getLast?.any isBlank = false) : trim cs = cs := by
  have hfront {ds : List Char} (h : ds.head?.any isBlank = false) :
      ds.dropWhile isBlank = ds := by
    cases ds with
    | nil => rfl
    | cons c ds => exact List.dropWhile_cons_of_neg (Bool.eq_false_iff.1 h)
  rw [trim, hfront hhead, trimEnd, hfront (by rwa [List.head?_reverse]), List.reverse_reverse]

/-- Blanks put around a text are trimmed off. -/
theorem trim_spaced (cs : List Char) : trim (' ' :: (cs ++ [' '])) = trim cs := by
  rw [trim_cons_of_isBlank (by decide), trim_append_of_isBlank (by decide)]

end SvgComponent.Text
