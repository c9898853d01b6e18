import SvgComponent.Markup.Reference
import SvgComponent.Proofs.Text.Runs

/-!
# Escaped text

Four characters are written as references to their predefined names (`escape`) : those that
start a reference or a tag, that end a tag, and that end a quoted value. An escaped text
expands to the text again (`expand_escaped`) and holds none of the other three.

`expand_append` : texts are expanded together as they are one by one.
-/

namespace SvgComponent.Markup

open Text

namespace Reference

/-- One reference in front of a text that is expanded. -/
theorem expandFrom_reference {total pos : Nat} {name : List Char} {c : Char} (rest : List Char)
    (hn : ∀ d ∈ name, isNameEnd d = false) (hr : resolve (pos + 1) name = .ok c) :
    expandFrom total pos ('&' :: (name ++ ';' :: rest)) =
      (expandFrom total (pos + 2 + width name) rest).map (c :: ·) := by
  have hn' : ∀ d ∈ name, (!isNameEnd d) = true := fun d hd => by rw [hn d hd]; rfl
  have hend : ∀ c ∈ (';' :: rest).head?, (!isNameEnd c) = false := by simp [isNameEnd]
  have htake : (name ++ ';' :: rest).takeWhile (!isNameEnd ·) = name := takeWhile_run hn' hend
  have hdrop : (name ++ ';' :: rest).dropWhile (!isNameEnd ·) = ';' :: rest :=
    dropWhile_run hn' hend
  rw [expandFrom, if_pos rfl]
  simp only [htake]
  split
  · rename_i rest' h
    rw [hdrop, List.cons.injEq] at h
    obtain ⟨-, rfl⟩ := h
    rw [hr]
    rfl
  · rename_i h
    exact absurd hdrop (h rest)

theorem expandFrom_cons {total pos : Nat} {c : Char} (rest : List Char) (hc : c ≠ '&') :
    expandFrom total pos (c :: rest) =
      (expandFrom total (pos + c.utf8Size) rest).map (c :: ·) := by
  rw [expandFrom, if_neg hc]
  rfl

/-- Where a reference stands matters only for its faults. -/
theorem resolve_eq_ok {start : Nat} {name : List Char} {c : Char} (h : resolve start name = .ok c)
    (other : Nat) : resolve other name = .ok c := by
  unfold resolve at h ⊢
  split at h
  · exact h
  · split at h
    · exact h
    · cases h

/-- What a text expands to does not depend on what stands around it. -/
theorem expandFrom_append {total pos total' : Nat} {a b va vb : List Char}
    (ha : expandFrom total pos a = .ok va) (hb : ∀ pos, expandFrom total' pos b = .ok vb)
    (pos' : Nat) : expandFrom total' pos' (a ++ b) = .ok (va ++ vb) := by
  fun_induction expandFrom total pos a generalizing va pos' with
  | case1 =>
    cases ha
    exact hb pos'
  | case2 pos r name rest hd =>
    rename_i ih
    have hr : r = name ++ ';' :: rest := by rw [← hd, List.takeWhile_append_dropWhile]
    have hname : ∀ d ∈ name, isNameEnd d = false := by
      intro d hm
      have hp := @List.mem_takeWhile_imp _ (!isNameEnd ·) r d hm
      rwa [Bool.not_eq_true'] at hp
    cases hc : resolve (pos + 1) name with
    | error fault =>
      rw [hc] at ha
      cases ha
    | ok c =>
      cases hv : expandFrom total (pos + 2 + width name) rest with
      | error fault =>
        rw [hc, hv] at ha
        cases ha
      | ok value =>
        rw [hc, hv] at ha
        cases ha
        rw [hr, List.cons_append, List.append_assoc, List.cons_append,
          expandFrom_reference _ hname (resolve_eq_ok hc _), ih hv]
        rfl
  | case3 => cases ha
  | case4 pos c r hc ih =>
    cases hv : expandFrom total (pos + c.utf8Size) r with
    | error fault =>
      rw [hv] at ha
      cases ha
    | ok value =>
      rw [hv] at ha
      cases ha
      rw [List.cons_append, expandFrom_cons _ hc, ih hv]
      rfl

/-- What can be expanded is expanded the same wherever it stands. -/
theorem expandFrom_of_expand {cs value : List Char} (h : expand cs = .ok value)
    (total pos : Nat) : expandFrom total pos cs = .ok value := by
  have hnil : ∀ pos, expandFrom total pos [] = .ok [] := fun pos => by rw [expandFrom]
  have happend := expandFrom_append h hnil pos
  rwa [List.append_nil, List.append_nil] at happend

/-- Two texts that can be expanded can be expanded together. -/
theorem expand_append {a b va vb : List Char} (ha : expand a = .ok va) (hb : expand b = .ok vb) :
    expand (a ++ b) = .ok (va ++ vb) :=
  expandFrom_append ha (expandFrom_of_expand hb _) 0

end Reference

/-! ## Escaping -/

/-- A character as it is written in text and in attribute values. -/
def escape (c : Char) : List Char :=
  if c = '&' then ['&', 'a', 'm', 'p', ';']
  else if c = '<' then ['&', 'l', 't', ';']
  else if c = '>' then ['&', 'g', 't', ';']
  else if c = '"' then ['&', 'q', 'u', 'o', 't', ';']
  else [c]

/-- A text as it is written. -/
def escaped (cs : List Char) : List Char :=
  cs.flatMap escape

theorem escape_ne_nil (c : Char) : escape c ≠ [] := by
  unfold escape
  split_ifs <;> simp

theorem escaped_ne_nil {cs : List Char} (h : cs ≠ []) : escaped cs ≠ [] := by
  obtain ⟨c, rest, rfl⟩ := List.exists_cons_of_ne_nil h
  rw [escaped, List.flatMap_cons]
  exact List.append_ne_nil_of_left_ne_nil (escape_ne_nil c) _

/-- None of the characters that end something is left in an escaped text. -/
theorem not_mem_escaped {d : Char} (hd : d = '<' ∨ d = '>' ∨ d = '"') (cs : List Char) :
    d ∉ escaped cs := by
  rw [escaped, List.mem_flatMap]
  rintro ⟨c, -, hm⟩
  unfold escape at hm
  rcases hd with rfl | rfl | rfl <;> split_ifs at hm <;> simp_all [eq_comm]

/-- The escape of a character expands to it. -/
theorem expandFrom_escape_append {total pos : Nat} {rest value : List Char} (c : Char)
    (h : ∀ pos, Reference.expandFrom total pos rest = .ok value) :
    Reference.expandFrom total pos (escape c ++ rest) = .ok (c :: value) := by
  unfold escape
  split_ifs with hamp hlt hgt hquot
  · rw [hamp, List.cons_append]
    exact (@Reference.expandFrom_reference total pos ['a', 'm', 'p'] '&' rest
      (by simp [Reference.isNameEnd]) rfl).trans (by rw [h]; rfl)
  · rw [hlt, List.cons_append]
    exact (@Reference.expandFrom_reference total pos ['l', 't'] '<' rest
      (by simp [Reference.isNameEnd]) rfl).trans (by rw [h]; rfl)
  · rw [hgt, List.cons_append]
    exact (@Reference.expandFrom_reference total pos ['g', 't'] '>' rest
      (by simp [Reference.isNameEnd]) rfl).trans (by rw [h]; rfl)
  · rw [hquot, List.cons_append]
    exact (@Reference.expandFrom_reference total pos ['q', 'u', 'o', 't'] '"' rest
      (by simp [Reference.isNameEnd]) rfl).trans (by rw [h]; rfl)
  · rw [List.singleton_append, Reference.expandFrom_cons rest hamp, h]
    rfl

/-- What has been escaped expands to what it was. -/
theorem expandFrom_escaped (total pos : Nat) (cs : List Char) :
    Reference.expandFrom total pos (escaped cs) = .ok cs := by
  induction cs generalizing pos with
  | nil => rw [escaped, List.flatMap_nil, Reference.expandFrom]
  | cons c cs ih =>
    rw [escaped, List.flatMap_cons]
    exact expandFrom_escape_append c ih

/-- Expanding undoes escaping. -/
theorem expand_escaped (cs : List Char) : Reference.expand (escaped cs) = .ok cs :=
  expandFrom_escaped _ _ cs

end SvgComponent.Markup
