import SvgComponent.Text.Cut

/-!
# Replacing a mark

`replaceAll` writes another text in place of each occurrence of a mark, from left to right and
without overlaps. `replaceAll_of_not_found` : a text that does not hold the mark is left as
it is.
-/

namespace SvgComponent.Text

/-- Whether a mark occurs in a text. -/
def holds (mark cs : List Char) : Bool :=
  (cutAt? mark cs).isSome

/-- Replaces each occurrence of `mark`, `skip` characters of the last one being left to
pass over. -/
def replaceFrom (mark new : List Char) : (skip : Nat) → List Char → List Char
  | _, [] => []
  | n + 1, _ :: cs => replaceFrom mark new n cs
  | 0, c :: cs =>
    if (stripMark? mark (c :: cs)).isSome then new ++ replaceFrom mark new (mark.length - 1) cs
    else c :: replaceFrom mark new 0 cs

/-- Replaces each occurrence of `mark`, which is not empty. -/
def replaceAll (mark new cs : List Char) : List Char :=
  replaceFrom mark new 0 cs

theorem replaceAll_of_not_found {mark cs : List Char} (new : List Char)
    (h : holds mark cs = false) : replaceAll mark new cs = cs := by
  unfold replaceAll
  induction cs with
  | nil => rfl
  | cons c cs ih =>
    rw [holds, cutAt?] at h
    cases hs : stripMark? mark (c :: cs) with
    | some rest => simp [hs] at h
    | none =>
      rw [hs] at h
      rw [replaceFrom, hs]
      simp only [Option.isSome_none, Bool.false_eq_true, if_false]
      rw [ih (by simpa [holds] using h)]

end SvgComponent.Text
