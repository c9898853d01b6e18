/-!
# Cutting a text at a mark

`cutAt?` splits a text at the first occurrence of a mark, `stripMark?` takes a mark off
its front. Neither loses a character (`eq_append_of_cutAt?`, `eq_append_of_stripMark?`).
-/

namespace SvgComponent.Text

/-- The text after `mark`, if it starts with it. -/
def stripMark? : (mark text : List Char) → Option (List Char)
  | [], cs => some cs
  | _ :: _, [] => none
  | m :: ms, c :: cs => if m = c then stripMark? ms cs else none

/-- The text in front of the first occurrence of `mark`, and the text behind it. -/
def cutAt? (mark : List Char) : List Char → Option (List Char × List Char)
  | [] => (stripMark? mark []).map fun rest => ([], rest)
  | c :: cs =>
    match stripMark? mark (c :: cs) with
    | some rest => some ([], rest)
    | none => (cutAt? mark cs).map fun p => (c :: p.1, p.2)

theorem eq_append_of_stripMark? {mark cs rest : List Char} (h : stripMark? mark cs = some rest) :
    cs = mark ++ rest := by
  induction mark generalizing cs with
  | nil => simpa [stripMark?] using h
  | cons m ms ih =>
    cases cs with
    | nil => simp [stripMark?] at h
    | cons c cs =>
      rw [stripMark?] at h
      split at h
      · rename_i e
        rw [e, ih h, List.cons_append]
      · simp at h

theorem stripMark?_append (mark rest : List Char) : stripMark? mark (mark ++ rest) = some rest := by
  induction mark with
  | nil => rfl
  | cons m ms ih => simp [stripMark?, ih]

theorem eq_append_of_cutAt? {mark cs a b : List Char} (h : cutAt? mark cs = some (a, b)) :
    cs = a ++ mark ++ b := by
  induction cs generalizing a with
  | nil =>
    obtain ⟨r, hr, e⟩ := Option.map_eq_some_iff.1 h
    cases e
    simpa using eq_append_of_stripMark? hr
  | cons c cs ih =>
    rw [cutAt?] at h
    split at h
    · rename_i rest hr
      cases h
      simpa using eq_append_of_stripMark? hr
    · obtain ⟨⟨a', b'⟩, hp, e⟩ := Option.map_eq_some_iff.1 h
      cases e
      rw [ih hp]
      simp

end SvgComponent.Text
