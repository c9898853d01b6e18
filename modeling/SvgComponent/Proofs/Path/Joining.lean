import Mathlib.Data.List.Basic
import SvgComponent.Path

/-!
# Joined paths

A path behind a directory has the parts of the directory and then its own. What matters for
files is the case of a single name, a text without slashes that is not empty (`IsName`) :

* `parts_slashed_append` : a name behind a path is one more part;
* `join_join` : a name may be put behind a directory before or after that is put behind another;
* `join_injective` : different names behind a directory give different paths.
-/

namespace SvgComponent.Path

/-- A text that is a part of a path. -/
structure IsName (name : String) : Prop where
  ne_empty : name ≠ ""
  no_slash : '/' ∉ name.toList

instance (name : String) : Decidable (IsName name) :=
  decidable_of_iff (name ≠ "" ∧ '/' ∉ name.toList)
    ⟨fun h => ⟨h.1, h.2⟩, fun h => ⟨h.ne_empty, h.no_slash⟩⟩

namespace IsName

variable {name : String}

theorem toList_ne_nil (h : IsName name) : name.toList ≠ [] :=
  fun he => h.ne_empty (String.toList_eq_nil_iff.1 he)

theorem not_isAbsolute (h : IsName name) : ¬ isAbsolute name = true := by
  intro ha
  obtain ⟨rest, hr⟩ := List.head?_eq_some_iff.1 (of_decide_eq_true ha)
  exact h.no_slash (hr ▸ List.mem_cons_self)

theorem getLast?_append (h : IsName name) (cs : List Char) :
    (cs ++ name.toList).getLast? ≠ some '/' := by
  rw [List.getLast?_append_of_ne_nil _ h.toList_ne_nil]
  exact fun hl => h.no_slash (List.mem_of_getLast? hl)

end IsName

/-! ## Parts -/

/-- The parts of a text between slashes, without empty ones. -/
def parts (cs : List Char) : List (List Char) :=
  (splitSlashes cs).filter (· ≠ [])

theorem splitSlashes_ne_nil : (cs : List Char) → splitSlashes cs ≠ []
  | [] => List.cons_ne_nil _ _
  | c :: cs => by
    rw [splitSlashes]
    split
    · split <;> exact List.cons_ne_nil _ _
    · exact List.cons_ne_nil _ _

theorem splitSlashes_slash_cons (cs : List Char) :
    splitSlashes ('/' :: cs) = [] :: splitSlashes cs := by
  obtain ⟨part, rest, h⟩ := List.exists_cons_of_ne_nil (splitSlashes_ne_nil cs)
  simp only [splitSlashes, h, if_true]

/-- A slash splits what is in front of it from what is behind it. -/
theorem splitSlashes_append_slash (a b : List Char) :
    splitSlashes (a ++ '/' :: b) = splitSlashes a ++ splitSlashes b := by
  induction a with
  | nil => exact splitSlashes_slash_cons b
  | cons c a ih =>
    obtain ⟨part, rest, h⟩ := List.exists_cons_of_ne_nil (splitSlashes_ne_nil a)
    rw [List.cons_append, splitSlashes, splitSlashes, ih, h, List.cons_append]
    dsimp only
    split_ifs <;> rfl

/-- Without slashes there is one part. -/
theorem splitSlashes_of_no_slash {cs : List Char} (h : '/' ∉ cs) : splitSlashes cs = [cs] := by
  induction cs with
  | nil => rfl
  | cons c cs ih =>
    obtain ⟨hc, hcs⟩ := List.ne_and_not_mem_of_not_mem_cons h
    rw [splitSlashes, ih hcs]
    exact if_neg (Ne.symm hc)

/-- The parts around a slash are those in front of it and those behind it. -/
theorem parts_append_slash (a b : List Char) : parts (a ++ '/' :: b) = parts a ++ parts b := by
  rw [parts, splitSlashes_append_slash, List.filter_append, parts, parts]

theorem parts_name {name : String} (h : IsName name) : parts name.toList = [name.toList] := by
  rw [parts, splitSlashes_of_no_slash h.no_slash]
  simp [h.ne_empty]

/-! ## A slash at the end -/

/-- A slash is put at the end of a text unless there is one. -/
theorem slashed_eq (cs : List Char) :
    ∃ front, slashed cs = front ++ ['/'] ∧ (cs = front ++ ['/'] ∨ cs = front) := by
  rw [slashed]
  split_ifs with h
  · obtain ⟨front, hf⟩ := List.getLast?_eq_some_iff.1 h
    exact ⟨front, hf, .inl hf⟩
  · exact ⟨cs, rfl, .inr rfl⟩

/-- A slash is added at the end of what stands last. -/
theorem slashed_append {b : List Char} (a : List Char) (hb : b ≠ []) :
    slashed (a ++ b) = a ++ slashed b := by
  rw [slashed, slashed, List.getLast?_append_of_ne_nil _ hb]
  split_ifs
  · rfl
  · rw [List.append_assoc]

theorem slashed_slashed (cs : List Char) : slashed (slashed cs) = slashed cs := by
  obtain ⟨front, hf, _⟩ := slashed_eq cs
  rw [hf, slashed, List.getLast?_concat, if_pos rfl]

theorem slashed_ne_nil (cs : List Char) : slashed cs ≠ [] := by
  obtain ⟨front, hf, _⟩ := slashed_eq cs
  simp [hf]

/-- A slash at the end adds no part. -/
theorem parts_slashed (cs : List Char) : parts (slashed cs) = parts cs := by
  have hslash (front : List Char) : parts (front ++ ['/']) = parts front := by
    rw [parts_append_slash]
    exact List.append_nil _
  obtain ⟨front, hf, rfl | rfl⟩ := slashed_eq cs
  · rw [hf]
  · rw [hf, hslash]

/-- A name behind a path is one more part. -/
theorem parts_slashed_append (cs : List Char) {name : String} (h : IsName name) :
    parts (slashed cs ++ name.toList) = parts cs ++ [name.toList] := by
  rw [← parts_slashed cs]
  obtain ⟨front, hf, _⟩ := slashed_eq cs
  have hnil : parts (front ++ ['/']) = parts front := by
    rw [parts_append_slash]
    exact List.append_nil _
  rw [hf, hnil, List.append_assoc, List.singleton_append, parts_append_slash, parts_name h]

/-! ## Joining -/

theorem join_of_isAbsolute (directory : String) {path : String} (h : isAbsolute path = true) :
    join directory path = path :=
  if_pos (.inl h)

theorem join_empty (path : String) : join "" path = path :=
  if_pos (.inr rfl)

/-- Other paths come behind the directory and a slash. -/
theorem toList_join {directory path : String} (hd : directory ≠ "")
    (hp : ¬ isAbsolute path = true) :
    (join directory path).toList = slashed directory.toList ++ path.toList := by
  rw [join, if_neg (by simp [hp, hd]), String.toList_ofList]

/-- A path behind a directory starts at the root if the directory does. -/
theorem isAbsolute_join {directory path : String} (hd : directory ≠ "")
    (hp : ¬ isAbsolute path = true) : isAbsolute (join directory path) = isAbsolute directory := by
  obtain ⟨c, cs, hc⟩ := List.exists_cons_of_ne_nil
    (fun he => hd (String.toList_eq_nil_iff.1 he) : directory.toList ≠ [])
  have hs : (slashed directory.toList).head? = directory.toList.head? := by
    rw [slashed]
    split_ifs
    · rfl
    · rw [hc]
      rfl
  rw [isAbsolute, toList_join hd hp, List.head?_append_of_ne_nil _ (slashed_ne_nil _), hs,
    isAbsolute]

/-- A name may be put behind a directory before or after that is put behind another one. -/
theorem join_join (base directory : String) {name : String} (h : IsName name) :
    join base (join directory name) = join (join base directory) name := by
  have hn := h.not_isAbsolute
  rcases eq_or_ne base "" with rfl | hb
  · rw [join_empty, join_empty]
  by_cases ha : isAbsolute directory = true
  · have hd : directory ≠ "" := by
      rintro rfl
      cases ha
    rw [join_of_isAbsolute base ha,
      join_of_isAbsolute base ((isAbsolute_join hd hn).trans ha)]
  · have hbd : join base directory ≠ "" := by
      intro he
      have := toList_join hb ha
      simp [he, slashed_ne_nil] at this
    rw [← String.toList_inj, toList_join hbd hn, toList_join hb ha]
    rcases eq_or_ne directory "" with rfl | hd
    · rw [join_empty, toList_join hb hn, String.toList_empty, List.append_nil, slashed_slashed]
    · have hd' : directory.toList ≠ [] := fun he => hd (String.toList_eq_nil_iff.1 he)
      have hj : ¬ isAbsolute (join directory name) = true := by
        rwa [isAbsolute_join hd hn]
      rw [toList_join hb hj, toList_join hd hn, slashed_append _ hd', List.append_assoc]

/-- Different paths behind a directory are different, unless they start at the root. -/
theorem join_injective (directory : String) {name other : String}
    (hn : ¬ isAbsolute name = true) (ho : ¬ isAbsolute other = true)
    (h : join directory name = join directory other) : name = other := by
  rcases eq_or_ne directory "" with rfl | hd
  · rwa [join_empty, join_empty] at h
  · have hl := congrArg String.toList h
    rw [toList_join hd hn, toList_join hd ho] at hl
    exact String.toList_inj.1 (List.append_cancel_left hl)

end SvgComponent.Path
