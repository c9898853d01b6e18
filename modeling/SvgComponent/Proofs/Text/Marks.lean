import Mathlib.Data.List.Infix
import SvgComponent.Text.Replace

/-!
# Marks and where they occur

A mark that ends in a character it holds only there cannot overlap itself, so a text without
the mark, written in front of it, is cut exactly at its end (`cutAt?_append_mark`). All marks
that end a comment, a CDATA section or an instruction are of this kind.

`not_infix_breakUp` : after the breaking up of the marks that end a script comment none is
left.
-/

namespace SvgComponent.Text

/-! ## Taking a mark off -/

/-- A mark can be taken off if it stands in front. -/
theorem isSome_stripMark?_iff {mark cs : List Char} :
    (stripMark? mark cs).isSome = true ↔ mark <+: cs := by
  constructor
  · intro h
    obtain ⟨rest, hr⟩ := Option.isSome_iff_exists.1 h
    exact ⟨rest, (eq_append_of_stripMark? hr).symm⟩
  · rintro ⟨rest, rfl⟩
    rw [stripMark?_append, Option.isSome_some]

theorem stripMark?_eq_none_iff {mark cs : List Char} :
    stripMark? mark cs = none ↔ ¬ mark <+: cs := by
  rw [← isSome_stripMark?_iff, Option.not_isSome_iff_eq_none]

/-! ## Cutting at the first mark -/

/-- A mark cannot start in front of another and reach into it. -/
theorem no_overlap {m a : List Char} {e c : Char} (b : List Char) (he : e ∉ m)
    (h : ¬ (m ++ [e]) <:+: c :: a) : ¬ (m ++ [e]) <+: (c :: a) ++ (m ++ [e] ++ b) := by
  intro hp
  rcases Nat.lt_or_ge (c :: a).length (m ++ [e]).length with hlt | hge
  · have hlast : ((c :: a) ++ (m ++ [e] ++ b))[m.length]? = some e := by
      rw [List.prefix_iff_getElem?.1 hp m.length (by simp)]
      simp
    simp only [List.length_append, List.length_cons, List.length_nil] at hlt
    rw [List.getElem?_append_right (by simp; omega), List.append_assoc,
      List.getElem?_append_left (by simp; omega)] at hlast
    exact he (List.mem_of_getElem? hlast)
  · exact h (List.prefix_of_prefix_length_le hp (List.prefix_append _ _) hge).isInfix

/-- A text is cut at the first mark, if that cannot start earlier. -/
theorem cutAt?_append_mark {m : List Char} {e : Char} {a : List Char} (b : List Char)
    (he : e ∉ m) (h : ¬ (m ++ [e]) <:+: a) :
    cutAt? (m ++ [e]) (a ++ (m ++ [e] ++ b)) = some (a, b) := by
  induction a with
  | nil =>
    obtain ⟨c, cs, hc⟩ := List.exists_cons_of_ne_nil (show m ++ [e] ++ b ≠ [] by simp)
    rw [List.nil_append, hc, cutAt?, ← hc, stripMark?_append]
  | cons c a ih =>
    have hn := stripMark?_eq_none_iff.2 (no_overlap b he h)
    rw [List.cons_append] at hn ⊢
    rw [cutAt?, hn, ih fun hi => h (List.infix_cons hi)]
    rfl

/-- In front of the first mark there is none. -/
theorem not_infix_of_cutAt? {mark cs a b : List Char} (hne : mark ≠ [])
    (h : cutAt? mark cs = some (a, b)) : ¬ mark <:+: a := by
  induction cs generalizing a with
  | nil =>
    obtain ⟨rest, -, he⟩ := Option.map_eq_some_iff.1 h
    cases he
    rwa [List.infix_nil]
  | cons c cs ih =>
    have hcs := eq_append_of_cutAt? h
    rw [cutAt?] at h
    split at h
    · cases h
      rwa [List.infix_nil]
    · rename_i hs
      obtain ⟨⟨a', b'⟩, hp, he⟩ := Option.map_eq_some_iff.1 h
      cases he
      rw [List.infix_cons_iff, not_or]
      refine ⟨fun hprefix => stripMark?_eq_none_iff.1 hs ?_, ih hp⟩
      rw [hcs, List.append_assoc]
      exact hprefix.trans (List.prefix_append _ _)

/-! ## Text around a text without the mark -/

/-- A mark is in neither of two texts nor between them, if its first character is not in the first
one. -/
theorem not_infix_append {c : Char} {m a b : List Char} (ha : c ∉ a) (hb : ¬ (c :: m) <:+: b) :
    ¬ (c :: m) <:+: a ++ b := by
  induction a with
  | nil => exact hb
  | cons d a ih =>
    rw [List.mem_cons, not_or] at ha
    rw [List.cons_append, List.infix_cons_iff, List.cons_prefix_cons, not_or]
    exact ⟨fun hp => ha.1 hp.1, ih ha.2⟩

/-- One more character brings no mark about unless it ends one. -/
theorem not_infix_concat {e d : Char} {m a : List Char} (he : e ≠ d)
    (h : ¬ (m ++ [e]) <:+: a) : ¬ (m ++ [e]) <:+: a ++ [d] := by
  rw [List.infix_concat_iff, not_or]
  refine ⟨fun hs => he ?_, h⟩
  obtain hnil | ⟨t, ht, -⟩ := List.suffix_concat_iff.1 hs
  · simp at hnil
  · exact (List.append_singleton_inj.1 ht).2

/-! ## The end of a script comment -/

/-- What ends a script comment. -/
def scriptCommentEnd : List Char := ['*', '/']

/-- A text with a blank put into each mark that ends a script comment. -/
def breakUp (cs : List Char) : List Char :=
  replaceAll scriptCommentEnd ['*', ' ', '/'] cs

theorem breakUp_mark (cs : List Char) :
    breakUp ('*' :: '/' :: cs) = '*' :: ' ' :: '/' :: breakUp cs :=
  rfl

theorem breakUp_cons {c : Char} {cs : List Char} (h : ¬ scriptCommentEnd <+: c :: cs) :
    breakUp (c :: cs) = c :: breakUp cs := by
  rw [breakUp, replaceAll, replaceFrom, stripMark?_eq_none_iff.2 h]
  rfl

/-- Breaking up marks leaves the first character. -/
theorem head?_breakUp (cs : List Char) : (breakUp cs).head? = cs.head? := by
  cases cs with
  | nil => rfl
  | cons c cs =>
    by_cases h : scriptCommentEnd <+: c :: cs
    · obtain ⟨rest, hr⟩ := h
      rw [← hr]
      rfl
    · rw [breakUp_cons h]
      rfl

/-- Nothing in a broken up text ends a script comment. -/
theorem not_infix_breakUp (cs : List Char) : ¬ scriptCommentEnd <:+: breakUp cs := by
  match cs with
  | [] => simp [breakUp, replaceAll, replaceFrom, scriptCommentEnd]
  | c :: cs =>
    by_cases hp : scriptCommentEnd <+: c :: cs
    · obtain ⟨rest, hr⟩ := hp
      have hlt : rest.length < cs.length + 1 := by
        have hlength := congrArg List.length hr
        rw [List.length_append, List.length_cons] at hlength
        exact hlength ▸ Nat.lt_add_of_pos_left (by decide)
      rw [← hr, scriptCommentEnd, List.cons_append, List.singleton_append, breakUp_mark,
        List.infix_cons_iff, List.infix_cons_iff, List.infix_cons_iff]
      rintro (h | h | h | h)
      · simp at h
      · simp at h
      · simp at h
      · exact not_infix_breakUp rest h
    · rw [breakUp_cons hp, List.infix_cons_iff]
      rintro (h | h)
      · rw [scriptCommentEnd, List.cons_prefix_cons, List.singleton_prefix_iff_head?_eq_some,
          head?_breakUp] at h
        exact hp (by rwa [scriptCommentEnd, List.cons_prefix_cons,
          List.singleton_prefix_iff_head?_eq_some])
      · exact not_infix_breakUp cs h
termination_by cs.length

end SvgComponent.Text
