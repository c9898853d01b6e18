import SvgComponent.Proofs.Component.Filling

/-!
# The pieces of a template

A template is made of placeholders and of characters that stay (`Piece`). To cut it into pieces is
to take every place where a placeholder stands for one (`Cuts`); as an opening brace is only at the
front of a placeholder, no two of them overlap, and there is exactly one way to do it
(`exists_cuts_fill`, `Cuts.unique`). A component file has the values in place of the placeholders
and all the other pieces as they are (`text_of_pieces`), so nothing is looked for in what has been
filled in.
-/

namespace SvgComponent.Component.Template

variable {values : List (List Char × List Char)} {name other value rest cs a b : List Char}
  {c : Char}

/-- A piece of a template : a character that stays, or a placeholder with the value of its name. -/
inductive Piece where
  | kept (c : Char)
  | filled (name value : List Char)
  deriving DecidableEq, Repr

namespace Piece

/-- What a piece is in the template. -/
def source : Piece → List Char
  | kept c => [c]
  | filled name _ => placeholder name

/-- What is written for a piece. -/
def text : Piece → List Char
  | kept c => [c]
  | filled _ value => value

theorem source_ne_nil (piece : Piece) : piece.source ≠ [] := by
  cases piece <;> exact List.cons_ne_nil _ _

theorem eq_nil_of_flatMap_source {pieces : List Piece} (h : pieces.flatMap source = []) :
    pieces = [] := by
  cases pieces with
  | nil => rfl
  | cons piece pieces =>
    rw [List.flatMap_cons, List.append_eq_nil_iff] at h
    exact absurd h.1 piece.source_ne_nil

end Piece

/-- A template cut into pieces such that each place where a placeholder stands is one of them. -/
structure Cuts (values : List (List Char × List Char)) (template : List Char)
    (pieces : List Piece) : Prop where
  source_eq : pieces.flatMap Piece.source = template
  mem : ∀ name value, .filled name value ∈ pieces → (name, value) ∈ values
  occurs : ∀ name value, (name, value) ∈ values → ∀ a b, template = a ++ (placeholder name ++ b) →
    ∃ before after, pieces = before ++ .filled name value :: after ∧
      before.flatMap Piece.source = a ∧ after.flatMap Piece.source = b

/-! ## Placeholders do not overlap -/

/-- A placeholder at the front of a text is followed by the others. -/
theorem eq_nil_or_behind (hn : '{' ∉ name)
    (h : placeholder name ++ rest = a ++ (placeholder other ++ b)) :
    a = [] ∨ ∃ between, a = placeholder name ++ between ∧
      rest = between ++ (placeholder other ++ b) := by
  obtain ⟨between, ha, hr⟩ | ⟨back, hback, hr⟩ := List.append_eq_append_iff.1 h
  · exact .inr ⟨between, ha, hr⟩
  · cases a with
    | nil => exact .inl rfl
    | cons d a =>
      cases back with
      | nil =>
        rw [List.append_nil] at hback
        exact .inr ⟨[], by rw [hback, List.append_nil], hr.symm⟩
      | cons e back =>
        -- the second placeholder would start at a character of the first name
        have he : e = '{' := by
          rw [placeholder_append] at hr
          exact (List.cons.inj hr).1.symm
        have hmem : '{' ∈ name ++ ['}'] := by
          rw [placeholder, List.cons_append] at hback
          rw [(List.cons.inj hback).2, he]
          exact List.mem_append_right a List.mem_cons_self
        simp [hn] at hmem

/-- At one place no two placeholders start. -/
theorem placeholder_inj (h : IsTable values) {p q : List Char × List Char} (hp : p ∈ values)
    (hq : q ∈ values) (he : placeholder p.1 ++ a = placeholder q.1 ++ b) : p = q ∧ a = b := by
  have hfront := (front?_eq_some_iff h).2 ⟨hp, List.prefix_append (placeholder p.1) a⟩
  rw [he, (front?_eq_some_iff h).2 ⟨hq, List.prefix_append (placeholder q.1) b⟩] at hfront
  obtain rfl : q = p := Option.some.inj hfront
  exact ⟨rfl, List.append_cancel_left he⟩

/-! ## Cutting from the front -/

variable {pieces : List Piece}

theorem Cuts.nil : Cuts values [] [] where
  source_eq := rfl
  mem _ _ h := absurd h List.not_mem_nil
  occurs name value _ a b he := by simp [placeholder] at he

/-- A placeholder in front is the first piece. -/
theorem Cuts.filled (h : IsTable values) (hm : (name, value) ∈ values)
    (hc : Cuts values rest pieces) :
    Cuts values (placeholder name ++ rest) (.filled name value :: pieces) where
  source_eq := congrArg (placeholder name ++ ·) hc.source_eq
  mem other value' hmem := by
    obtain he | hmem := List.mem_cons.1 hmem
    · cases he
      exact hm
    · exact hc.mem other value' hmem
  occurs other value' ho a b he := by
    obtain rfl | ⟨between, rfl, hr⟩ := eq_nil_or_behind (h.opening _ hm) he
    · obtain ⟨hp, rfl⟩ := placeholder_inj h hm ho he
      cases hp
      exact ⟨[], pieces, rfl, rfl, hc.source_eq⟩
    · obtain ⟨before, after, rfl, hbefore, hafter⟩ := hc.occurs other value' ho between b hr
      exact ⟨.filled name value :: before, after, rfl, congrArg (placeholder name ++ ·) hbefore,
        hafter⟩

/-- A character that starts no placeholder is a piece. -/
theorem Cuts.kept (h : IsTable values) (hn : front? values (c :: cs) = none)
    (hc : Cuts values cs pieces) : Cuts values (c :: cs) (.kept c :: pieces) where
  source_eq := congrArg (c :: ·) hc.source_eq
  mem name value hm := by
    obtain he | hm := List.mem_cons.1 hm
    · cases he
    · exact hc.mem name value hm
  occurs name value hm a b he := by
    cases a with
    | nil =>
      rw [List.nil_append] at he
      exact absurd ⟨b, he.symm⟩ ((front?_eq_none_iff h).1 hn _ hm)
    | cons d a =>
      rw [List.cons_append] at he
      obtain ⟨rfl, hr⟩ := List.cons.inj he
      obtain ⟨before, after, rfl, hbefore, hafter⟩ := hc.occurs name value hm a b hr
      exact ⟨.kept c :: before, after, rfl, congrArg (c :: ·) hbefore, hafter⟩

/-- What is filled in is the text of the pieces. -/
theorem exists_cuts_fill (h : IsTable values) (template : List Char) :
    ∃ pieces, Cuts values template pieces ∧
      fill values template = pieces.flatMap Piece.text := by
  cases template with
  | nil => exact ⟨[], .nil, fill_nil⟩
  | cons c cs =>
    cases hf : front? values (c :: cs) with
    | none =>
      obtain ⟨pieces, hc, hfill⟩ := exists_cuts_fill h cs
      refine ⟨.kept c :: pieces, hc.kept h hf, ?_⟩
      rw [fill_other hf, hfill]
      rfl
    | some p =>
      obtain ⟨hm, rest, hr⟩ := (front?_eq_some_iff h).1 hf
      have hlt : rest.length < (c :: cs).length := by
        rw [← hr, List.length_append]
        exact Nat.lt_add_of_pos_left (List.length_pos_of_ne_nil (List.cons_ne_nil _ _))
      obtain ⟨pieces, hc, hfill⟩ := exists_cuts_fill h rest
      refine ⟨.filled p.1 p.2 :: pieces, ?_, ?_⟩
      · rw [← hr]
        exact hc.filled h hm
      · rw [← hr, fill_placeholder h hm, hfill]
        rfl
termination_by template.length
decreasing_by
  · exact Nat.lt_succ_self cs.length
  · exact hlt

/-! ## There is one way to cut -/

/-- Behind its first piece a template is cut into the others. -/
theorem Cuts.of_cons {template : List Char} {piece : Piece}
    (hc : Cuts values template (piece :: pieces)) :
    ∃ rest, template = piece.source ++ rest ∧ Cuts values rest pieces := by
  refine ⟨pieces.flatMap Piece.source, ?_, rfl, fun name value hm => ?_,
    fun name value hm a b he => ?_⟩
  · rw [← hc.source_eq, List.flatMap_cons]
  · exact hc.mem name value (List.mem_cons_of_mem piece hm)
  · have htemplate : template = (piece.source ++ a) ++ (placeholder name ++ b) := by
      rw [← hc.source_eq, List.flatMap_cons, he, List.append_assoc]
    obtain ⟨before, after, hp, hbefore, hafter⟩ := hc.occurs name value hm _ _ htemplate
    cases before with
    | nil =>
      rw [List.flatMap_nil, eq_comm, List.append_eq_nil_iff] at hbefore
      exact absurd hbefore.1 piece.source_ne_nil
    | cons first before =>
      obtain ⟨rfl, hpieces⟩ := List.cons.inj hp
      rw [List.flatMap_cons] at hbefore
      exact ⟨before, after, hpieces, List.append_cancel_left hbefore, hafter⟩

/-- A placeholder at the front of a template is its first piece. -/
theorem Cuts.exists_cons_filled (hc : Cuts values (placeholder name ++ rest) pieces)
    (hm : (name, value) ∈ values) : ∃ more, pieces = .filled name value :: more := by
  obtain ⟨before, after, hp, hbefore, -⟩ := hc.occurs name value hm [] rest rfl
  obtain rfl := Piece.eq_nil_of_flatMap_source hbefore
  exact ⟨after, hp⟩

/-- There is one way to cut a template; by induction on its pieces. -/
theorem Cuts.unique {template : List Char} {pieces others : List Piece}
    (hc : Cuts values template pieces) (ho : Cuts values template others) : others = pieces := by
  induction pieces generalizing template others with
  | nil => exact Piece.eq_nil_of_flatMap_source (ho.source_eq.trans hc.source_eq.symm)
  | cons piece pieces ih =>
    obtain ⟨rest, rfl, hrest⟩ := hc.of_cons
    have hhead : ∃ more, others = piece :: more := by
      cases piece with
      | filled name value => exact ho.exists_cons_filled (hc.mem name value List.mem_cons_self)
      | kept c =>
        cases others with
        | nil => cases ho.source_eq
        | cons first more =>
          obtain ⟨rest', he, -⟩ := ho.of_cons
          cases first with
          | kept d =>
            obtain rfl : c = d := (List.cons.inj he).1
            exact ⟨more, rfl⟩
          | filled name value =>
            rw [he] at hc
            obtain ⟨_, hp⟩ := hc.exists_cons_filled (ho.mem name value List.mem_cons_self)
            cases hp
    obtain ⟨more, rfl⟩ := hhead
    obtain ⟨rest', he, hmore⟩ := ho.of_cons
    obtain rfl := List.append_cancel_left he
    rw [ih hrest hmore]

end Template

open Template

/-- A component file is its template with the values in place of the placeholders, each of them
where it stands in the template, and everything else as it is. -/
theorem text_of_pieces (content : Content) (template : Option String) :
    ∃ pieces,
      Cuts content.values (template.getD (Template.default content.target)).toList pieces ∧
      (∀ others,
        Cuts content.values (template.getD (Template.default content.target)).toList others →
          others = pieces) ∧
      content.text template = String.ofList (pieces.flatMap Piece.text) := by
  obtain ⟨pieces, hc, hfill⟩ := exists_cuts_fill (isTable_values content)
    (template.getD (Template.default content.target)).toList
  exact ⟨pieces, hc, fun others ho => hc.unique ho, congrArg String.ofList hfill⟩

example : fill [("jsx".toList, "<\x7bjsx\x7d>".toList)] "\x7b\x7bjsx\x7d\x7ba\x7bjsx".toList =
    "\x7b<\x7bjsx\x7d>\x7ba\x7bjsx".toList := by decide +kernel

end SvgComponent.Component
