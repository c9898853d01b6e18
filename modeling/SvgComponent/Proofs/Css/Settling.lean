import SvgComponent.Proofs.Css.Edges

/-!
# Where the parts of tokens end

Every function that skips part of a token takes in a semicolon behind the text, or ends in
front of all edges alike. From the parts to the whole : an escape ends in front of every edge
(`ends_readEscape`), so a name does unless a backslash is its last character
(`reads_readName`); strings, comments and addresses are open until their closing mark comes;
numbers end with their last character, or with the name that is their unit
(`settled_skipNumber`).

`reads_readToken` : a token is open at a text, or its kind and its end can be told from the
text alone.
-/

namespace SvgComponent.Css

open Text

variable {edge cs : List Char} {c : Char}

/-! ## Escapes and names -/

/-- But for a line break of two characters at most one character is dropped. -/
theorem dropOneBlank_of_ne {r : List Char} (h : c = '\r' → r.head? ≠ some '\n') :
    dropOneBlank (c :: r) = if isBlank c then r else c :: r := by
  cases r with
  | nil => simp [dropOneBlank]
  | cons d r =>
    have hd : ¬ (c = '\r' ∧ d = '\n') := fun hd => h hd.1 (congrArg some hd.2)
    rw [dropOneBlank.eq_def]
    split <;> simp_all

/-- The blank that ends an escape may be the first one of the edge. -/
theorem leaves_dropOneBlank (edge : List Char) : Leaves edge [] (dropOneBlank edge) := by
  cases edge with
  | nil => exact .nil
  | cons c r =>
    by_cases hbreak : c = '\r' ∧ r.head? = some '\n'
    · obtain ⟨rfl, hr⟩ := hbreak
      obtain ⟨s, rfl⟩ := List.head?_eq_some_iff.1 hr
      exact .blanks ['\r', '\n'] (List.all_eq_true.1 rfl) rfl
    rw [dropOneBlank_of_ne fun e hr => hbreak ⟨e, hr⟩]
    split
    · rename_i hc
      exact .blanks [c] (by simpa using hc) rfl
    · exact .nil

/-- Dropping a blank comes to one end in front of all edges. -/
theorem ends_dropOneBlank (cs : List Char) : Ends dropOneBlank cs := by
  intro edge he
  match cs with
  | [] => exact leaves_dropOneBlank edge
  | [c] =>
    by_cases hbreak : c = '\r' ∧ edge.head? = some '\n'
    · obtain ⟨rfl, hr⟩ := hbreak
      obtain ⟨s, rfl⟩ := List.head?_eq_some_iff.1 hr
      exact .blanks ['\n'] (List.all_eq_true.1 rfl) rfl
    · rw [List.singleton_append, dropOneBlank_of_ne (r := edge) fun e hr => hbreak ⟨e, hr⟩,
        dropOneBlank_of_ne (by simp)]
      split
      · exact .nil
      · exact .all [c]
  | c :: d :: r =>
    by_cases hbreak : c = '\r' ∧ d = '\n'
    · obtain ⟨rfl, rfl⟩ := hbreak
      exact .all r
    · rw [List.cons_append, dropOneBlank_of_ne (by simpa using hbreak),
        dropOneBlank_of_ne (by simpa using hbreak)]
      split
      · exact .all (d :: r)
      · exact .all (c :: d :: r)

theorem IsEdge.escapeDigits_append (he : IsEdge edge) (cs : List Char) :
    escapeDigits (cs ++ edge) = escapeDigits cs := by
  rw [escapeDigits, List.take_append]
  exact he.takeWhile_append (fun _ => isHex_eq_false) (List.take_prefix _ edge) _

theorem length_escapeDigits_le (cs : List Char) : (escapeDigits cs).length ≤ cs.length :=
  (List.takeWhile_prefix _).length_le.trans (List.take_prefix _ _).length_le

/-- An escape that has begun ends in front of every edge. -/
theorem ends_readEscape (hne : cs ≠ []) : Ends (fun t => (readEscape t).2) cs := by
  obtain ⟨c, r, rfl⟩ := List.exists_cons_of_ne_nil hne
  intro edge he
  have hdigits := he.escapeDigits_append (c :: r)
  rw [List.cons_append] at hdigits ⊢
  simp only [readEscape]
  split
  · rw [hdigits, ← List.cons_append, List.drop_append_of_le_length (length_escapeDigits_le _)]
    exact ends_dropOneBlank _ edge he
  · split <;> exact .all r

/-- What an escape stands for does not depend on the edge. -/
theorem reads_readEscape (hne : cs ≠ []) : Reads readEscape cs := by
  refine .inr ⟨ends_readEscape hne, fun edge he => ?_⟩
  obtain ⟨c, r, rfl⟩ := List.exists_cons_of_ne_nil hne
  have hdigits := he.escapeDigits_append (c :: r)
  rw [List.cons_append] at hdigits ⊢
  simp only [readEscape]
  rw [hdigits]
  split
  · rfl
  · split <;> rfl

theorem readName_escape {r : List Char} (h : startsWithNewline r = false) :
    readName ('\\' :: r) = ((readEscape r).1 :: (readName (readEscape r).2).1,
      (readName (readEscape r).2).2) := by
  rw [readName, if_pos rfl, if_neg (by simp [h])]

theorem readName_isNameChar {r : List Char} (h : isNameChar c = true) :
    readName (c :: r) = ((if c = '\x00' then replacement else c) :: (readName r).1,
      (readName r).2) := by
  have hne : c ≠ '\\' := by rintro rfl; exact absurd h (by decide)
  rw [readName, if_neg hne, if_pos h]

theorem readName_newline {r : List Char} (h : startsWithNewline r = true) :
    readName ('\\' :: r) = ([], '\\' :: r) := by
  rw [readName, if_pos rfl, if_pos h]

theorem readName_of_ne {r : List Char} (hne : c ≠ '\\') (h : isNameChar c = false) :
    readName (c :: r) = ([], c :: r) := by
  rw [readName, if_neg hne, if_neg (by simp [h])]

theorem IsEdge.readName_eq (he : IsEdge edge) : readName edge = ([], edge) := by
  cases edge with
  | nil => rw [readName]
  | cons c edge => exact readName_of_ne (he.ne (by decide)) (isNameChar_eq_false he.isEdgeChar_head)

/-- A backslash at the end takes in the semicolon as the character that it escapes. -/
theorem crosses_backslash {f g : List Char → List Char} (hsuffix : ∀ t, g t <:+ t)
    (heq : ∀ r, startsWithNewline r = false → f ('\\' :: r) = g (readEscape r).2) :
    Crosses f ['\\'] := fun rest => by
  have hescape : (readEscape (';' :: rest)).2 = rest := rfl
  rw [List.singleton_append, heq _ rfl, hescape]
  exact hsuffix rest

/-- An escape, and then the rest. -/
theorem settled_escape {f g : List Char → List Char} {r : List Char}
    (hsuffix : ∀ t, g t <:+ t) (hnl : startsWithNewline r = false)
    (heq : ∀ r, startsWithNewline r = false → f ('\\' :: r) = g (readEscape r).2)
    (hg : Settled g (readEscape r).2) : Settled f ('\\' :: r) := by
  by_cases hne : r = []
  · subst hne
    exact .inl (crosses_backslash hsuffix heq)
  · refine .of_eq (fun edge _ => ?_) ((reads_readEscape hne).settled.comp hsuffix hg)
    exact heq _ (startsWithNewline_append hne edge ▸ hnl)

/-- What takes in a part of the text alone reads the same in front of all edges. -/
theorem reads_of_eq_append {α : Type} {f : List Char → α × List Char} (k : α)
    (s : List Char) (heq : ∀ edge, IsEdge edge → f (cs ++ edge) = (k, s ++ edge)) : Reads f cs :=
  .of_eq (g := fun t => (k, id t)) heq (settled_id.reads k)

/-- A name ends in front of every edge, unless the text ends in a backslash. -/
theorem reads_readName (cs : List Char) : Reads readName cs := by
  induction cs using readName.induct with
  | case1 => exact reads_of_eq_append [] [] fun edge he => he.readName_eq
  | case2 r hnl =>
    have hne : r ≠ [] := by rintro rfl; exact absurd hnl (by decide)
    exact reads_of_eq_append [] ('\\' :: r) fun edge _ =>
      readName_newline (startsWithNewline_append hne edge ▸ hnl)
  | case3 r hnl _ _ _ ih =>
    by_cases hne : r = []
    · subst hne
      exact .inl (crosses_backslash readName_suffix fun _ h => by rw [readName_escape h])
    rw [Bool.not_eq_true] at hnl
    refine ((reads_readEscape hne).comp List.cons readName_suffix ih).of_eq fun edge _ => ?_
    exact readName_escape (startsWithNewline_append hne edge ▸ hnl)
  | case4 c r hne hc _ _ _ ih =>
    refine .of_eq (fun edge _ => ?_) (ih.map (List.cons (if c = '\x00' then replacement else c)))
    exact readName_isNameChar hc
  | case5 c r hne hc =>
    exact reads_of_eq_append [] (c :: r) fun edge _ => readName_of_ne hne (by simpa using hc)

/-! ## Strings, comments and addresses -/

section Strings

variable {quote : Char} {r : List Char}

theorem skipString_cons (hq : c ≠ quote) (hnl : isNewline c = false) (hslash : c ≠ '\\') :
    skipString quote (c :: r) = skipString quote r := by
  rw [skipString, if_neg hq, if_neg (by simp [hnl]), if_neg hslash]

theorem skipString_quote : skipString quote (quote :: r) = r := by
  rw [skipString, if_pos rfl]

theorem skipString_newline (hq : c ≠ quote) (hnl : isNewline c = true) :
    skipString quote (c :: r) = c :: r := by
  rw [skipString, if_neg hq, if_pos hnl]

theorem skipString_continued (hq : '\\' ≠ quote) (hr : startsWithNewline r = true) :
    skipString quote ('\\' :: r) = skipString quote (dropOneBlank r) := by
  rw [skipString, if_neg hq, if_neg (by decide), if_pos rfl, if_pos hr]

theorem skipString_escape (hq : '\\' ≠ quote) (hr : startsWithNewline r = false) :
    skipString quote ('\\' :: r) = skipString quote (readEscape r).2 := by
  rw [skipString, if_neg hq, if_neg (by decide), if_pos rfl, if_neg (by simp [hr])]

/-- A string is open until its quote comes, or a line break. -/
theorem settled_skipString (hq : isEdgeChar quote = false) (cs : List Char) :
    Settled (skipString quote) cs := by
  induction cs using skipString.induct quote with
  | case1 =>
    refine .inl fun rest => ?_
    have hne : ';' ≠ quote := by rintro rfl; exact absurd hq (by decide)
    rw [List.nil_append, skipString_cons hne (by decide) (by decide)]
    exact skipString_suffix quote rest
  | case2 r => exact settled_of_eq_append r fun edge _ => skipString_quote
  | case3 c r hne hnl =>
    exact settled_of_eq_append (c :: r) fun edge _ => skipString_newline hne hnl
  | case4 r hnl hne _ ih =>
    have hr : r ≠ [] := by rintro rfl; exact absurd hnl (by decide)
    refine .of_eq (fun edge _ => ?_)
      (.comp (skipString_suffix quote) (.inr (ends_dropOneBlank r)) ih)
    exact skipString_continued hne (startsWithNewline_append hr edge ▸ hnl)
  | case5 r hnl hne _ ih =>
    exact settled_escape (skipString_suffix quote) (by simpa using hnl)
      (fun _ => skipString_escape hne) ih
  | case6 c r hne hnl hslash ih =>
    exact .of_eq (fun edge _ => skipString_cons hne (by simpa using hnl) hslash) ih

end Strings

/-! ### Comments -/

theorem skipComment_end (r : List Char) : skipComment ('*' :: '/' :: r) = r := rfl

theorem skipComment_cons {r : List Char} (h : c = '*' → r.head? ≠ some '/') :
    skipComment (c :: r) = skipComment r := by
  have hnone : stripMark? ['*', '/'] (c :: r) = none := by
    rw [stripMark?_eq_none_iff, List.cons_prefix_cons, List.singleton_prefix_iff_head?_eq_some]
    exact fun hp => h hp.1.symm hp.2
  rw [skipComment, cutAt?, hnone, skipComment]
  cases cutAt? ['*', '/'] r <;> rfl

/-- A comment is open until its end mark comes. -/
theorem settled_skipComment (cs : List Char) : Settled skipComment cs := by
  induction cs with
  | nil =>
    refine .inl fun rest => ?_
    rw [List.nil_append, skipComment_cons fun h => absurd h (by decide)]
    exact skipComment_suffix rest
  | cons c r ih =>
    by_cases hend : c = '*' ∧ r.head? = some '/'
    · obtain ⟨rfl, hr⟩ := hend
      obtain ⟨s, rfl⟩ := List.head?_eq_some_iff.1 hr
      exact settled_of_eq_append s fun edge _ => skipComment_end (s ++ edge)
    · refine .of_eq (fun edge he => skipComment_cons fun hc => ?_) ih
      exact fun hr => hend ⟨hc, (he.head?_append_iff (by decide)).1 hr⟩

/-! ### Addresses -/

theorem skipBadUrl_cons {r : List Char} (hc : c ≠ ')')
    (hslash : c = '\\' → r.head? ≠ some ')' ∧ r.head? ≠ some '\\') :
    skipBadUrl (c :: r) = skipBadUrl r := by
  cases r with
  | nil => simp [skipBadUrl]
  | cons d r =>
    have hd : ¬ (c = '\\' ∧ d = ')') := fun h => (hslash h.1).1 (congrArg some h.2)
    have hd' : ¬ (c = '\\' ∧ d = '\\') := fun h => (hslash h.1).2 (congrArg some h.2)
    rw [skipBadUrl.eq_def]
    split <;> simp_all

/-- What is no address is open until a round bracket closes it. -/
theorem settled_skipBadUrl (cs : List Char) : Settled skipBadUrl cs := by
  induction cs using skipBadUrl.induct with
  | case1 =>
    refine .inl fun rest => ?_
    rw [List.nil_append, skipBadUrl_cons (by decide) fun h => absurd h (by decide)]
    exact skipBadUrl_suffix rest
  | case2 r => exact settled_of_eq_append r fun edge _ => by simp [skipBadUrl]
  | case3 r ih => exact .of_eq (fun edge _ => by simp [skipBadUrl]) ih
  | case4 r ih => exact .of_eq (fun edge _ => by simp [skipBadUrl]) ih
  | case5 c r hc h1 h2 ih =>
    refine .of_eq (fun edge he => skipBadUrl_cons hc fun hslash => ?_) ih
    refine ⟨fun hr => ?_, fun hr => ?_⟩
    · obtain ⟨s, rfl⟩ := List.head?_eq_some_iff.1 ((he.head?_append_iff (by decide)).1 hr)
      exact h1 s hslash rfl
    · obtain ⟨s, rfl⟩ := List.head?_eq_some_iff.1 ((he.head?_append_iff (by decide)).1 hr)
      exact h2 s hslash rfl

/-- Blanks inside a text are told apart from those of the edge by what follows them. -/
theorem dropWhile_isBlank_append {d : Char} {s : List Char} (h : cs.dropWhile isBlank = d :: s)
    (edge : List Char) : (cs ++ edge).dropWhile isBlank = d :: s ++ edge := by
  rw [List.dropWhile_append, h]
  rfl

theorem dropWhile_isBlank_semicolon (h : cs.dropWhile isBlank = []) (rest : List Char) :
    (cs ++ ';' :: rest).dropWhile isBlank = ';' :: rest := by
  rw [List.dropWhile_append, h]
  rfl

theorem skipUrlEnd_close {s : List Char} (h : cs.dropWhile isBlank = ')' :: s) :
    skipUrlEnd cs = s := by
  rw [skipUrlEnd, h]
  rfl

theorem skipUrlEnd_of_ne {s : List Char} (h : cs.dropWhile isBlank = c :: s) (hc : c ≠ ')') :
    skipUrlEnd cs = skipBadUrl s := by
  rw [skipUrlEnd, h]
  split <;> simp_all

/-- The end of an address is open until a round bracket closes it. -/
theorem settled_skipUrlEnd (cs : List Char) : Settled skipUrlEnd cs := by
  cases hd : cs.dropWhile isBlank with
  | nil =>
    refine .inl fun rest => ?_
    rw [skipUrlEnd_of_ne (dropWhile_isBlank_semicolon hd rest) (by decide)]
    exact skipBadUrl_suffix rest
  | cons c s =>
    by_cases hc : c = ')'
    · subst hc
      exact settled_of_eq_append s fun edge _ => skipUrlEnd_close (dropWhile_isBlank_append hd edge)
    · refine .of_eq (fun edge _ => ?_) (settled_skipBadUrl s)
      exact skipUrlEnd_of_ne (dropWhile_isBlank_append hd edge) hc

section Url

variable {r : List Char}

theorem skipUrlText_close : skipUrlText (')' :: r) = r := by
  rw [skipUrlText, if_pos rfl]

theorem skipUrlText_blank (hc : isBlank c = true) : skipUrlText (c :: r) = skipUrlEnd (c :: r) := by
  have hne : c ≠ ')' := by rintro rfl; exact absurd hc (by decide)
  rw [skipUrlText, if_neg hne, if_pos hc]

theorem skipUrlText_fault (hne : c ≠ ')') (hc : isBlank c = false) (hf : isUrlFault c = true) :
    skipUrlText (c :: r) = skipBadUrl r := by
  rw [skipUrlText, if_neg hne, if_neg (by simp [hc]), if_pos hf]

theorem skipUrlText_newline (h : startsWithNewline r = true) :
    skipUrlText ('\\' :: r) = skipBadUrl r := by
  rw [skipUrlText, if_neg (by decide), if_neg (by decide), if_neg (by decide), if_pos rfl, if_pos h]

theorem skipUrlText_escape (h : startsWithNewline r = false) :
    skipUrlText ('\\' :: r) = skipUrlText (readEscape r).2 := by
  rw [skipUrlText, if_neg (by decide), if_neg (by decide), if_neg (by decide), if_pos rfl,
    if_neg (by simp [h])]

theorem skipUrlText_cons (hne : c ≠ ')') (hc : isBlank c = false) (hf : isUrlFault c = false)
    (hslash : c ≠ '\\') : skipUrlText (c :: r) = skipUrlText r := by
  rw [skipUrlText, if_neg hne, if_neg (by simp [hc]), if_neg (by simp [hf]), if_neg hslash]

end Url

/-- An address takes in a semicolon. -/
theorem crosses_skipUrlText : Crosses skipUrlText [] := fun rest => by
  rw [List.nil_append, skipUrlText_cons (by decide) (by decide) (by decide) (by decide)]
  exact skipUrlText_suffix rest

/-- An address is open until it is closed or something is found that it cannot hold. -/
theorem settled_skipUrlText (cs : List Char) : Settled skipUrlText cs := by
  induction cs using skipUrlText.induct with
  | case1 => exact .inl crosses_skipUrlText
  | case2 r => exact settled_of_eq_append r fun edge _ => skipUrlText_close
  | case3 c r _ hc =>
    refine .of_eq (s := c :: r) (fun edge _ => ?_) (settled_skipUrlEnd (c :: r))
    exact skipUrlText_blank hc
  | case4 c r hne hc hf =>
    exact .of_eq (fun edge _ => skipUrlText_fault hne (by simpa using hc) hf) (settled_skipBadUrl r)
  | case5 r hnl =>
    have hr : r ≠ [] := by rintro rfl; exact absurd hnl (by decide)
    refine .of_eq (fun edge _ => ?_) (settled_skipBadUrl r)
    exact skipUrlText_newline (startsWithNewline_append hr edge ▸ hnl)
  | case6 r hnl _ _ _ ih =>
    exact settled_escape skipUrlText_suffix (by simpa using hnl) (fun _ => skipUrlText_escape) ih
  | case7 c r hne hc hf hslash ih =>
    refine .of_eq (fun edge _ => ?_) ih
    exact skipUrlText_cons hne (by simpa using hc) (by simpa using hf) hslash

/-- What is read behind the bracket that follows a name : an address, or the bracket alone. -/
def readBracket (name r : List Char) : Kind × List Char :=
  match if isUrlName name then skipUrl? r else none with
  | some rest => (.other, rest)
  | none => (.opener ')', r)

theorem skipUrl?_of_dropWhile {d : Char} {r s : List Char} (h : r.dropWhile isBlank = d :: s) :
    skipUrl? r = if d = '"' ∨ d = '\'' then none else some (skipUrlText (d :: s)) := by
  rw [skipUrl?, h]

/-- Whether an address follows, and where it ends, can be told from the text. -/
theorem reads_readBracket (name r : List Char) : Reads (readBracket name) r := by
  by_cases hname : isUrlName name = true
  · cases hd : r.dropWhile isBlank with
    | nil =>
      refine .inl fun rest => ?_
      have heq : readBracket name (r ++ ';' :: rest) = (.other, skipUrlText (';' :: rest)) := by
        rw [readBracket, if_pos hname, skipUrl?_of_dropWhile (dropWhile_isBlank_semicolon hd rest),
          if_neg (by decide)]
      simpa only [heq, List.nil_append] using crosses_skipUrlText rest
    | cons d s =>
      have heq (edge : List Char) := skipUrl?_of_dropWhile (dropWhile_isBlank_append hd edge)
      by_cases hquote : d = '"' ∨ d = '\''
      · refine reads_of_eq_append (.opener ')') r fun edge _ => ?_
        rw [readBracket, if_pos hname, heq, if_pos hquote]
      · refine .of_eq (fun edge _ => ?_) ((settled_skipUrlText (d :: s)).reads .other)
        rw [readBracket, if_pos hname, heq, if_neg hquote]
        rfl
  · refine reads_of_eq_append (.opener ')') r fun edge _ => ?_
    rw [readBracket, if_neg hname]

/-! ## Numbers -/

/-- No edge adds a fraction to a number. -/
theorem IsEdge.skipFraction_append (he : IsEdge edge) (cs : List Char) :
    skipFraction (cs ++ edge) = skipFraction cs ++ edge := by
  have hother {c : Char} (r : List Char) (hc : c ≠ '.') : skipFraction (c :: r) = c :: r := by
    rw [skipFraction.eq_def]
    split <;> simp_all
  cases cs with
  | nil =>
    cases edge with
    | nil => rfl
    | cons c edge => exact hother edge (he.ne (by decide))
  | cons c r =>
    by_cases hc : c = '.'
    · subst hc
      rw [List.cons_append]
      simp only [skipFraction, he.startsWithDigit_append]
      split
      · exact he.dropWhile_append (fun _ => isDigit_eq_false) r
      · rfl
    · rw [List.cons_append, hother _ hc, hother _ hc, List.cons_append]

theorem skipExponent_of_ne {r : List Char} (h : c ≠ 'e' ∧ c ≠ 'E') :
    skipExponent (c :: r) = c :: r := by
  cases r with
  | nil => rfl
  | cons s r => simp [skipExponent, h]

/-- No edge adds an exponent to a number. -/
theorem IsEdge.skipExponent_append (he : IsEdge edge) (cs : List Char) :
    skipExponent (cs ++ edge) = skipExponent cs ++ edge := by
  match cs with
  | [] =>
    cases edge with
    | nil => rfl
    | cons c edge => exact skipExponent_of_ne ⟨he.ne (by decide), he.ne (by decide)⟩
  | [c] =>
    cases edge with
    | nil => rfl
    | cons s edge =>
      have hsign : ¬ (s = '+' ∨ s = '-') := by
        exact not_or.2 ⟨he.ne (by decide), he.ne (by decide)⟩
      simp [skipExponent, isDigit_eq_false he.isEdgeChar_head, hsign]
  | c :: s :: r =>
    have hdigits := he.dropWhile_append (fun _ => isDigit_eq_false) r
    simp only [List.cons_append, skipExponent, he.startsWithDigit_append, hdigits]
    (repeat' split) <;> rfl

/-- A backslash at the end makes a name of the semicolon behind it. -/
theorem IsOpenName.startsName {rest : List Char} (h : IsOpenName cs) :
    startsName (cs ++ ';' :: rest) = true := by
  obtain rfl | rfl := h <;> rfl

theorem crosses_readName_backslash : Crosses (fun t => (readName t).2) ['\\'] :=
  crosses_backslash readName_suffix fun _ h => by rw [readName_escape h]

/-- A name with a backslash at its end takes in a semicolon. -/
theorem IsOpenName.crosses_readName (h : IsOpenName cs) : Crosses (fun t => (readName t).2) cs := by
  obtain rfl | rfl := h
  · exact crosses_readName_backslash
  · refine .of_eq (fun edge _ => ?_) crosses_readName_backslash
    rw [List.cons_append, readName_isNameChar (by decide)]

/-- A unit ends with its name, or with the percent sign. -/
theorem settled_skipUnit (cs : List Char) : Settled skipUnit cs := by
  have hother {t : List Char} (ht : t.head? ≠ some '%') :
      skipUnit t = if startsName t then (readName t).2 else t := by
    rw [skipUnit.eq_def]
    split
    · simp at ht
    · rfl
  by_cases hpercent : cs.head? = some '%'
  · obtain ⟨r, rfl⟩ := List.head?_eq_some_iff.1 hpercent
    exact settled_of_eq_append r fun edge _ => rfl
  have hedge {edge : List Char} (he : IsEdge edge) : (cs ++ edge).head? ≠ some '%' :=
    fun h => hpercent ((he.head?_append_iff (by decide)).1 h)
  by_cases hopen : IsOpenName cs
  · refine .inl fun rest => ?_
    rw [hother (hedge (.semicolon rest)), if_pos hopen.startsName]
    exact hopen.crosses_readName rest
  by_cases hname : startsName cs = true
  · refine .of_eq (fun edge he => ?_) (reads_readName cs).settled
    rw [hother (hedge he), if_pos (by rwa [he.startsName_append hopen])]
  · refine settled_of_eq_append cs fun edge he => ?_
    rw [hother (hedge he), if_neg (by rwa [he.startsName_append hopen])]

/-- A number ends with its last character, or with its unit. -/
theorem settled_skipNumber (c : Char) (cs : List Char) : Settled (skipNumber c) cs := by
  refine .of_eq (fun edge he => ?_) (settled_skipUnit
    (skipExponent (if c = '.' then cs.dropWhile Char.isDigit
      else skipFraction (cs.dropWhile Char.isDigit))))
  rw [skipNumber, he.dropWhile_append (fun _ => isDigit_eq_false)]
  split <;> simp only [he.skipFraction_append, he.skipExponent_append]

/-! ## Tokens -/

/-- A name that no bracket follows is an identifier. -/
theorem readNamed_eq_ident (h : (readName cs).2.head? ≠ some '(') :
    readNamed cs = (.ident (readName cs).1, (readName cs).2) := by
  rw [readNamed]
  split
  · rename_i name r hn
    simp [hn] at h
  · rename_i name rest _ hn
    rw [hn]

/-- A name with a bracket behind it opens a block or an address. -/
theorem readNamed_eq_bracket {r : List Char} (h : (readName cs).2 = '(' :: r) :
    readNamed cs = readBracket (readName cs).1 r := by
  have hpair : readName cs = ((readName cs).1, '(' :: r) := by rw [← h]
  rw [readNamed, hpair]
  rfl

/-- What is left starts with a mark that no edge starts with only if it did without the edge. -/
theorem Leaves.head?_ne {d : Char} {s t : List Char} (hl : Leaves edge s t) (he : IsEdge edge)
    (hd : isEdgeChar d = false) (h : s.head? ≠ some d) : t.head? ≠ some d := by
  cases s with
  | cons e s =>
    rw [hl.eq_of_cons]
    exact h
  | nil => exact fun ht => h (((hl.isEdge_of_nil he).head?_append_iff hd).1 ht)

/-- A name and what its bracket makes of it can be told from the text. -/
theorem reads_readNamed (cs : List Char) : Reads readNamed cs := by
  obtain hname | ⟨hends, hfst⟩ := reads_readName cs
  · exact .inl fun rest => (readNamed_suffix _).trans (hname rest)
  by_cases hhead : (readName cs).2.head? = some '('
  · obtain ⟨r, hr⟩ := List.head?_eq_some_iff.1 hhead
    refine .of_eq (fun edge he => ?_) (reads_readBracket (readName cs).1 r)
    have hrest : (readName (cs ++ edge)).2 = '(' :: (r ++ edge) :=
      Leaves.eq_of_cons (hr ▸ hends edge he)
    rw [readNamed_eq_bracket hrest, hfst edge he]
  · refine .of_eq (fun edge he => ?_) ((reads_readName cs).settled.reads (.ident (readName cs).1))
    rw [readNamed_eq_ident ((hends edge he).head?_ne he (by decide) hhead), hfst edge he]

/-- Blanks are skipped up to one end in front of all edges. -/
theorem ends_dropWhile_isBlank (cs : List Char) : Ends (List.dropWhile isBlank) cs := by
  intro edge he
  cases hd : cs.dropWhile isBlank with
  | nil =>
    rw [List.dropWhile_append, hd]
    refine .blanks (edge.takeWhile isBlank) (fun c hc => List.mem_takeWhile_imp hc) ?_
    exact List.takeWhile_append_dropWhile.symm
  | cons d s =>
    rw [dropWhile_isBlank_append hd]
    exact .all (d :: s)

theorem drop_append_of_stripMark? {mark : List Char} (h : (stripMark? mark cs).isSome = true)
    (t : List Char) : (cs ++ t).drop mark.length = cs.drop mark.length ++ t :=
  List.drop_append_of_le_length (isSome_stripMark?_iff.1 h).length_le

/-- What begins neither a name nor a mark ends in front of every edge alike, or takes in a
semicolon. -/
theorem settled_skipOther (c : Char) (r : List Char) : Settled (skipOther c) r := by
  by_cases hopen : c = '#' ∧ IsOpenName r
  · refine .inl fun rest => ?_
    rw [skipOther, if_pos ⟨hopen.1, .inl hopen.2.startsName⟩]
    exact hopen.2.crosses_readName rest
  have hkey {edge : List Char} (he : IsEdge edge) :
      (c = '#' ∧ (startsName (r ++ edge) ∨ startsWithDigit (r ++ edge) ∨
        (r ++ edge).head? = some '-')) ↔
      (c = '#' ∧ (startsName r ∨ startsWithDigit r ∨ r.head? = some '-')) :=
    and_congr_right fun hc => by
      rw [he.startsName_append fun h => hopen ⟨hc, h⟩, he.startsWithDigit_append,
        he.head?_append_iff (by decide)]
  have hnumber {edge : List Char} (he : IsEdge edge) :
      startsNumber (c :: (r ++ edge)) = startsNumber (c :: r) := he.startsNumber_append (c :: r)
  have hclosing {edge : List Char} (he : IsEdge edge) :=
    he.isSome_stripMark?_append (m := ['-', '>']) (by decide) r
  by_cases h1 : c = '#' ∧ (startsName r ∨ startsWithDigit r ∨ r.head? = some '-')
  · refine .of_eq (fun edge he => ?_) (reads_readName r).settled
    rw [skipOther, if_pos ((hkey he).2 h1)]
  by_cases h2 : startsNumber (c :: r) = true
  · refine .of_eq (fun edge he => ?_) (settled_skipNumber c r)
    rw [skipOther, if_neg (mt (hkey he).1 h1), if_pos ((hnumber he).trans h2)]
  by_cases h3 : c = '-' ∧ (stripMark? ['-', '>'] r).isSome = true
  · refine settled_of_eq_append (r.drop 2) fun edge he => ?_
    rw [skipOther, if_neg (mt (hkey he).1 h1), hnumber he, if_neg h2, hclosing he, if_pos h3]
    exact drop_append_of_stripMark? h3.2 edge
  by_cases h4 : c = '<' ∧ (stripMark? ['!', '-', '-'] r).isSome = true
  · refine settled_of_eq_append (r.drop 3) fun edge he => ?_
    rw [skipOther, if_neg (mt (hkey he).1 h1), hnumber he, if_neg h2, hclosing he, if_neg h3,
      he.isSome_stripMark?_opening, if_pos h4]
    exact drop_append_of_stripMark? h4.2 edge
  · refine settled_of_eq_append r fun edge he => ?_
    rw [skipOther, if_neg (mt (hkey he).1 h1), hnumber he, if_neg h2, hclosing he, if_neg h3,
      he.isSome_stripMark?_opening, if_neg h4]

theorem IsOpenName.isNamed {rest : List Char} (h : IsOpenName cs) :
    isNamed (cs ++ ';' :: rest) = true := by
  obtain rfl | rfl := h <;> rfl

/-- Whether a name starts here does not depend on the edge. -/
theorem IsEdge.isNamed_append (he : IsEdge edge) (hopen : ¬ IsOpenName cs) :
    isNamed (cs ++ edge) = isNamed cs := by
  have hmark := he.isSome_stripMark?_append (m := ['-', '-', '>']) (by decide) cs
  rw [isNamed, isNamed, he.startsName_append hopen, he.startsNumber_append,
    ← Option.not_isSome, ← Option.not_isSome, hmark]

/-- The kind of a token that is no mark, blank, string or comment, and what follows it. -/
def readWord (c : Char) (r : List Char) : Kind × List Char :=
  if c = '@' ∧ startsName r then (.atKeyword, (readName r).2)
  else if isNamed (c :: r) then readNamed (c :: r)
  else (.other, skipOther c r)

/-- What starts with an at sign or a name, or with anything else, ends in front of every edge alike,
or takes in a semicolon. -/
theorem reads_readWord (c : Char) (r : List Char) : Reads (readWord c) r := by
  by_cases hat : c = '@' ∧ IsOpenName r
  · refine .inl fun rest => ?_
    show (readWord c (r ++ ';' :: rest)).2 <:+ rest
    rw [readWord, if_pos ⟨hat.1, hat.2.startsName⟩]
    exact hat.2.crosses_readName rest
  have hrule {edge : List Char} (he : IsEdge edge) :
      (c = '@' ∧ startsName (r ++ edge) = true) ↔ (c = '@' ∧ startsName r = true) :=
    and_congr_right fun hc => by rw [he.startsName_append fun h => hat ⟨hc, h⟩]
  by_cases hkeyword : c = '@' ∧ startsName r = true
  · refine .of_eq (fun edge he => ?_) ((reads_readName r).settled.reads .atKeyword)
    rw [readWord, if_pos ((hrule he).2 hkeyword)]
  have hword {edge : List Char} (he : IsEdge edge) : readWord c (r ++ edge) =
      if isNamed (c :: r ++ edge) then readNamed (c :: r ++ edge)
      else (.other, skipOther c (r ++ edge)) := by
    rw [readWord, if_neg (mt (hrule he).1 hkeyword), List.cons_append]
  by_cases hopen : IsOpenName (c :: r)
  · refine .inl fun rest => ?_
    show (readWord c (r ++ ';' :: rest)).2 <:+ rest
    rw [hword (.semicolon rest), if_pos hopen.isNamed]
    exact (readNamed_suffix _).trans (hopen.crosses_readName rest)
  by_cases hnamed : isNamed (c :: r) = true
  · refine .of_eq (fun edge he => ?_) (reads_readNamed (c :: r))
    rw [hword he, if_pos (by rwa [he.isNamed_append hopen])]
  · refine .of_eq (fun edge he => ?_) ((settled_skipOther c r).reads .other)
    rw [hword he, if_neg (by rwa [he.isNamed_append hopen])]

/-- How a token is read that is not a single mark. -/
theorem readToken_of_none (h : markKind? c = none) (r : List Char) : readToken c r =
    if isBlank c then (.blank, r.dropWhile isBlank)
    else if c = '"' ∨ c = '\'' then (.other, skipString c r)
    else if c = '/' ∧ r.head? = some '*' then (.comment, skipComment r.tail)
    else readWord c r := by
  rw [readToken, h]
  rfl

/-- A token is open, or its kind and its end can be told in front of every edge. -/
theorem reads_readToken (c : Char) (r : List Char) : Reads (readToken c) r := by
  cases hmark : markKind? c with
  | some kind =>
    refine reads_of_eq_append kind r fun edge _ => ?_
    rw [readToken, hmark]
  | none =>
    by_cases hblank : isBlank c = true
    · have hends : Settled (List.dropWhile isBlank) r := .inr (ends_dropWhile_isBlank r)
      refine .of_eq (fun edge _ => ?_) (hends.reads .blank)
      rw [readToken_of_none hmark, if_pos hblank]
    by_cases hquote : c = '"' ∨ c = '\''
    · have hq : isEdgeChar c = false := by obtain rfl | rfl := hquote <;> rfl
      refine .of_eq (fun edge _ => ?_) ((settled_skipString hq r).reads .other)
      rw [readToken_of_none hmark, if_neg hblank, if_pos hquote]
    by_cases hcomment : c = '/' ∧ r.head? = some '*'
    · obtain ⟨s, rfl⟩ := List.head?_eq_some_iff.1 hcomment.2
      refine .of_eq (fun edge _ => ?_) ((settled_skipComment s).reads .comment)
      rw [readToken_of_none hmark, if_neg hblank, if_neg hquote, if_pos ⟨hcomment.1, rfl⟩]
      rfl
    · refine .of_eq (fun edge he => ?_) (reads_readWord c r)
      rw [readToken_of_none hmark, if_neg hblank, if_neg hquote,
        if_neg fun h => hcomment ⟨h.1, (he.head?_append_iff (by decide)).1 h.2⟩]

end SvgComponent.Css
