import Mathlib.Data.List.DropRight
import Mathlib.Data.Prod.Lex
import Mathlib.Order.Monotone.Defs
import SvgComponent.Proofs.Text.Slicing
import SvgComponent.Text.LineIndex

/-!
# Lines and columns of a text

The place behind some characters from the start of a text is told by the line breaks among them
and by the characters since the last of these (`Position.behind`). An index finds it for every
offset that is a character boundary, and there a greater offset has a greater place
(`LineIndex.position_exact`).

The search is judged by how the starts of the lines are split at an offset (`lineAt_of_split`),
the starts by what each character of a text adds to them (`exists_starts_eq`). Reading along the
text leads to the same place as the index, also inside a character (`ofOffset_eq_position`).
-/

namespace SvgComponent

open Text

/-! ## The last line -/

namespace Text

/-- The characters since the last line break. -/
def lastLine (cs : List Char) : List Char :=
  cs.rtakeWhile (· ≠ '\n')

/-- The offset at which the last line starts. -/
def lastStart (cs : List Char) : Nat :=
  width (cs.rdropWhile (· ≠ '\n'))

theorem utf8Size_newline : '\n'.utf8Size = 1 := rfl

variable (cs : List Char) (c : Char)

theorem count_newline_concat :
    (cs ++ [c]).count '\n' = if c = '\n' then cs.count '\n' + 1 else cs.count '\n' := by
  by_cases hc : c = '\n' <;> simp [hc]

theorem lastLine_concat :
    lastLine (cs ++ [c]) = if c = '\n' then [] else lastLine cs ++ [c] := by
  rw [lastLine, List.rtakeWhile_concat]
  by_cases hc : c = '\n' <;> simp [hc, lastLine]

theorem lastStart_concat :
    lastStart (cs ++ [c]) = if c = '\n' then width cs + 1 else lastStart cs := by
  rw [lastStart, List.rdropWhile_concat]
  by_cases hc : c = '\n' <;> simp [hc, lastStart, utf8Size_newline]

/-- The last line goes from its start to the end. -/
theorem lastStart_add_width_lastLine : lastStart cs + width (lastLine cs) = width cs := by
  rw [lastStart, lastLine, ← width_append, List.rdropWhile_append_rtakeWhile]

theorem slice?_lastLine (after : List Char) :
    slice? (lastStart cs) (width cs) (cs ++ after) = some (lastLine cs) := by
  refine slice?_eq_some_iff.2 ⟨_, after, ?_, rfl, lastStart_add_width_lastLine cs⟩
  rw [← List.append_assoc, lastLine, List.rdropWhile_append_rtakeWhile]

/-- A character takes at least one byte. -/
theorem length_le_width : cs.length ≤ width cs := by
  induction cs with
  | nil => exact Nat.le_refl 0
  | cons c cs ih =>
    have := c.utf8Size_pos
    rw [List.length_cons, width_cons]
    omega

/-- The line breaks lie in front of the last line. -/
theorem count_newline_le_lastStart : cs.count '\n' ≤ lastStart cs := by
  induction cs using List.reverseRecOn with
  | nil => exact Nat.zero_le _
  | append_singleton cs c ih =>
    have := lastStart_add_width_lastLine cs
    rw [count_newline_concat, lastStart_concat]
    split_ifs
    · omega
    · exact ih

end Text

/-! ## The place behind a text -/

namespace Position

/-- The place behind some characters from the start of a text. -/
def behind (before : List Char) : Position :=
  ⟨before.count '\n' + 1, (lastLine before).length + 1⟩

/-- Places are ordered by the line, and on one line by the column. -/
instance : Preorder Position :=
  Preorder.lift fun place => toLex (place.line, place.column)

theorem lt_iff {p q : Position} :
    p < q ↔ p.line < q.line ∨ p.line = q.line ∧ p.column < q.column :=
  Prod.Lex.toLex_lt_toLex

variable (before : List Char) (c : Char)

/-- A line break leads to the next line, and any other character to the next column. -/
theorem behind_concat :
    behind (before ++ [c]) =
      if c = '\n' then ⟨(behind before).line + 1, 1⟩
      else ⟨(behind before).line, (behind before).column + 1⟩ := by
  rw [behind, lastLine_concat, count_newline_concat]
  by_cases hc : c = '\n' <;> simp [hc, behind]

/-- Every character leads further on. -/
theorem behind_lt_behind_concat : behind before < behind (before ++ [c]) := by
  rw [behind_concat, lt_iff]
  split_ifs
  · exact .inl (Nat.lt_succ_self _)
  · exact .inr ⟨rfl, Nat.lt_succ_self _⟩

/-- Every character moves the place on. -/
theorem behind_lt_behind_append (between : List Char) :
    behind before < behind (before ++ c :: between) := by
  induction between generalizing before c with
  | nil => exact behind_lt_behind_concat before c
  | cons d between ih =>
    calc behind before < behind (before ++ [c]) := behind_lt_behind_concat before c
      _ < behind (before ++ [c] ++ d :: between) := ih (before ++ [c]) d
      _ = behind (before ++ c :: d :: between) := by rw [List.append_assoc]; rfl

/-- A line break and a character of the last line are different bytes. -/
theorem line_add_column_behind_le :
    (behind before).line + (behind before).column ≤ width before + 2 := by
  have hlines := count_newline_le_lastStart before
  have hlast := lastStart_add_width_lastLine before
  have hlength := length_le_width (lastLine before)
  rw [behind]
  dsimp only
  omega

end Position

/-! ## Boundaries -/

namespace Text

/-- Whether an offset is the end of some characters from the start of a text. -/
def IsBoundary (text : List Char) (offset : Nat) : Prop :=
  ∃ before after, text = before ++ after ∧ width before = offset

variable {text before after : List Char} {c : Char} {offset : Nat}

/-- There is no boundary inside a character. -/
theorem not_isBoundary_inside (hfront : width before < offset)
    (hback : offset < width before + c.utf8Size) : ¬ IsBoundary (before ++ c :: after) offset := by
  rintro ⟨front, back, he, rfl⟩
  rcases List.append_eq_append_iff.1 he with ⟨between, rfl, hrest⟩ | ⟨between, rfl, -⟩
  · rw [width_append] at hfront hback
    cases between with
    | nil => simp at hfront
    | cons d between =>
      obtain ⟨rfl, -⟩ := List.cons.inj hrest
      rw [width_cons] at hback
      omega
  · rw [width_append] at hfront
    omega

/-- Of two boundaries the greater one is behind more characters. -/
theorem exists_between {a b : Nat} (ha : IsBoundary text a) (hb : IsBoundary text b)
    (hlt : a < b) :
    ∃ before c between after, text = before ++ c :: between ++ after ∧ width before = a ∧
      width (before ++ c :: between) = b := by
  obtain ⟨before, rest, rfl, rfl⟩ := ha
  obtain ⟨front, after, he, rfl⟩ := hb
  rcases List.append_eq_append_iff.1 he with ⟨between, rfl, -⟩ | ⟨between, rfl, -⟩
  · cases between with
    | nil => simp at hlt
    | cons c between => exact ⟨before, c, between, after, he, rfl, rfl⟩
  · rw [width_append] at hlt
    omega

/-- An offset lies behind the characters that end in front of it, by less than the bytes of the
character that follows. -/
theorem exists_split_at (text : List Char) (offset : Nat) :
    ∃ before after k, text = before ++ after ∧ offset = width before + k ∧
      ∀ c ∈ after.head?, k < c.utf8Size := by
  induction text generalizing offset with
  | nil => exact ⟨[], [], offset, rfl, (Nat.zero_add _).symm, by simp⟩
  | cons d text ih =>
    by_cases hd : offset < d.utf8Size
    · exact ⟨[], d :: text, offset, rfl, (Nat.zero_add _).symm, by simpa using hd⟩
    · obtain ⟨before, after, k, rfl, hk, hafter⟩ := ih (offset - d.utf8Size)
      exact ⟨d :: before, after, k, rfl, by rw [width_cons]; omega, hafter⟩

end Text

namespace LineIndex

/-! ## The search -/

/-- What the answer to a search says : where the number is, or where the numbers in front of it
end and those behind it begin. -/
def Answers (xs : Array Nat) (x : Nat) : Except Nat Nat → Prop
  | .ok i => xs[i]? = some x
  | .error i => ∀ j s, xs[j]? = some s → (j < i → s < x) ∧ (i ≤ j → x < s)

/-- In front of the first index the numbers are smaller than the one looked for, from the second
on greater. Halving keeps it so, as the numbers increase. -/
theorem answers_search {xs : Array Nat} {x lo hi : Nat} {inside : hi ≤ xs.size}
    (hxs : xs.toList.Pairwise (· < ·)) (hle : lo ≤ hi)
    (hbelow : ∀ j s, xs[j]? = some s → j < lo → s < x)
    (habove : ∀ j s, xs[j]? = some s → hi ≤ j → x < s) :
    Answers xs x (search xs x lo hi inside) := by
  have hlt {i j s t : Nat} (hij : i < j) (hs : xs[i]? = some s) (ht : xs[j]? = some t) : s < t := by
    obtain ⟨hi, rfl⟩ := Array.getElem?_eq_some_iff.1 hs
    obtain ⟨hj, rfl⟩ := Array.getElem?_eq_some_iff.1 ht
    exact List.pairwise_iff_getElem.1 hxs i j hi hj hij
  fun_induction search xs x lo hi inside with
  | case1 lo hi _ _ mid hmid heq => exact Array.getElem?_eq_some_iff.2 ⟨hmid, heq⟩
  | case2 lo hi _ _ mid hmid _ hless ih =>
    refine ih (by omega) (fun j s hs hj => ?_) habove
    have hget : xs[mid]? = some xs[mid] := Array.getElem?_eq_getElem hmid
    rcases Nat.lt_succ_iff_lt_or_eq.1 hj with hj | rfl
    · exact (hlt hj hs hget).trans hless
    · rw [hget] at hs
      cases hs
      exact hless
  | case3 lo hi _ _ mid hmid hne hless ih =>
    refine ih (by omega) hbelow fun j s hs hj => ?_
    have hget : xs[mid]? = some xs[mid] := Array.getElem?_eq_getElem hmid
    have hgreater : x < xs[mid] := by omega
    rcases Nat.eq_or_lt_of_le hj with rfl | hj
    · rw [hget] at hs
      cases hs
      exact hgreater
    · exact hgreater.trans (hlt hj hget hs)
  | case4 lo hi _ hge =>
    exact fun j s hs => ⟨hbelow j s hs, fun hj => habove j s hs (by omega)⟩

/-- The search for an offset among the starts of the lines gives a right answer. -/
theorem answers_starts (index : LineIndex) (offset : Nat) :
    Answers index.starts offset
      (search index.starts offset 0 index.starts.size (Nat.le_refl _)) :=
  answers_search index.increasing (Nat.zero_le _) (fun _ _ _ h => absurd h (Nat.not_lt_zero _))
    fun _ _ hs hj => absurd (Array.getElem?_eq_some_iff.1 hs).1 (Nat.not_lt.2 hj)

section Split

variable {index : LineIndex} {earlier later : List Nat} {start : Nat}

theorem getElem?_starts_of_split (hstarts : index.starts.toList = earlier ++ start :: later) :
    index.starts[earlier.length]? = some start := by
  rw [← Array.getElem?_toList, hstarts, List.getElem?_append_right (Nat.le_refl _), Nat.sub_self,
    List.getElem?_cons_zero]

/-- The starts of earlier lines are smaller. -/
theorem lt_start_of_split (hstarts : index.starts.toList = earlier ++ start :: later) {j s : Nat}
    (hs : index.starts[j]? = some s) (hj : j < earlier.length) : s < start := by
  have hincreasing := index.increasing
  rw [← Array.getElem?_toList, hstarts, List.getElem?_append_left hj] at hs
  rw [hstarts] at hincreasing
  exact (List.pairwise_append.1 hincreasing).2.2 s (List.mem_of_getElem? hs) start
    List.mem_cons_self

/-- The starts with greater numbers are those of later lines. -/
theorem mem_later_of_split (hstarts : index.starts.toList = earlier ++ start :: later) {j s : Nat}
    (hs : index.starts[j]? = some s) (hj : earlier.length < j) : s ∈ later := by
  obtain ⟨k, rfl⟩ := Nat.exists_eq_add_of_lt hj
  rw [← Array.getElem?_toList, hstarts, List.getElem?_append_right (by omega), Nat.add_assoc,
    Nat.add_sub_cancel_left, List.getElem?_cons_succ] at hs
  exact List.mem_of_getElem? hs

/-- The line of an offset is the last of those that start at it or in front of it. -/
theorem lineAt_of_split {offset : Nat} (hstarts : index.starts.toList = earlier ++ start :: later)
    (hle : start ≤ offset) (hlater : ∀ s ∈ later, offset < s) :
    index.lineAt offset = earlier.length := by
  have hanswers := answers_starts index offset
  have hbehind {j s : Nat} (hs : index.starts[j]? = some s) (hj : earlier.length < j) :
      offset < s :=
    hlater s (mem_later_of_split hstarts hs hj)
  rw [lineAt]
  cases h : search index.starts offset 0 index.starts.size (Nat.le_refl _) with
  | ok i =>
    rw [h] at hanswers
    rcases Nat.lt_trichotomy i earlier.length with hi | hi | hi
    · exact absurd hle (Nat.not_le.2 (lt_start_of_split hstarts hanswers hi))
    · exact hi
    · exact absurd (hbehind hanswers hi) (Nat.lt_irrefl _)
  | error i =>
    -- The offset is no start, so it would stand right behind the last start in front of it.
    rw [h] at hanswers
    have hpast : earlier.length < i := Nat.lt_of_not_le fun hi =>
      absurd hle (Nat.not_le.2 ((hanswers _ _ (getElem?_starts_of_split hstarts)).2 hi))
    have hsize : i ≤ index.starts.size := le_of_search_eq_error (Nat.zero_le _) h
    have hnext : i ≤ earlier.length + 1 := Nat.le_of_not_lt fun hi => by
      have hs : index.starts[earlier.length + 1]? = some index.starts[earlier.length + 1] :=
        Array.getElem?_eq_getElem (by omega)
      exact Nat.lt_asymm ((hanswers _ _ hs).1 hi) (hbehind hs (Nat.lt_succ_self _))
    show i - 1 = earlier.length
    omega

end Split

/-! ## The index of a text -/

variable {before after : List Char} {k : Nat}

/-- In front of a place in a text as many lines have ended as there are line breaks, then comes
the start of the last one. -/
theorem exists_starts_eq (before after : List Char) :
    ∃ earlier, earlier.length = before.count '\n' ∧
      (ofText (before ++ after)).starts.toList =
        earlier ++ lastStart before :: startsFrom (width before) after := by
  -- From the end : the next character either ends the last line or is on it.
  induction before using List.reverseRecOn generalizing after with
  | nil => exact ⟨[], rfl, rfl⟩
  | append_singleton before c ih =>
    obtain ⟨earlier, hlength, hstarts⟩ := ih (c :: after)
    have hwidth : width (before ++ [c]) = width before + c.utf8Size := by
      rw [width_append, width_cons, width_nil, Nat.add_zero]
    rw [← List.append_cons, hstarts, startsFrom, lastStart_concat, hwidth, count_newline_concat]
    split_ifs
    · exact ⟨earlier ++ [lastStart before], by rw [List.length_append, hlength]; rfl,
        List.append_cons ..⟩
    · exact ⟨earlier, hlength, rfl⟩

/-- Lines that start later do so behind the next character. -/
theorem add_lt_of_mem_startsFrom {n s : Nat} {cs : List Char}
    (hk : ∀ c ∈ cs.head?, k < c.utf8Size) (h : s ∈ startsFrom n cs) : n + k < s := by
  cases cs with
  | nil => cases h
  | cons c cs =>
    have hc : k < c.utf8Size := hk c rfl
    rw [startsFrom] at h
    split_ifs at h with hnewline
    · rw [hnewline, utf8Size_newline] at hc
      rcases List.mem_cons.1 h with rfl | h
      · omega
      · have := lt_of_mem_startsFrom h
        omega
    · have := lt_of_mem_startsFrom h
      omega

/-- The line of an offset and where it starts, told by the characters that end in front of the
offset. -/
theorem lineAt_ofText (before : List Char) (hk : ∀ c ∈ after.head?, k < c.utf8Size) :
    (ofText (before ++ after)).lineAt (width before + k) = before.count '\n' ∧
      (ofText (before ++ after)).starts[before.count '\n']? = some (lastStart before) := by
  obtain ⟨earlier, hlength, hstarts⟩ := exists_starts_eq before after
  have hle : lastStart before ≤ width before := by
    have := lastStart_add_width_lastLine before
    omega
  constructor
  · rw [← hlength]
    exact lineAt_of_split hstarts (by omega) fun s hs => add_lt_of_mem_startsFrom hk hs
  · rw [← hlength]
    exact getElem?_starts_of_split hstarts

/-! ## Places -/

/-- The place of an offset is told by its line and by the characters from the start of that. -/
theorem position_eq {index : LineIndex} {text : List Char} {offset line start : Nat}
    (hline : index.lineAt (min offset (width text)) = line)
    (hstart : index.starts[line]? = some start) :
    index.position text offset = ⟨line + 1,
      (match slice? start (min offset (width text)) text with
        | some cs => cs.length
        | none => min offset (width text) - start) + 1⟩ := by
  subst hline
  obtain ⟨_, rfl⟩ := Array.getElem?_eq_some_iff.1 hstart
  rfl

/-- At a boundary the place is the one behind the characters in front of it. -/
theorem position_boundary (before after : List Char) :
    (ofText (before ++ after)).position (before ++ after) (width before) = .behind before := by
  have hmin : min (width before) (width (before ++ after)) = width before := by
    rw [width_append]
    omega
  have hk : ∀ c ∈ after.head?, 0 < c.utf8Size := fun c _ => c.utf8Size_pos
  obtain ⟨hline, hstart⟩ := lineAt_ofText before hk
  rw [position_eq (by rw [hmin]; exact hline) hstart, hmin, slice?_lastLine]
  rfl

/-- Inside a character the column counts bytes. -/
theorem position_inside {c : Char} (hpos : 0 < k) (hk : k < c.utf8Size) :
    (ofText (before ++ c :: after)).position (before ++ c :: after) (width before + k) =
      ⟨before.count '\n' + 1, width (lastLine before) + k + 1⟩ := by
  have hmin : min (width before + k) (width (before ++ c :: after)) = width before + k := by
    rw [width_append, width_cons]
    omega
  have hhead : ∀ d ∈ (c :: after).head?, k < d.utf8Size := by simpa using hk
  obtain ⟨hline, hstart⟩ := lineAt_ofText before hhead
  have hslice : slice? (lastStart before) (width before + k) (before ++ c :: after) = none := by
    refine Option.eq_none_iff_forall_ne_some.2 fun cs h => ?_
    obtain ⟨front, back, he, hfront, hstop⟩ := slice?_eq_some_iff.1 h
    have hboundary : IsBoundary (before ++ c :: after) (width before + k) :=
      ⟨front ++ cs, back, by rw [he, List.append_assoc], by rw [width_append, hfront, hstop]⟩
    exact not_isBoundary_inside (by omega) (by omega) hboundary
  have hcolumn : width before + k - lastStart before = width (lastLine before) + k := by
    have := lastStart_add_width_lastLine before
    omega
  rw [position_eq (by rw [hmin]; exact hline) hstart, hmin, hslice]
  dsimp only
  rw [hcolumn]

-- So the places inside a character need not lie in front of the one behind it.
example : (ofText ['é', '😀']).position ['é', '😀'] 5 = ⟨1, 6⟩ ∧
    (ofText ['é', '😀']).position ['é', '😀'] 6 = ⟨1, 3⟩ := by cbv

theorem position_of_width_le {index : LineIndex} {text : List Char} {offset : Nat}
    (h : width text ≤ offset) : index.position text offset = index.position text (width text) := by
  rw [position, position, Nat.min_eq_right h, Nat.min_self]

/-- The end of a text is behind all its characters. -/
theorem position_end (before : List Char) (k : Nat) :
    (ofText before).position before (width before + k) = .behind before := by
  have hend := position_boundary before []
  rw [List.append_nil] at hend
  rw [position_of_width_le (Nat.le_add_right ..), hend]

end LineIndex

/-! ## Reading along -/

namespace Position

/-- Reading from behind some characters over more of them leads behind all of them. -/
theorem advance_behind (front before after : List Char) (k : Nat) :
    advance (behind front) (width (lastLine front)) (before ++ after) (width before + k) =
      advance (behind (front ++ before)) (width (lastLine (front ++ before))) after k := by
  -- The reader carries the place and the bytes of the last line, so each step is `behind_concat`.
  induction before generalizing front with
  | nil => rw [List.append_nil, List.nil_append, width_nil, Nat.zero_add]
  | cons c before ih =>
    have hpos := c.utf8Size_pos
    have hstep := ih (front ++ [c])
    rw [List.append_assoc, List.singleton_append] at hstep
    have hrest : width (c :: before) + k - c.utf8Size = width before + k := by
      rw [width_cons]
      omega
    rw [List.cons_append, advance, if_neg (by rw [width_cons]; omega),
      if_neg (by rw [width_cons]; omega), hrest, ← hstep, behind_concat, lastLine_concat]
    split_ifs
    · rfl
    · rw [width_append]
      rfl

/-- Reading along goes on from the place behind the characters that have been read. -/
theorem ofOffset_append (before after : List Char) (k : Nat) :
    ofOffset (before ++ after) (width before + k) =
      advance (behind before) (width (lastLine before)) after k :=
  advance_behind [] before after k

/-- Reading along the text and looking up the index lead to the same place. -/
theorem ofOffset_eq_position (text : List Char) (offset : Nat) :
    ofOffset text offset = (LineIndex.ofText text).position text offset := by
  obtain ⟨before, after, k, rfl, rfl, hk⟩ := exists_split_at text offset
  rw [ofOffset_append]
  cases after with
  | nil => rw [advance, List.append_nil, LineIndex.position_end]
  | cons c after =>
    rw [advance]
    rcases Nat.eq_zero_or_pos k with rfl | hpos
    · rw [if_pos rfl, Nat.add_zero, LineIndex.position_boundary]
    · have hc : k < c.utf8Size := hk c rfl
      rw [if_neg (Nat.ne_of_gt hpos), if_pos hc, LineIndex.position_inside hpos hc]
      rfl

end Position

/-! ## All places of a text -/

namespace LineIndex

variable (text : List Char)

/-- A greater boundary has a greater place. -/
theorem strictMonoOn_position :
    StrictMonoOn ((ofText text).position text) {offset | IsBoundary text offset} := by
  intro a ha b hb hlt
  obtain ⟨before, c, between, after, rfl, rfl, rfl⟩ := exists_between ha hb hlt
  have hfront := position_boundary before (c :: between ++ after)
  rw [← List.append_assoc] at hfront
  rw [hfront, position_boundary]
  exact Position.behind_lt_behind_append before c between

/-- Numbers that hold the size of the text and one more hold every line and column. -/
theorem line_add_column_position_le (offset : Nat) :
    ((ofText text).position text offset).line + ((ofText text).position text offset).column ≤
      min offset (width text) + 2 := by
  obtain ⟨before, after, k, rfl, rfl, hk⟩ := exists_split_at text offset
  have hbehind := Position.line_add_column_behind_le before
  cases after with
  | nil =>
    rw [List.append_nil, position_end]
    omega
  | cons c after =>
    rcases Nat.eq_zero_or_pos k with rfl | hpos
    · rw [Nat.add_zero, position_boundary, width_append]
      omega
    · have hc : k < c.utf8Size := hk c rfl
      have hlines := count_newline_le_lastStart before
      have hlast := lastStart_add_width_lastLine before
      rw [position_inside hpos hc, width_append, width_cons]
      dsimp only
      omega

/-- The place of a boundary is told by the line breaks in front of it and by the characters since
the last of them, an offset behind the end has the place of the end, and a greater boundary has a
greater place, so that no two of them share one. Reading along the text leads to the same places,
and none has a line and a column that come to more than the bytes in front of it and two. -/
theorem position_exact :
    (∀ before after, text = before ++ after →
      (ofText text).position text (width before) =
        ⟨1 + before.count '\n', 1 + (lastLine before).length⟩) ∧
    (∀ offset, width text ≤ offset →
      (ofText text).position text offset = (ofText text).position text (width text)) ∧
    StrictMonoOn ((ofText text).position text) {offset | IsBoundary text offset} ∧
    Set.InjOn ((ofText text).position text) {offset | IsBoundary text offset} ∧
    ∀ offset,
      Position.ofOffset text offset = (ofText text).position text offset ∧
      ((ofText text).position text offset).line + ((ofText text).position text offset).column ≤
        min offset (width text) + 2 := by
  refine ⟨?_, fun _ h => position_of_width_le h, strictMonoOn_position text,
    (strictMonoOn_position text).injOn, fun offset =>
      ⟨Position.ofOffset_eq_position text offset, line_add_column_position_le text offset⟩⟩
  rintro before after rfl
  rw [position_boundary, Position.behind, Nat.add_comm 1, Nat.add_comm 1]

/-- A text with an empty line and with characters of more than one byte. -/
theorem position_exact_emptyLine :
    let text := ['é', '\n', '\n', '😀']
    (text = ['é', '\n', '\n'] ++ ['😀'] ∧ (ofText text).position text 4 = ⟨3, 1⟩) ∧
      (width text ≤ 100 ∧ (ofText text).position text 100 = (ofText text).position text 8) ∧
      (IsBoundary text 3 ∧ IsBoundary text 4 ∧
        (ofText text).position text 3 < (ofText text).position text 4) ∧
      (IsBoundary text 2 ∧ IsBoundary text 8 ∧
        (ofText text).position text 2 ≠ (ofText text).position text 8) := by
  intro text
  obtain ⟨hplace, hpast, hless, hinj, -⟩ := position_exact text
  have h2 : IsBoundary text 2 := ⟨['é'], ['\n', '\n', '😀'], rfl, rfl⟩
  have h3 : IsBoundary text 3 := ⟨['é', '\n'], ['\n', '😀'], rfl, rfl⟩
  have h4 : IsBoundary text 4 := ⟨['é', '\n', '\n'], ['😀'], rfl, rfl⟩
  have h8 : IsBoundary text 8 := ⟨text, [], rfl, rfl⟩
  refine ⟨⟨rfl, hplace ['é', '\n', '\n'] ['😀'] rfl⟩, ⟨by decide, hpast 100 (by decide)⟩,
    ⟨h3, h4, hless h3 h4 (by decide)⟩, h2, h8, fun h => ?_⟩
  exact absurd (hinj h2 h8 h) (by decide)

end LineIndex

end SvgComponent
