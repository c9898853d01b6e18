import SvgComponent.Proofs.Json.Cursors
import SvgComponent.Proofs.Json.Numerals
import SvgComponent.Proofs.Json.Quotes

/-!
# Reading texts with the same tokens

Readers look at tokens only. `Agree` says of two readers that from texts that are alike they get to
the same value and to texts that are alike again, or both fail; which fault they fail with depends
on the gaps as well, for a gap behind a word that is cut short tells that the text goes on.
`Agree.bind` puts readers in sequence, with a lemma for each reader from `peek` to `skipValue`.

The steps of a loop are bounded by the characters of its own text, so the two readers are not the
same one, and the bounds are kept with the cursors (`Within`). On the way both readers stay in their
texts (`Reaches`), failures included (`LiesAhead`) : with one text taken twice this is the place of
every failure.
-/

namespace SvgComponent.Json

open Text Reader

variable {α β σ : Type} {n m i k : Nat} {c d : Cursor}
  {R : List Char → List Char → Prop} {Q : α → List Char → List Char → Prop}
  {S : β → List Char → List Char → Prop}

/-! ## Two runs -/

/-- Two runs come to the same value at least `k` characters further on, with texts left as `Q` says,
or both fail. -/
inductive Alike (k : Nat) (c d : Cursor) (Q : α → List Char → List Char → Prop) :
    Except Failure (α × Cursor) → Except Failure (α × Cursor) → Prop
  | ok {a : α} {c' d' : Cursor} (hc : Reaches k c c') (hd : Reaches k d d')
    (h : Q a c'.rest d'.rest) : Alike k c d Q (.ok (a, c')) (.ok (a, d'))
  | error {f f' : Failure} (hc : LiesAhead c f) (hd : LiesAhead d f') :
    Alike k c d Q (.error f) (.error f')

/-- What is left is shorter than `n`, and not longer than the cursor's limit. -/
structure Within (n : Nat) (cur : Cursor) : Prop where
  length_lt : cur.rest.length < n
  length_le : cur.rest.length ≤ cur.limit

/-- Every step forward leaves less to read. -/
theorem Within.of_reaches {cur' : Cursor} (h : Within n c) (hr : Reaches i c cur') :
    Within (n - i) cur' := by
  obtain ⟨hlt, hle⟩ := h
  have hlength := hr.length_add_le
  obtain ⟨-, -, -, -, hlimit⟩ := hr
  exact ⟨by omega, by omega⟩

/-- The limit of a cursor bounds what is left. -/
theorem Within.of_limit (h : Within n c) : Within (c.limit + 1) c :=
  ⟨Nat.lt_succ_of_le h.length_le, h.length_le⟩

/-- Two readers come to the same from texts that are alike. -/
structure Agree (n m k : Nat) (R : List Char → List Char → Prop) (r r' : Reader α)
    (Q : α → List Char → List Char → Prop) : Prop where
  alike : ∀ {c d : Cursor}, Within n c → Within m d → R c.rest d.rest → Alike k c d Q (r c) (r' d)

/-- A failure that has its place, which is the one that is got to from its cursor. -/
def settled (reach : Cursor → Cursor) : Failure → Failure
  | .open fault cur => .placed fault (reach cur).place
  | failure => failure

/-- A failure that is given the place of a later cursor still lies ahead. -/
theorem LiesAhead.settled {reach : Cursor → Cursor} {f : Failure} (hf : LiesAhead c f)
    (hreach : ∀ cur, Reaches 0 cur (reach cur)) : LiesAhead c (settled reach f) := by
  cases f with
  | placed fault place => exact hf
  | «open» fault cur => exact (Reaches.trans hf (hreach cur)).exists_place_eq

theorem located_eq (r : Reader α) (cur : Cursor) :
    located r cur = (r cur).mapError (settled id) := by
  rw [Reader.located]
  rcases r cur with (_ | _) | _ <;> rfl

namespace Agree

variable {r r' : Reader α}

/-- No text is shorter than nothing. -/
theorem zero_left : Agree 0 m k R r r' Q :=
  ⟨fun hc => absurd hc.length_lt (Nat.not_lt_zero _)⟩

theorem zero_right : Agree n 0 k R r r' Q :=
  ⟨fun _ hd => absurd hd.length_lt (Nat.not_lt_zero _)⟩

theorem pure {a : α} (h : ∀ {x y}, R x y → Q a x y) : Agree n m 0 R (pure a) (pure a) Q :=
  ⟨fun _ _ hr => .ok (.refl _) (.refl _) (h hr)⟩

theorem failAt (shift shift' : Nat) (fault fault' : Fault) :
    Agree n m k R (failAt shift fault) (failAt shift' fault') Q :=
  ⟨fun _ _ _ => .error ⟨shift, rfl⟩ ⟨shift', rfl⟩⟩

theorem fail (fault fault' : Fault) : Agree n m k R (fail fault) (fail fault') Q :=
  ⟨fun _ _ _ => .error (.refl _) (.refl _)⟩

/-- Readers that agree, and do so in what they go on with, agree one after the other. -/
theorem bind {f f' : α → Reader β} (hr : Agree n m i R r r' Q)
    (hf : ∀ a, Agree (n - i) (m - i) (k - i) (Q a) (f a) (f' a) S) :
    Agree n m k R (r >>= f) (r' >>= f') S := by
  refine ⟨fun {c d} hc hd h => ?_⟩
  have hrun := hr.alike hc hd h
  show Alike k c d S (Except.bind (r c) fun p => f p.1 p.2) (Except.bind (r' d) fun p => f' p.1 p.2)
  generalize r c = x at hrun
  generalize r' d = y at hrun
  cases hrun with
  | error hf hf' => exact .error hf hf'
  | @ok a c' d' hc' hd' hq =>
    have hnext := (hf a).alike (hc.of_reaches hc') (hd.of_reaches hd') hq
    show Alike k c d S (f a c') (f' a d')
    generalize f a c' = x at hnext
    generalize f' a d' = y at hnext
    cases hnext with
    | ok hc'' hd'' hs => exact .ok (hc'.trans hc'') (hd'.trans hd'') hs
    | error hf hf' => exact .error (hf.of_reaches hc') (hf'.of_reaches hd')

/-- Readers that agree from some texts on agree from fewer texts on. -/
theorem pre {R' : List Char → List Char → Prop} (hr : Agree n m k R r r' Q)
    (h : ∀ {x y}, R' x y → R x y) : Agree n m k R' r r' Q :=
  ⟨fun hc hd hr' => hr.alike hc hd (h hr')⟩

/-- Less may be said of what is left, and of how far the readers get. -/
theorem weaken {Q' : α → List Char → List Char → Prop} (hr : Agree n m k R r r' Q)
    (h : ∀ {a x y}, Q a x y → Q' a x y) (hi : i ≤ k) : Agree n m i R r r' Q' := by
  refine ⟨fun {c d} hc hd h' => ?_⟩
  have hrun := hr.alike hc hd h'
  generalize r c = x at hrun
  generalize r' d = y at hrun
  cases hrun with
  | ok hc' hd' hq => exact .ok (hc'.weaken hi) (hd'.weaken hi) (h hq)
  | error hf hf' => exact .error hf hf'

/-- What is done with the value does not need the text. -/
theorem map {f : α → β} (hr : Agree n m k R r r' Q) (h : ∀ {a x y}, Q a x y → S (f a) x y) :
    Agree n m k R (do return f (← r)) (do return f (← r')) S :=
  hr.bind fun a => by
    rw [Nat.sub_self]
    exact .pure h

/-- Giving a failure its place changes no agreement. -/
theorem located (hr : Agree n m k R r r' Q) : Agree n m k R (located r) (located r') Q := by
  refine ⟨fun {c d} hc hd h => ?_⟩
  have hrun := hr.alike hc hd h
  rw [located_eq, located_eq]
  generalize r c = x at hrun
  generalize r' d = y at hrun
  cases hrun with
  | ok hc' hd' hq => exact .ok hc' hd' hq
  | error hf hf' => exact .error (hf.settled .refl) (hf'.settled .refl)

end Agree

/-! ## Tokens -/

/-- In front of the same token, whose first character is the one given, or at the end. -/
def AtHead (h : Option Char) (x y : List Char) : Prop :=
  Faces x y ∧ x.head? = h

theorem AtHead.sameTokens {h : Option Char} {x y : List Char} (hx : AtHead h x y) :
    SameTokens x y :=
  hx.1.sameTokens

/-- The next token starts with the same character in both texts. -/
theorem agree_peek : Agree n m 0 SameTokens peek peek AtHead := by
  refine ⟨fun {c d} _ _ h => ?_⟩
  have hfaces : Faces c.gapped.rest d.gapped.rest := faces_skipGap h
  have hpeek (cur : Cursor) : peek cur = .ok (cur.gapped.rest.head?, cur.gapped) := rfl
  rw [hpeek, hpeek, ← hfaces.head?_eq]
  exact .ok (.gapped c) (.gapped d) ⟨hfaces, rfl⟩

/-- A character that both texts start with is passed over in both. -/
theorem agree_next {P : List Char → List Char → Prop}
    (h : ∀ {x y}, R x y → ∃ a x' y', x = a :: x' ∧ y = a :: y' ∧ P x' y') :
    Agree n m 1 R next next fun _ => P := by
  refine ⟨fun {c d} _ _ hr => ?_⟩
  obtain ⟨rest, place, limit⟩ := c
  obtain ⟨rest', place', limit'⟩ := d
  obtain ⟨a, x, y, rfl, rfl, hp⟩ := h hr
  exact .ok (.next a x place limit) (.next a y place' limit') hp

/-- Behind a mark the texts have the same tokens. -/
theorem agree_next_mark {a : Char} (ha : isPunctuation a = true) :
    Agree n m 1 (AtHead (some a)) next next fun _ => SameTokens := by
  refine agree_next fun ⟨hf, hx⟩ => ?_
  obtain ⟨x, rfl⟩ := List.head?_eq_some_iff.1 hx
  obtain ⟨y, rfl, h⟩ := hf.of_mark ha
  exact ⟨a, x, y, rfl, rfl, h⟩

/-- Behind a letter of a word the texts are in that word. -/
theorem agree_next_letter {a : Char} (ha : isWordChar a = true) :
    Agree n m 1 (AtHead (some a)) next next fun _ => InWord := by
  refine agree_next fun ⟨hf, hx⟩ => ?_
  obtain ⟨x, rfl⟩ := List.head?_eq_some_iff.1 hx
  obtain ⟨y, rfl, h⟩ := hf.of_letter ha
  exact ⟨a, x, y, rfl, rfl, h⟩

/-- Behind a quote the texts are in the same string. -/
theorem agree_next_quote : Agree n m 1 (AtHead (some '"')) next next fun _ => InQuotes := by
  refine agree_next fun ⟨hf, hx⟩ => ?_
  obtain ⟨x, rfl⟩ := List.head?_eq_some_iff.1 hx
  obtain ⟨y, rfl, h⟩ := hf.of_quote
  exact ⟨'"', x, y, rfl, rfl, h⟩

/-- What reads alike is read alike as part of a text. -/
theorem agree_lift {f : List Char → Numeral.Located (α × Nat × List Char)}
    (h : ∀ {x y}, R x y → ReadAlike k x y (f x) (f y)) :
    Agree n m k R (lift f) (lift f) fun _ => SameTokens := by
  refine ⟨fun {c d} _ _ hr => ?_⟩
  have hread := h hr
  rw [lift, lift]
  generalize f c.rest = x at hread
  generalize f d.rest = y at hread
  cases hread with
  | ok hk hx hy hs => exact .ok (.lift hk hx) (.lift hk hy) hs
  | error => exact .error ⟨_, rfl⟩ ⟨_, rfl⟩

/-- The rest of a word is there in both texts or in none. -/
theorem agree_literal {cs : List Char} (hcs : cs.all isWordChar = true) :
    Agree n m 0 InWord (literal cs) (literal cs) fun _ => InWord := by
  induction cs generalizing n m with
  | nil => exact .pure id
  | cons a cs ih =>
    obtain ⟨ha, hcs⟩ := Bool.and_eq_true_iff.1 hcs
    have hsame : Agree n m 0 (fun x y => InWord x y ∧ x.head? = some a)
        (next >>= fun _ => literal cs)
        (next >>= fun _ => literal cs) fun _ => InWord := by
      refine .bind (agree_next fun ⟨hw, hx⟩ => ?_) fun _ => ih hcs
      obtain ⟨x, rfl⟩ := List.head?_eq_some_iff.1 hx
      obtain ⟨y, rfl, h⟩ := hw.of_cons ha
      exact ⟨a, x, y, rfl, rfl, h⟩
    have hliteral (cur : Cursor) : literal (a :: cs) cur =
        if cur.rest.head? = some a then (next >>= fun _ => literal cs) cur
        else if cur.rest = [] then failAt 0 .endInValue cur else failAt 1 .literalExpected cur := by
      obtain ⟨rest, place, limit⟩ := cur
      cases rest with
      | nil => rfl
      | cons b rest =>
        simp only [List.head?_cons, Option.some.injEq, reduceCtorEq, if_false]
        by_cases hb : b = a
        · subst hb
          rw [if_pos rfl, literal]
          show (if b = b then _ else _ : Reader Unit) _ = _
          rw [if_pos rfl]
        · rw [if_neg hb, literal]
          show (if b = a then _ else _ : Reader Unit) _ = _
          rw [if_neg hb]
    refine ⟨fun {c d} hc hd hw => ?_⟩
    rw [hliteral, hliteral]
    by_cases hx : c.rest.head? = some a
    · have hy : d.rest.head? = some a := by
        obtain ⟨x, hrest⟩ := List.head?_eq_some_iff.1 hx
        rw [hrest] at hw
        obtain ⟨y, hrest', -⟩ := hw.of_cons ha
        rw [hrest']
        rfl
      rw [if_pos hx, if_pos hy]
      exact hsame.alike hc hd ⟨hw, hx⟩
    · have hy : d.rest.head? ≠ some a := by
        intro hy
        obtain ⟨y, hrest⟩ := List.head?_eq_some_iff.1 hy
        rw [hrest] at hw
        obtain ⟨x, hrest'⟩ := hw.symm_head ha
        rw [hrest'] at hx
        exact hx rfl
      rw [if_neg hx, if_neg hy]
      split_ifs <;> exact .error ⟨_, rfl⟩ ⟨_, rfl⟩

/-! ## Scalars -/

theorem agree_quoted : Agree n m 1 InQuotes quoted quoted fun _ => SameTokens :=
  .map (agree_lift endsAtQuote_unquote.readAlike) id

theorem agree_skipString : Agree n m 1 InQuotes skipString skipString fun _ => SameTokens :=
  agree_lift endsAtQuote_skipQuoted.readAlike

/-- What is read off a word is read off the word that two texts are in. -/
theorem agree_lift_word {f : List Char → Numeral.Located (α × Nat × List Char)}
    (h : ∀ {word x y}, CommonWord word x y →
      ReadAlike 1 (word ++ x) (word ++ y) (f (word ++ x)) (f (word ++ y))) :
    Agree n m 1 InWord (lift f) (lift f) fun _ => SameTokens :=
  agree_lift fun hw => by
    obtain ⟨word, x, y, hword, rfl, rfl⟩ := hw.exists_commonWord
    exact h hword

theorem AtHead.inWord {a : Char} {x y : List Char} (h : AtHead (some a) x y)
    (ha : isWordChar a = true) : InWord x y := by
  obtain ⟨hf, hx⟩ := h
  obtain ⟨x, rfl⟩ := List.head?_eq_some_iff.1 hx
  exact hf.inWord ha

theorem isWordChar_of_isNumeral {a : Char} (ha : a = '-' ∨ a.isDigit = true) :
    isWordChar a = true := by
  obtain rfl | hd := ha
  · decide
  · exact (isWordChar_of_isDigit hd).1

/-- Both texts have the same number. -/
theorem agree_numeral {a : Char} (ha : a = '-' ∨ a.isDigit = true) :
    Agree n m 1 (AtHead (some a)) (numeral a) (numeral a) fun _ => SameTokens := by
  have hword := isWordChar_of_isNumeral ha
  rw [numeral]
  split_ifs
  · exact .bind (agree_next_letter hword) fun _ =>
      (agree_lift_word (readAlike_read false)).weaken id (Nat.zero_le 1)
  · exact (agree_lift_word (readAlike_read true)).pre fun h => h.inWord hword

/-- The number that is passed over is the same in both texts. -/
theorem agree_skipNumeral {a : Char} (ha : a = '-' ∨ a.isDigit = true) :
    Agree n m 1 (AtHead (some a)) (skipNumeral a) (skipNumeral a) fun _ => SameTokens := by
  have hword := isWordChar_of_isNumeral ha
  have hskip {n m} : Agree n m 1 InWord (lift fun cs => valueless (Numeral.skip 0 cs))
      (lift fun cs => valueless (Numeral.skip 0 cs)) fun _ => SameTokens :=
    agree_lift_word readAlike_skip
  rw [skipNumeral]
  split_ifs
  · exact .bind (agree_next_letter hword) fun _ => hskip.weaken id (Nat.zero_le 1)
  · exact hskip.pre fun h => h.inWord hword

/-! ## Containers -/

/-- A list ends in both texts or in none. -/
theorem agree_endList : Agree n m 0 SameTokens endList endList fun _ => SameTokens := by
  refine .bind agree_peek fun h => ?_
  split
  · exact (agree_next_mark (by decide)).weaken id (Nat.zero_le 1)
  · refine .bind (agree_next_mark (by decide)) fun _ => .bind agree_peek fun h => ?_
    split <;> exact .failAt ..
  · exact .failAt ..
  · exact .failAt ..

/-- An object ends in both texts or in none. -/
theorem agree_endObject : Agree n m 0 SameTokens endObject endObject fun _ => SameTokens := by
  refine .bind agree_peek fun h => ?_
  split
  · exact (agree_next_mark (by decide)).weaken id (Nat.zero_le 1)
  all_goals exact .failAt ..

/-- The place of a fault in a list is not in front of it. -/
theorem reaches_endListCursor (cur : Cursor) : Reaches 0 cur (endListCursor cur) := by
  have hgap := Reaches.gapped cur
  rw [endListCursor]
  generalize cur.gapped = gapped at hgap
  obtain ⟨rest, place, limit⟩ := gapped
  dsimp only
  split
  · exact hgap.trans ((Reaches.next ..).weaken (Nat.zero_le 1))
  · exact hgap.trans (((Reaches.next ..).weaken (Nat.zero_le 1)).trans (.gapped _))
  · exact hgap

/-- The place of a fault in an object is not in front of it. -/
theorem reaches_endObjectCursor (cur : Cursor) : Reaches 0 cur (endObjectCursor cur) := by
  have hgap := Reaches.gapped cur
  rw [endObjectCursor]
  generalize cur.gapped = gapped at hgap
  obtain ⟨rest, place, limit⟩ := gapped
  dsimp only
  split
  · exact hgap.trans ((Reaches.next ..).weaken (Nat.zero_le 1))
  · exact hgap

/-- A container is its first mark, its entries, and its end; faults of the entries are given the
place where the container breaks off. -/
theorem container_eq {depth : Nat} (hd : depth ≠ 0) (entries : Reader α) (finish : Reader Unit)
    (reach : Cursor → Cursor) (cur : Cursor) :
    container depth entries finish reach cur =
      (((next >>= fun _ => entries) cur).mapError (settled reach)).bind fun p =>
        (finish p.2).map fun q => (p.1, q.2) := by
  rw [container, if_neg hd]
  generalize (next >>= fun _ => entries) cur = x
  obtain (_ | _) | ⟨a, cur'⟩ := x
  · rfl
  · rfl
  · dsimp only [Except.mapError, Except.bind]
    cases finish cur' <;> rfl

/-- Containers agree if what reads their entries and what ends them does. -/
theorem agree_container {mark : Char} (hmark : isPunctuation mark = true) (depth : Nat)
    {entries entries' : Reader α} {finish : Reader Unit} {reach : Cursor → Cursor}
    (he : Agree (n - 1) (m - 1) 0 SameTokens entries entries' fun _ => SameTokens)
    (hf : ∀ {n m}, Agree n m 0 SameTokens finish finish fun _ => SameTokens)
    (hreach : ∀ cur, Reaches 0 cur (reach cur)) :
    Agree n m 1 (AtHead (some mark)) (container depth entries finish reach)
      (container depth entries' finish reach) fun _ => SameTokens := by
  by_cases hdepth : depth = 0
  · rw [container, container, if_pos hdepth, if_pos hdepth]
    exact .failAt ..
  have hinner : Agree n m 1 (AtHead (some mark)) (next >>= fun _ => entries)
      (next >>= fun _ => entries') fun _ => SameTokens :=
    .bind (agree_next_mark hmark) fun _ => he
  refine ⟨fun {c d} hc hd h => ?_⟩
  have hrun := hinner.alike hc hd h
  rw [container_eq hdepth, container_eq hdepth]
  generalize (next >>= fun _ => entries) c = x at hrun
  generalize (next >>= fun _ => entries') d = y at hrun
  cases hrun with
  | error hf hf' => exact .error (hf.settled hreach) (hf'.settled hreach)
  | @ok a c' d' hc' hd' hs =>
    have hend := hf.alike (hc.of_reaches hc') (hd.of_reaches hd') hs
    show Alike 1 c d _ ((finish c').map _) ((finish d').map _)
    generalize finish c' = x at hend
    generalize finish d' = y at hend
    cases hend with
    | ok hc'' hd'' hs => exact .ok (hc'.trans hc'') (hd'.trans hd'') hs
    | error hf hf' => exact .error (hf.of_reaches hc') (hf'.of_reaches hd')

theorem agree_readList (depth : Nat) {entries entries' : Reader α}
    (he : Agree (n - 1) (m - 1) 0 SameTokens entries entries' fun _ => SameTokens) :
    Agree n m 1 (AtHead (some '[')) (readList depth entries) (readList depth entries')
      fun _ => SameTokens :=
  agree_container (by decide) depth he agree_endList reaches_endListCursor

theorem agree_readObject (depth : Nat) {members members' : Reader α}
    (hm : Agree (n - 1) (m - 1) 0 SameTokens members members' fun _ => SameTokens) :
    Agree n m 1 (AtHead (some '{')) (readObject depth members) (readObject depth members')
      fun _ => SameTokens :=
  agree_container (by decide) depth hm agree_endObject reaches_endObjectCursor

/-! ## Entries -/

/-- There is another item in both texts or in none. -/
theorem agree_hasItem (first : Bool) :
    Agree n m 0 SameTokens (hasItem first) (hasItem first) fun _ => SameTokens := by
  refine .bind agree_peek fun h => ?_
  split
  · exact .failAt ..
  · exact .pure AtHead.sameTokens
  · rename_i a _
    split_ifs with hfirst hcomma
    · exact .pure AtHead.sameTokens
    · subst hcomma
      refine (Agree.bind (agree_next_mark (by decide)) fun _ => .bind agree_peek fun h => ?_).weaken
        id (Nat.zero_le 0)
      split
      · exact .failAt ..
      · exact .pure AtHead.sameTokens
      · exact .failAt ..
    · exact .failAt ..

/-- In front of a key, if there is one. -/
def AtKey (there : Bool) (x y : List Char) : Prop :=
  if there then AtHead (some '"') x y else SameTokens x y

/-- There is another key in both texts or in none. -/
theorem agree_hasKey (first : Bool) :
    Agree n m 0 SameTokens (hasKey first) (hasKey first) AtKey := by
  refine .bind agree_peek fun h => ?_
  split
  · exact .failAt ..
  · exact .pure AtHead.sameTokens
  · split_ifs with hfirst hquote hcomma
    · subst hquote
      exact .pure id
    · exact .failAt ..
    · subst hcomma
      refine .bind (agree_next_mark (by decide)) fun _ => .bind agree_peek fun h => ?_
      split
      · exact .pure id
      all_goals exact .failAt ..
    · exact .failAt ..

/-- A colon follows in both texts or in none. -/
theorem agree_colon : Agree n m 1 SameTokens colon colon fun _ => SameTokens := by
  refine .bind agree_peek fun h => ?_
  split
  · exact agree_next_mark (by decide)
  · exact .failAt ..
  · exact .failAt ..

/-- The items of a list come to the same if each of them does; the induction is on how much is left
of one text. -/
theorem agree_foldItemsIn {step step' : σ → Reader σ}
    (hstep : ∀ s, ∀ {n m}, Agree n m 1 SameTokens (step s) (step' s) fun _ => SameTokens)
    (first : Bool) (s : σ) :
    Agree n m 0 SameTokens (foldItemsIn step n first s) (foldItemsIn step' m first s)
      fun _ => SameTokens := by
  induction n generalizing m first s with
  | zero => exact .zero_left
  | succ n ih =>
    cases m with
    | zero => exact .zero_right
    | succ m =>
      refine .bind (agree_hasItem first) fun there => ?_
      cases there with
      | false => exact .pure id
      | true => exact .bind (hstep s) fun s => ih false s

/-- The bounds of the two loops are those of their texts and do not matter. -/
theorem agree_foldItems {step step' : σ → Reader σ}
    (hstep : ∀ s, ∀ {n m}, Agree n m 1 SameTokens (step s) (step' s) fun _ => SameTokens) (s : σ) :
    Agree n m 0 SameTokens (foldItems step s) (foldItems step' s) fun _ => SameTokens :=
  ⟨fun hc hd h => (agree_foldItemsIn hstep true s).alike hc.of_limit hd.of_limit h⟩

/-- The members of an object come to the same if each of them does. -/
theorem agree_foldMembersIn {step step' : σ → String → Reader σ}
    (hstep : ∀ s key, ∀ {n m},
      Agree n m 0 SameTokens (step s key) (step' s key) fun _ => SameTokens)
    (first : Bool) (s : σ) :
    Agree n m 0 SameTokens (foldMembersIn step n first s) (foldMembersIn step' m first s)
      fun _ => SameTokens := by
  induction n generalizing m first s with
  | zero => exact .zero_left
  | succ n ih =>
    cases m with
    | zero => exact .zero_right
    | succ m =>
      refine .bind (agree_hasKey first) fun there => ?_
      cases there with
      | false => exact .pure id
      | true =>
        refine .bind agree_next_quote fun _ => ?_
        refine .bind (agree_quoted.weaken id (Nat.zero_le 1)) fun key => ?_
        exact .bind (hstep s key) fun s => ih false s

theorem agree_foldMembers {step step' : σ → String → Reader σ}
    (hstep : ∀ s key, ∀ {n m},
      Agree n m 0 SameTokens (step s key) (step' s key) fun _ => SameTokens)
    (s : σ) :
    Agree n m 0 SameTokens (foldMembers step s) (foldMembers step' s) fun _ => SameTokens :=
  ⟨fun hc hd h => (agree_foldMembersIn hstep true s).alike hc.of_limit hd.of_limit h⟩

/-! ## Values -/

theorem agree_letters {a : Char} {cs : List Char} (ha : isWordChar a = true)
    (hcs : cs.all isWordChar = true) :
    Agree n m 1 (AtHead (some a)) (do next; literal cs) (do next; literal cs) fun _ => SameTokens :=
  .bind (agree_next_letter ha) fun _ => (agree_literal hcs).weaken And.left (Nat.le_refl 0)

/-- A literal is read, whatever it stands for. -/
theorem agree_word {a : Char} {cs : List Char} (ha : isWordChar a = true)
    (hcs : cs.all isWordChar = true) (value : α) :
    Agree n m 1 (AtHead (some a)) (do next; literal cs; return value)
      (do next; literal cs; return value) fun _ => SameTokens :=
  .bind (agree_next_letter ha) fun _ => .bind (agree_literal hcs) fun _ => .pure And.left

/-- Values come to the same if the values in them do. -/
theorem agree_valueWith (depth : Nat) {inner : Reader Json}
    (hi : ∀ {n m}, Agree n m 1 SameTokens inner inner fun _ => SameTokens) :
    Agree n m 1 SameTokens (valueWith depth inner) (valueWith depth inner) fun _ => SameTokens := by
  refine .bind agree_peek fun h => ?_
  split
  · exact .failAt ..
  · exact agree_word (by decide) (by decide) Json.null
  · exact agree_word (by decide) (by decide) (Json.bool true)
  · exact agree_word (by decide) (by decide) (Json.bool false)
  · exact .bind agree_next_quote fun _ => (agree_quoted.map id).weaken id (Nat.zero_le 1)
  · refine .bind (agree_readList depth (agree_foldItems (fun items => ?_) [])) fun items => ?_
    · exact hi.map id
    · exact .pure id
  · refine .bind (agree_readObject depth (agree_foldMembers (fun members key => ?_) []))
      fun members => ?_
    · exact .bind agree_colon fun _ => (hi.map id).weaken id (Nat.zero_le 1)
    · exact .pure id
  · split_ifs with ha
    · exact (agree_numeral ha).map id
    · exact .failAt ..

/-- Values come to the same, however deep they may nest. -/
theorem agree_value (depth : Nat) :
    Agree n m 1 SameTokens (value depth) (value depth) fun _ => SameTokens := by
  induction depth generalizing n m with
  | zero => exact agree_valueWith 0 (.failAt ..)
  | succ depth ih => exact agree_valueWith (depth + 1) ih

/-! ## Passing over a value -/

/-- The key that is passed over is the same in both texts. -/
theorem agree_skipKey : Agree n m 1 SameTokens skipKey skipKey fun _ => SameTokens := by
  refine .bind agree_peek fun h => ?_
  split
  · refine .bind agree_next_quote fun _ => ?_
    refine .bind (agree_skipString.weaken id (Nat.zero_le 1)) fun _ => ?_
    exact agree_colon.weaken id (Nat.zero_le 1)
  · exact .failAt ..
  · exact .failAt ..

/-- Passing over takes at most two steps for each character of the text. -/
theorem agree_skipIn (p : Nat) : ∀ {n m q},
    (2 * n ≤ p + 1 → 2 * m ≤ q + 1 →
      Agree n m 1 SameTokens (skipValueIn p) (skipValueIn q) fun _ => SameTokens) ∧
    (2 * n ≤ p → 2 * m ≤ q →
      Agree n m 1 SameTokens (skipItemsIn p) (skipItemsIn q) fun _ => SameTokens) ∧
    (2 * n ≤ p → 2 * m ≤ q →
      Agree n m 1 SameTokens (skipMembersIn p) (skipMembersIn q) fun _ => SameTokens) := by
  induction p with
  | zero =>
    intro n m q
    refine ⟨fun hn _ => ?_, fun hn _ => ?_, fun hn _ => ?_⟩
    all_goals
      obtain rfl : n = 0 := by omega
      exact .zero_left
  | succ p ih =>
    intro n m q
    cases q with
    | zero =>
      refine ⟨fun _ hm => ?_, fun _ hm => ?_, fun _ hm => ?_⟩
      all_goals
        obtain rfl : m = 0 := by omega
        exact .zero_right
    | succ q =>
      refine ⟨fun hn hm => ?_, fun hn hm => ?_, fun hn hm => ?_⟩
      · rw [skipValueIn, skipValueIn]
        refine .bind agree_peek fun h => ?_
        split
        · exact .failAt ..
        · exact agree_letters (by decide) (by decide)
        · exact agree_letters (by decide) (by decide)
        · exact agree_letters (by decide) (by decide)
        · exact .bind agree_next_quote fun _ => agree_skipString.weaken id (Nat.zero_le 1)
        · refine .bind (agree_next_mark (by decide)) fun _ => .bind agree_peek fun h => ?_
          split
          · exact (agree_next_mark (by decide)).weaken id (Nat.zero_le 1)
          · exact ((ih.2.1 (by omega) (by omega)).pre AtHead.sameTokens).weaken id (Nat.zero_le 1)
          · exact .failAt ..
        · refine .bind (agree_next_mark (by decide)) fun _ => .bind agree_peek fun h => ?_
          split
          · exact (agree_next_mark (by decide)).weaken id (Nat.zero_le 1)
          · exact ((ih.2.2 (by omega) (by omega)).pre AtHead.sameTokens).weaken id (Nat.zero_le 1)
          · exact .failAt ..
        · split_ifs with ha
          · exact agree_skipNumeral ha
          · exact .failAt ..
      · rw [skipItemsIn, skipItemsIn]
        refine .bind (ih.1 (by omega) (by omega)) fun _ => .bind agree_peek fun h => ?_
        split
        · refine .bind (agree_next_mark (by decide)) fun _ => ?_
          exact (ih.2.1 (by omega) (by omega)).weaken id (Nat.zero_le 1)
        · exact (agree_next_mark (by decide)).weaken id (Nat.zero_le 1)
        · exact .failAt ..
        · exact .failAt ..
      · rw [skipMembersIn, skipMembersIn]
        refine .bind agree_skipKey fun _ => ?_
        refine .bind ((ih.1 (by omega) (by omega)).weaken id (Nat.zero_le 1)) fun _ => ?_
        refine .bind agree_peek fun h => ?_
        split
        · refine .bind (agree_next_mark (by decide)) fun _ => ?_
          exact (ih.2.2 (by omega) (by omega)).weaken id (Nat.zero_le 1)
        · exact (agree_next_mark (by decide)).weaken id (Nat.zero_le 1)
        · exact .failAt ..
        · exact .failAt ..

/-- The value that is passed over is the same in both texts. -/
theorem agree_skipValue : Agree n m 1 SameTokens skipValue skipValue fun _ => SameTokens :=
  ⟨fun hc hd h => ((agree_skipIn _).1 (by omega) (by omega)).alike hc.of_limit hd.of_limit h⟩

/-! ## What is asked for -/

theorem agree_unexpected (expected : String) :
    Agree n m k SameTokens (unexpected expected) (unexpected expected) Q := by
  refine .located (.bind agree_peek fun h => ?_)
  split
  · exact .fail ..
  · exact .fail ..
  · exact .bind ((agree_value 0).pre AtHead.sameTokens) fun _ => .fail ..

/-- A string that is asked for is there in both texts or in none. -/
theorem agree_string : Agree n m 1 SameTokens Reader.string Reader.string fun _ => SameTokens := by
  refine .bind agree_peek fun h => ?_
  split
  · exact .failAt ..
  · exact .bind agree_next_quote fun _ => agree_quoted.weaken id (Nat.zero_le 1)
  · exact (agree_unexpected _).pre AtHead.sameTokens

/-- A value that may be null is the same in both texts. -/
theorem agree_optional {r : Reader α}
    (hr : ∀ {n m}, Agree n m 1 SameTokens r r fun _ => SameTokens) :
    Agree n m 1 SameTokens (optional r) (optional r) fun _ => SameTokens := by
  refine .bind agree_peek fun h => ?_
  split
  · exact agree_word (by decide) (by decide) none
  · exact (hr.map id).pre AtHead.sameTokens

/-- Both texts end here or none does. -/
theorem agree_done : Agree n m 0 SameTokens done done fun _ => SameTokens := by
  refine .bind agree_peek fun h => ?_
  split
  · exact .failAt ..
  · exact .pure AtHead.sameTokens

/-! ## Whole texts -/

/-- Reads a text up to its end. -/
def whole (r : Reader α) : Reader α := do
  let a ← r
  Reader.done
  return a

/-- Whole texts with the same tokens come to the same. -/
theorem alike_whole {r : Reader α} {a b : List Char}
    (hr : ∀ {n m}, Agree n m 0 SameTokens r r fun _ => SameTokens) (h : SameTokens a b) :
    Alike 0 { rest := a } { rest := b } (fun _ => SameTokens) (whole r { rest := a })
      (whole r { rest := b }) := by
  have hwhole {n m} : Agree n m 0 SameTokens (whole r) (whole r) fun _ => SameTokens :=
    hr.bind fun _ => .bind agree_done fun _ => .pure id
  exact hwhole.alike ⟨Nat.lt_succ_self _, Nat.le_refl _⟩ ⟨Nat.lt_succ_self _, Nat.le_refl _⟩ h

/-- A text is read whole, and a fault is told by its place. -/
theorem read_eq (r : Reader α) (text : List Char) :
    read r text = match whole r { rest := text } with
      | .ok (a, _) => .ok a
      | .error (.placed fault place) => .error (fault, some place)
      | .error (.open fault _) => .error (fault, none) := rfl

/-- From texts with the same tokens a reader of tokens reads the same, if it reads anything. -/
theorem toOption_read_eq {r : Reader α} {a b : List Char}
    (hr : ∀ {n m}, Agree n m 0 SameTokens r r fun _ => SameTokens) (h : SameTokens a b) :
    (read r a).toOption = (read r b).toOption := by
  have halike := alike_whole hr h
  rw [read_eq, read_eq]
  generalize whole r { rest := a } = x at halike
  generalize whole r { rest := b } = y at halike
  cases halike with
  | ok => rfl
  | @error f f' => cases f <;> cases f' <;> rfl

theorem done_eq (cur : Cursor) : Reader.done cur =
    if cur.gapped.rest = [] then .ok ((), cur.gapped) else failAt 1 .trailingText cur.gapped := by
  have hpeek (f : Option Char → Reader Unit) :
      (peek >>= f) cur = f cur.gapped.rest.head? cur.gapped := rfl
  rw [Reader.done, hpeek]
  cases cur.gapped.rest <;> rfl

/-- What is left over behind a value is not a fault of the value. -/
theorem whole_located_ne_open (r : Reader α) (cur cur' : Cursor) (fault : Fault) :
    whole (located r) cur ≠ .error (.open fault cur') := by
  show Except.bind (located r cur) (fun p =>
    Except.bind (Reader.done p.2) fun q => .ok (p.1, q.2)) ≠ _
  rw [located_eq]
  obtain (_ | _) | ⟨a, cur''⟩ := r cur
  · exact fun h => by cases h
  · exact fun h => by cases h
  · show Except.bind (Reader.done cur'') _ ≠ _
    rw [done_eq]
    split_ifs <;> exact fun h => by cases h

/-- The place of a fault is in the text. -/
theorem exists_place_of_read {r : Reader α} {text : List Char} {fault : Fault}
    {place : Option Place}
    (hr : ∀ {n m}, Agree n m 0 SameTokens (located r) (located r) fun _ => SameTokens)
    (h : read (located r) text = .error (fault, place)) :
    ∃ bytes, place = some (Place.after ⟨1, 0⟩ text bytes) := by
  have halike := alike_whole hr (.rest text)
  rw [read_eq] at h
  cases hx : whole (located r) { rest := text } with
  | ok p =>
    rw [hx] at h
    cases h
  | error f =>
    cases f with
    | placed fault place =>
      rw [hx] at h halike
      cases h
      cases halike with
      | error hf =>
        obtain ⟨bytes, he⟩ := hf
        exact ⟨bytes, congrArg some he⟩
    | «open» fault cur => exact absurd hx (whole_located_ne_open r _ _ _)

end SvgComponent.Json
