import SvgComponent.Proofs.Json.Reading

/-!
# Values of texts

A text of a plain value is read as that value, if the value is not nested too deep (`yields_value`),
and is passed over however deep it is (`yields_skipValue`). Readers of one kind of value fail on the
texts of the others (`NeedsStart`), and a text is read as a whole if only a gap is left of it
(`toOption_read`).
-/

namespace SvgComponent.Json

open Text Reader

variable {α : Type} {limit : Nat}

/-! ## Any value -/

/-- The entries are gathered from the last to the first. -/
theorem foldlM_cons (entries read : List α) :
    entries.foldlM (fun read entry => (.ok (entry :: read) : Except Fault (List α))) read =
      .ok (entries.reverse ++ read) := by
  induction entries generalizing read with
  | nil => rfl
  | cons entry rest ih =>
    rw [List.foldlM_cons, List.reverse_cons, List.append_assoc]
    exact ih (entry :: read)

/-- What a value is read with : the reader of what is in its containers is the one of a depth
less. -/
theorem value_eq_valueWith (d : Nat) :
    value d = valueWith d (if d = 0 then failAt 1 .tooDeep else value (d - 1)) := by
  cases d <;> rfl

/-- A text of a plain value is read as that value, unless it is nested too deep. -/
theorem yields_value (v : Json) {d : Nat} {blanks cs rest : List Char} (hp : Plain v)
    (hd : depth v ≤ d) (h : Spells v cs) (hg : IsGap blanks) (hl : (cs ++ rest).length ≤ limit) :
    Yields limit (value d) (blanks ++ (cs ++ rest)) (.ok v) rest := by
  rw [value_eq_valueWith]
  induction v using nested_induction generalizing d blanks cs rest with
  | null =>
    cases h
    refine (yields_peek_cons hg (by decide) _).andThen ((yields_next _ _).andThen ?_)
    exact (yields_literal ['u', 'l', 'l'] rest).andThen (.pure _ rest)
  | bool b =>
    cases b <;> cases h
    · refine (yields_peek_cons hg (by decide) _).andThen ((yields_next _ _).andThen ?_)
      exact (yields_literal ['a', 'l', 's', 'e'] rest).andThen (.pure _ rest)
    · refine (yields_peek_cons hg (by decide) _).andThen ((yields_next _ _).andThen ?_)
      exact (yields_literal ['r', 'u', 'e'] rest).andThen (.pure _ rest)
  | number n => exact hp.elim
  | string s =>
    obtain ⟨inner, hs, rfl⟩ := h
    rw [List.cons_append, List.append_assoc]
    refine (yields_peek_cons hg (by decide) _).andThen ((yields_next _ _).andThen ?_)
    exact (yields_quoted hs rest).andThen (.pure _ rest)
  | array items ih =>
    rw [depth] at hd
    obtain ⟨d, rfl⟩ := Nat.exists_eq_succ_of_ne_zero (Nat.ne_zero_of_lt hd)
    have hsteps : StepsThrough limit (fun items => do return (← value d) :: items)
        (fun read v => .ok (v :: read)) items := by
      intro v hv read cs rest hcs hlen
      have hdepth := depth_le_of_mem_items hv
      have hread := ih v hv (d := d) (plain_of_mem_items hp hv) (by omega) hcs isGap_nil hlen
      rw [← value_eq_valueWith] at hread
      exact hread.andThen (.pure _ rest)
    have hlist := yields_readList (s := []) (Nat.succ_ne_zero d) hp h hl hsteps
    obtain ⟨inner, -, rfl⟩ := h
    rw [foldlM_cons, List.append_nil] at hlist
    refine (yields_peek_cons hg (by decide) _).andThen (hlist.andThen ?_)
    rw [List.reverse_reverse]
    exact .pure _ rest
  | object members ih =>
    rw [depth] at hd
    obtain ⟨d, rfl⟩ := Nat.exists_eq_succ_of_ne_zero (Nat.ne_zero_of_lt hd)
    have hsteps : StepsThroughMembers limit
        (fun members key => do colon; return (key, ← value d) :: members)
        (fun read p => .ok (p :: read)) members := by
      intro p hm read mark cs rest hmark hcs hlen
      have hdepth := depth_le_of_mem_members hm
      obtain ⟨after, ha, hcolon⟩ := yields_colon hmark (cs ++ rest)
      have hrest : (cs ++ rest).length ≤ limit := by
        rw [List.length_append] at hlen
        omega
      have hread := ih p hm (d := d) (plain_of_mem_members hp.2 hm) (by omega) hcs ha hrest
      rw [← value_eq_valueWith] at hread
      exact hcolon.andThen (hread.andThen (.pure _ rest))
    have hobject := yields_readObject (s := []) (Nat.succ_ne_zero d) h hl hsteps
    obtain ⟨inner, -, rfl⟩ := h
    rw [foldlM_cons, List.append_nil] at hobject
    refine (yields_peek_cons hg (by decide) _).andThen (hobject.andThen ?_)
    rw [List.reverse_reverse]
    exact .pure _ rest

/-! ## Passing over a value -/

/-- Passing over the texts of a value takes at most two steps for each character. -/
def Skips (limit : Nat) (v : Json) : Prop :=
  ∀ steps blanks cs rest, Spells v cs → IsGap blanks → 2 * cs.length ≤ steps →
    Yields limit (skipValueIn steps) (blanks ++ (cs ++ rest)) (.ok ()) rest

/-- The items of a list are passed over, with two steps of the loop for each at most. -/
theorem yields_skipItemsIn {v : Json} {items : List Json} {steps : Nat}
    {blanks item behind rest : List Char} (hv : Skips limit v) (hs : ∀ v ∈ items, Skips limit v)
    (hg : IsGap blanks) (hi : Spells v item) (hb : SpellsItems false items behind)
    (hn : 2 * (item.length + behind.length) + 1 ≤ steps) :
    Yields limit (skipItemsIn steps) (blanks ++ (item ++ (behind ++ ']' :: rest))) (.ok ())
      rest := by
  -- each entry costs two steps, which its text and the comma in front of the next one pay for
  induction items generalizing v steps blanks item behind with
  | nil =>
    obtain ⟨n, rfl⟩ := Nat.exists_eq_succ_of_ne_zero (Nat.ne_zero_of_lt hn)
    refine (hv n blanks item _ hi hg (by omega)).andThen ?_
    exact (yields_peek_cons hb (by decide) rest).andThen (yields_next _ _)
  | cons w items ih =>
    obtain ⟨n, rfl⟩ := Nat.exists_eq_succ_of_ne_zero (Nat.ne_zero_of_lt hn)
    obtain ⟨-, item', behind', ⟨before, after, hbefore, hafter, rfl⟩, hi', hr, rfl⟩ := hb
    simp only [List.length_append, List.length_cons] at hn
    refine (hv n blanks item _ hi hg (by omega)).andThen ?_
    simp only [List.append_assoc, List.cons_append]
    refine (yields_peek_cons hbefore (by decide) _).andThen ((yields_next _ _).andThen ?_)
    exact ih (hs w List.mem_cons_self) (fun v h => hs v (List.mem_cons_of_mem w h)) hafter hi' hr
      (by omega)

/-- A key is passed over with its colon. -/
theorem yields_skipKey {s : String} {blanks name colon : List Char} (hg : IsGap blanks)
    (hk : SpellsString s name) (hc : IsMark ':' colon) (rest : List Char) :
    ∃ after, IsGap after ∧
      Yields limit skipKey (blanks ++ (name ++ (colon ++ rest))) (.ok ()) (after ++ rest) := by
  obtain ⟨inner, hs, rfl⟩ := hk
  obtain ⟨after, ha, hcolon⟩ := yields_colon hc rest
  refine ⟨after, ha, ?_⟩
  simp only [List.append_assoc, List.cons_append, List.nil_append]
  refine (yields_peek_cons hg (by decide) _).andThen ((yields_next _ _).andThen ?_)
  exact (yields_skipString hs _).andThen hcolon

/-- The members of an object are passed over. -/
theorem yields_skipMembersIn {p : String × Json} {members : List (String × Json)} {steps : Nat}
    {blanks name colon item behind rest : List Char} (hv : Skips limit p.2)
    (hs : ∀ p ∈ members, Skips limit p.2) (hg : IsGap blanks) (hk : SpellsString p.1 name)
    (hc : IsMark ':' colon) (hi : Spells p.2 item) (hb : SpellsMembers false members behind)
    (hn : 2 * (item.length + behind.length) + 1 ≤ steps) :
    Yields limit (skipMembersIn steps)
      (blanks ++ (name ++ (colon ++ (item ++ (behind ++ '}' :: rest))))) (.ok ()) rest := by
  induction members generalizing p steps blanks name colon item behind with
  | nil =>
    obtain ⟨n, rfl⟩ := Nat.exists_eq_succ_of_ne_zero (Nat.ne_zero_of_lt hn)
    obtain ⟨after, ha, hkey⟩ := yields_skipKey hg hk hc (item ++ (behind ++ '}' :: rest))
    refine hkey.andThen ((hv n after item _ hi ha (by omega)).andThen ?_)
    exact (yields_peek_cons hb (by decide) rest).andThen (yields_next _ _)
  | cons q members ih =>
    obtain ⟨n, rfl⟩ := Nat.exists_eq_succ_of_ne_zero (Nat.ne_zero_of_lt hn)
    obtain ⟨-, name', colon', item', behind', ⟨before, between, hbefore, hbetween, rfl⟩, hk', hc',
      hi', hr, rfl⟩ := hb
    simp only [List.length_append, List.length_cons] at hn
    simp only [List.append_assoc, List.cons_append]
    obtain ⟨after, ha, hkey⟩ := yields_skipKey hg hk hc (item ++ (before ++
      ',' :: (between ++ (name' ++ (colon' ++ (item' ++ (behind' ++ '}' :: rest)))))))
    refine hkey.andThen ((hv n after item _ hi ha (by omega)).andThen ?_)
    refine (yields_peek_cons hbefore (by decide) _).andThen ((yields_next _ _).andThen ?_)
    exact ih (hs q List.mem_cons_self) (fun p h => hs p (List.mem_cons_of_mem q h)) hbetween hk'
      hc' hi' hr (by omega)

/-- However deep a plain value is, its texts are passed over. -/
theorem skips (v : Json) (hp : Plain v) : Skips limit v := by
  induction v using nested_induction with
  | null =>
    rintro steps blanks cs rest rfl hg hn
    obtain ⟨n, rfl⟩ := Nat.exists_eq_succ_of_ne_zero (Nat.ne_zero_of_lt hn)
    refine (yields_peek_cons hg (by decide) _).andThen ((yields_next _ _).andThen ?_)
    exact yields_literal ['u', 'l', 'l'] rest
  | bool b =>
    cases b <;> rintro steps blanks cs rest rfl hg hn <;>
      obtain ⟨n, rfl⟩ := Nat.exists_eq_succ_of_ne_zero (Nat.ne_zero_of_lt hn)
    · refine (yields_peek_cons hg (by decide) _).andThen ((yields_next _ _).andThen ?_)
      exact yields_literal ['a', 'l', 's', 'e'] rest
    · refine (yields_peek_cons hg (by decide) _).andThen ((yields_next _ _).andThen ?_)
      exact yields_literal ['r', 'u', 'e'] rest
  | number n => exact hp.elim
  | string s =>
    rintro steps blanks cs rest ⟨inner, hs, rfl⟩ hg hn
    obtain ⟨n, rfl⟩ := Nat.exists_eq_succ_of_ne_zero (Nat.ne_zero_of_lt hn)
    rw [List.cons_append, List.append_assoc]
    refine (yields_peek_cons hg (by decide) _).andThen ((yields_next _ _).andThen ?_)
    exact yields_skipString hs rest
  | array items ih =>
    rintro steps blanks cs rest ⟨inner, hi, rfl⟩ hg hn
    simp only [List.length_append, List.length_cons] at hn
    obtain ⟨n, rfl⟩ := Nat.exists_eq_succ_of_ne_zero (Nat.ne_zero_of_lt hn)
    simp only [List.append_assoc, List.cons_append, List.nil_append]
    refine (yields_peek_cons hg (by decide) _).andThen ((yields_next _ _).andThen ?_)
    cases items with
    | nil => exact (yields_peek_cons hi (by decide) rest).andThen (yields_next _ _)
    | cons v items =>
      obtain ⟨front, item, behind, hf, hi, hr, rfl⟩ := hi
      obtain ⟨c, tail, rfl, hc⟩ := exists_cons_of_spells hp.1 hi
      have hs : ∀ w ∈ v :: items, Skips limit w :=
        fun w hw => ih w hw (plain_of_mem_items hp hw)
      have hlength : 2 * ((c :: tail).length + behind.length) + 1 ≤ n := by
        simp only [List.length_append] at hn
        omega
      have hitems : Yields limit (skipItemsIn n) (c :: tail ++ (behind ++ ']' :: rest)) (.ok ())
          rest :=
        yields_skipItemsIn (hs v List.mem_cons_self)
          (fun w hw => hs w (List.mem_cons_of_mem v hw)) isGap_nil hi hr hlength
      rw [List.append_assoc, List.append_assoc]
      have hne : c ≠ ']' := ne_bracket_of_start? hc
      refine (yields_peek_cons hf (isGap_of_start? hc) _).andThen ?_
      split
      · simp_all
      · exact hitems
      · simp_all
  | object members ih =>
    rintro steps blanks cs rest ⟨inner, hi, rfl⟩ hg hn
    simp only [List.length_append, List.length_cons] at hn
    obtain ⟨n, rfl⟩ := Nat.exists_eq_succ_of_ne_zero (Nat.ne_zero_of_lt hn)
    simp only [List.append_assoc, List.cons_append, List.nil_append]
    refine (yields_peek_cons hg (by decide) _).andThen ((yields_next _ _).andThen ?_)
    cases members with
    | nil => exact (yields_peek_cons hi (by decide) rest).andThen (yields_next _ _)
    | cons p members =>
      obtain ⟨front, name, colon, item, behind, hf, ⟨letters, hk, rfl⟩, hc, hi, hr, rfl⟩ := hi
      have hs : ∀ q ∈ p :: members, Skips limit q.2 :=
        fun q hq => ih q hq (plain_of_mem_members hp.2 hq)
      have hlength : 2 * (item.length + behind.length) + 1 ≤ n := by
        simp only [List.length_append] at hn
        omega
      have hmembers : Yields limit (skipMembersIn n)
          ('"' :: (letters ++ ['"']) ++ (colon ++ (item ++ (behind ++ '}' :: rest)))) (.ok ())
          rest :=
        yields_skipMembersIn (hs p List.mem_cons_self)
          (fun q hq => hs q (List.mem_cons_of_mem p hq)) isGap_nil ⟨letters, hk, rfl⟩ hc hi hr
          hlength
      simp only [List.append_assoc, List.cons_append, List.nil_append] at hmembers ⊢
      exact (yields_peek_cons hf (by decide) _).andThen hmembers

/-- A text of a plain value is passed over. -/
theorem yields_skipValue {v : Json} {blanks cs rest : List Char} (hp : Plain v) (h : Spells v cs)
    (hg : IsGap blanks) (hl : cs.length ≤ limit) :
    Yields limit skipValue (blanks ++ (cs ++ rest)) (.ok ()) rest := by
  intro place
  exact skips v hp (2 * limit + 1) blanks cs rest h hg (by omega) place

/-! ## What is asked for -/

/-- What is not expected is a fault. -/
theorem yields_unexpected (fault : Fault) (expected : String) (cs rest : List Char) :
    Yields limit (unexpected expected : Reader α) cs (.error fault) rest := by
  refine .located fun place => ?_
  -- the character in front is found whatever the text, and each way behind it fails
  obtain ⟨front, cur, hpeek⟩ : ∃ front cur, peek ⟨cs, place, limit⟩ = .ok (front, cur) :=
    ⟨_, _, rfl⟩
  simp only [Bind.bind, StateT.bind, Except.bind, hpeek]
  split
  · exact ⟨_, rfl⟩
  · exact ⟨_, rfl⟩
  · simp only [Bind.bind, StateT.bind, Except.bind]
    split <;> exact ⟨_, rfl⟩

/-- A string that is asked for is read. -/
theorem yields_string {s : String} {blanks cs : List Char} (hg : IsGap blanks)
    (h : SpellsString s cs) (rest : List Char) :
    Yields limit Reader.string (blanks ++ (cs ++ rest)) (.ok s) rest := by
  obtain ⟨inner, hs, rfl⟩ := h
  rw [List.cons_append, List.append_assoc]
  refine (yields_peek_cons hg (by decide) _).andThen ((yields_next _ _).andThen ?_)
  exact yields_quoted hs rest

/-- A reader that fails on every text that does not start with a character. -/
def NeedsStart (limit : Nat) (start : Char) (r : Reader α) : Prop :=
  ∀ c cs fault rest, isGap c = false → c ≠ start → Yields limit r (c :: cs) (.error fault) rest

theorem needsStart_string : NeedsStart limit '"' Reader.string := by
  intro c cs fault rest hc hq
  refine (yields_peek_cons isGap_nil hc cs).andThen ?_
  split
  · simp_all
  · simp_all
  · exact yields_unexpected fault _ _ _

section optional

variable {r : Reader α} {v : Json} {blanks cs rest : List Char}

theorem yields_optional_null (h : Spells .null cs) (hg : IsGap blanks) :
    Yields limit (optional r) (blanks ++ (cs ++ rest)) (.ok none) rest := by
  cases h
  refine (yields_peek_cons hg (by decide) _).andThen ((yields_next _ _).andThen ?_)
  exact (yields_literal ['u', 'l', 'l'] rest).andThen (.pure none rest)

/-- A value that is not null is read. -/
theorem yields_optional {x : Except Fault α} (hp : Plain v) (h : Spells v cs) (hg : IsGap blanks)
    (hv : v ≠ .null) (hr : Yields limit r (cs ++ rest) x rest) :
    Yields limit (optional r) (blanks ++ (cs ++ rest)) (x.map some) rest := by
  obtain ⟨c, tail, rfl, hc⟩ := exists_cons_of_spells hp h
  have hn : c ≠ 'n' := ne_n_of_start? hc hv
  refine (yields_peek_cons hg (isGap_of_start? hc) _).andThen ?_
  split
  · simp_all
  · exact hr.map some

/-- A value of the wrong kind is a fault. -/
theorem yields_optional_wrong {start : Char} (hp : Plain v) (h : Spells v cs)
    (hg : IsGap blanks) (hv : v ≠ .null) (hs : start? v ≠ some start)
    (hr : NeedsStart limit start r) (fault : Fault) :
    Yields limit (optional r) (blanks ++ (cs ++ rest)) (.error fault) rest := by
  refine yields_optional (x := .error fault) hp h hg hv ?_
  obtain ⟨c, tail, rfl, hc⟩ := exists_cons_of_spells hp h
  exact hr c _ fault rest (isGap_of_start? hc) fun heq => hs (heq ▸ hc)

end optional

/-- What is read of a whole text is what its reader makes of it, if only a gap is left. -/
theorem toOption_read {r : Reader α} {x : Except Fault α} {text gap : List Char}
    (h : Yields text.length r text x gap) (hg : IsGap gap) :
    (Json.read r text).toOption = x.toOption := by
  cases x with
  | error fault =>
    obtain ⟨failure, hf⟩ := h ⟨1, 0⟩
    simp only [Json.read, Bind.bind, StateT.bind, Except.bind, hf]
    cases failure <;> rfl
  | ok a =>
    have hpeek : Yields text.length peek (gap ++ []) (.ok none) [] := yields_peek hg (by simp)
    rw [List.append_nil] at hpeek
    have hdone : Yields text.length (do let a ← r; done; return a) text (.ok a) [] :=
      h.andThen ((hpeek.andThen (.pure () [])).andThen (.pure a []))
    obtain ⟨place, hr⟩ := hdone ⟨1, 0⟩
    rw [Json.read, hr]
    rfl

end SvgComponent.Json
