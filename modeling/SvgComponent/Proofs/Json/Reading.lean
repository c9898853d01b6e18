import SvgComponent.Json.Reader
import SvgComponent.Proofs.Json.Quoting
import SvgComponent.Proofs.Json.Spelling
import SvgComponent.Proofs.Text.Runs

/-!
# Reading texts of values

`Yields` says what a reader makes of a text, up to places : a result with what is left of the
text, or a fault, of which it is not said which it is. Readers in sequence are put together by
`Yields.andThen` and `Yields.bind`.

Strings are read as what they spell (`yields_quoted`). A container is read as a fold over its
entries (`yields_readList`, `yields_readObject`), whatever is done with an entry.
-/

namespace SvgComponent.Json

open Text Reader

variable {α β σ : Type} {limit : Nat}

/-! ## What a reader makes of a text -/

/-- What a reader makes of a text, wherever it stands : a result, with what is left of the text, or
some fault. -/
def Yields (limit : Nat) (r : Reader α) (cs : List Char) (result : Except Fault α)
    (rest : List Char) : Prop :=
  match result with
  | .ok a => ∀ place, ∃ place', r ⟨cs, place, limit⟩ = .ok (a, ⟨rest, place', limit⟩)
  | .error _ => ∀ place, ∃ failure, r ⟨cs, place, limit⟩ = .error failure

namespace Yields

theorem pure (a : α) (cs : List Char) : Yields limit (Pure.pure a) cs (.ok a) cs :=
  fun place => ⟨place, rfl⟩

/-- Behind a result the next reader decides. -/
theorem andThen {r : Reader α} {next : α → Reader β} {a : α} {x : Except Fault β}
    {cs between rest : List Char} (hr : Yields limit r cs (.ok a) between)
    (hn : Yields limit (next a) between x rest) : Yields limit (r >>= next) cs x rest := by
  have hrun : ∀ place, ∃ place',
      (r >>= next) ⟨cs, place, limit⟩ = next a ⟨between, place', limit⟩ := by
    intro place
    obtain ⟨place', h⟩ := hr place
    exact ⟨place', by simp only [Bind.bind, StateT.bind, Except.bind, h]⟩
  cases x with
  | error fault =>
    intro place
    obtain ⟨place', h⟩ := hrun place
    obtain ⟨failure, h'⟩ := hn place'
    exact ⟨failure, h.trans h'⟩
  | ok b =>
    intro place
    obtain ⟨place', h⟩ := hrun place
    obtain ⟨place'', h'⟩ := hn place'
    exact ⟨place'', h.trans h'⟩

theorem bind {r : Reader α} {next : α → Reader β} {x : Except Fault α} {f : α → Except Fault β}
    {cs between rest : List Char} (hr : Yields limit r cs x between)
    (hn : ∀ a, x = .ok a → Yields limit (next a) between (f a) rest) :
    Yields limit (r >>= next) cs (x >>= f) rest := by
  cases x with
  | error fault =>
    intro place
    obtain ⟨failure, h⟩ := hr place
    exact ⟨failure, by simp only [Bind.bind, StateT.bind, Except.bind, h]⟩
  | ok a => exact hr.andThen (hn a rfl)

/-- What is done with a result does not need the text. -/
theorem map {r : Reader α} {x : Except Fault α} {cs rest : List Char} (f : α → β)
    (hr : Yields limit r cs x rest) :
    Yields limit (do return f (← r)) cs (x.map f) rest := by
  cases x with
  | error fault =>
    intro place
    obtain ⟨failure, h⟩ := hr place
    exact ⟨failure, by simp only [Bind.bind, StateT.bind, Except.bind, h]⟩
  | ok a => exact hr.andThen (.pure (f a) rest)

theorem located {r : Reader α} {x : Except Fault α} {cs rest : List Char}
    (hr : Yields limit r cs x rest) : Yields limit (located r) cs x rest := by
  cases x with
  | error fault =>
    intro place
    obtain ⟨failure, h⟩ := hr place
    rw [Reader.located, h]
    cases failure <;> exact ⟨_, rfl⟩
  | ok a =>
    intro place
    obtain ⟨place', h⟩ := hr place
    exact ⟨place', by rw [Reader.located, h]⟩

end Yields

/-! ## Characters -/

theorem yields_next (c : Char) (rest : List Char) : Yields limit next (c :: rest) (.ok ()) rest :=
  fun place => ⟨place.afterChar c, rfl⟩

/-- The next character that is no blank is looked at, and the blanks are passed over. -/
theorem yields_peek {blanks cs : List Char} (hg : IsGap blanks)
    (hc : ∀ c ∈ cs.head?, isGap c = false) :
    Yields limit peek (blanks ++ cs) (.ok cs.head?) cs := by
  intro place
  have hskip : skipGap (blanks ++ cs) = cs := dropWhile_run hg hc
  refine ⟨(Cursor.gapped ⟨blanks ++ cs, place, limit⟩).place, ?_⟩
  have hgap : gap ⟨blanks ++ cs, place, limit⟩ =
      .ok ((), ⟨cs, (Cursor.gapped ⟨blanks ++ cs, place, limit⟩).place, limit⟩) := by
    simp only [gap, Cursor.gapped, hskip]
  simp only [peek, Bind.bind, StateT.bind, Except.bind, hgap]
  rfl

theorem yields_peek_cons {blanks : List Char} {c : Char} (hg : IsGap blanks)
    (hc : isGap c = false) (rest : List Char) :
    Yields limit peek (blanks ++ c :: rest) (.ok (some c)) (c :: rest) :=
  yields_peek hg fun d hd => by
    cases hd
    exact hc

/-- A word is passed over if it is there. -/
theorem yields_literal (cs rest : List Char) :
    Yields limit (literal cs) (cs ++ rest) (.ok ()) rest := by
  induction cs with
  | nil => exact .pure () rest
  | cons c cs ih =>
    intro place
    obtain ⟨place', h⟩ := ih (place.afterChar c)
    refine ⟨place', ?_⟩
    rw [← h, literal]
    show (if c = c then _ else _ : Reader Unit) _ = _
    rw [if_pos rfl]
    rfl

theorem yields_lift {f : List Char → Numeral.Located (α × Nat × List Char)} {a : α} {bytes : Nat}
    {cs rest : List Char} (h : f cs = .ok (a, bytes, rest)) :
    Yields limit (lift f) cs (.ok a) rest := by
  intro place
  exact ⟨place.after cs bytes, by rw [lift, h]⟩

/-! ## Strings -/

theorem readCoded_code {n read : Nat} {a b c d : Char} (h : hexCode? a b c d = some n)
    (hl : isLeading n = false) (ht : isTrailing n = false) (rest : List Char) :
    readCoded read (a :: b :: c :: d :: rest) = .ok (Char.ofNat n, read + 4, rest) := by
  simp [readCoded, readCode, h, hl, ht, bind, Except.bind, pure, Except.pure]

/-- A pair of codes stands for one character. -/
theorem readCoded_pair {m n read : Nat} {a b c d a' b' c' d' : Char}
    (hm : hexCode? a b c d = some m) (hl : isLeading m = true)
    (hn : hexCode? a' b' c' d' = some n) (ht : isTrailing n = true) (rest : List Char) :
    readCoded read (a :: b :: c :: d :: '\\' :: 'u' :: a' :: b' :: c' :: d' :: rest) =
      .ok (pairChar m n, read + 4 + 6, rest) := by
  have hm' : isTrailing m = false := by
    simp only [isLeading, isTrailing, Bool.and_eq_true, decide_eq_true_eq,
      Bool.and_eq_false_iff, decide_eq_false_iff_not] at hl ⊢
    omega
  simp [readCoded, readCode, hm, hn, hl, ht, hm', bind, Except.bind, pure, Except.pure]

theorem ne_u_of_letterEscape? {c e : Char} (h : letterEscape? e = some c) : e ≠ 'u' := by
  have hu : letterEscape? 'u' = none := by decide
  rintro rfl
  rw [hu] at h
  cases h

/-- What a character is written as is read as that character. -/
theorem exists_unquoteFrom_spellsChar {c : Char} {form : List Char} (h : SpellsChar c form)
    (read : Nat) (rest : List Char) :
    ∃ next, unquoteFrom read (form ++ rest) =
      (unquoteFrom next rest).map fun p => (c :: p.1, p.2) := by
  cases h with
  | plain hq hb hc => exact ⟨_, unquoteFrom_plain hq hb hc read rest⟩
  | letter he => exact ⟨_, unquoteFrom_letter (ne_u_of_letterEscape? he) he read rest⟩
  | code hn hl ht => exact ⟨_, unquoteFrom_coded (readCoded_code hn hl ht rest)⟩
  | pair hm hl hn ht => exact ⟨_, unquoteFrom_coded (readCoded_pair hm hl hn ht rest)⟩

/-- Characters are read up to the quote as what their forms spell. -/
theorem exists_unquoteFrom_spellsChars {cs forms : List Char} (h : SpellsChars cs forms)
    (read : Nat) (rest : List Char) :
    ∃ next, unquoteFrom read (forms ++ '"' :: rest) = .ok (cs, next, rest) := by
  induction h generalizing read with
  | nil => exact ⟨read + 1, by rw [List.nil_append, unquoteFrom] <;> simp⟩
  | cons hc _ ih =>
    obtain ⟨next, hn⟩ := exists_unquoteFrom_spellsChar hc read (_ ++ '"' :: rest)
    obtain ⟨last, hl⟩ := ih next
    exact ⟨last, by rw [List.append_assoc, hn, hl]; rfl⟩

/-- A string is read as what it spells. -/
theorem yields_quoted {s : String} {inner : List Char} (h : SpellsChars s.toList inner)
    (rest : List Char) : Yields limit quoted (inner ++ '"' :: rest) (.ok s) rest := by
  obtain ⟨bytes, hu⟩ := exists_unquoteFrom_spellsChars h 0 rest
  refine (yields_lift hu).andThen ?_
  rw [String.ofList_toList]
  exact .pure s rest

theorem skipQuotedFrom_code {n read : Nat} {a b c d : Char} (h : hexCode? a b c d = some n)
    (rest : List Char) :
    skipQuotedFrom read ('\\' :: 'u' :: a :: b :: c :: d :: rest) =
      skipQuotedFrom (read + 6) rest := by
  rw [skipQuotedFrom]
  split <;> simp_all [readCode]

theorem skipQuotedFrom_plain {c : Char} (hq : c ≠ '"') (hb : c ≠ '\\') (hc : ¬ c.toNat < 0x20)
    (read : Nat) (rest : List Char) :
    skipQuotedFrom read (c :: rest) = skipQuotedFrom (read + c.utf8Size) rest := by
  rw [skipQuotedFrom, if_neg hq, if_neg hc]
  · exact fun h => absurd h hb
  · exact fun _ h => absurd h hb
  · exact fun _ _ h => absurd h hb

theorem skipQuotedFrom_letter {c e : Char} (he : letterEscape? e = some c) (read : Nat)
    (rest : List Char) :
    skipQuotedFrom read ('\\' :: e :: rest) = skipQuotedFrom (read + 2) rest := by
  rw [skipQuotedFrom, he, Option.isSome_some, if_pos rfl]
  exact ne_u_of_letterEscape? he

/-- The form of a character is passed over whole. -/
theorem exists_skipQuotedFrom_spellsChar {c : Char} {form : List Char} (h : SpellsChar c form)
    (read : Nat) (rest : List Char) :
    ∃ next, skipQuotedFrom read (form ++ rest) = skipQuotedFrom next rest := by
  cases h with
  | plain hq hb hc => exact ⟨_, skipQuotedFrom_plain hq hb hc read rest⟩
  | letter he => exact ⟨_, skipQuotedFrom_letter he read rest⟩
  | code hn => exact ⟨read + 6, skipQuotedFrom_code hn rest⟩
  | pair hm _ hn =>
    exact ⟨read + 6 + 6, (skipQuotedFrom_code hm _).trans (skipQuotedFrom_code hn rest)⟩

/-- Forms of characters are passed over up to the quote. -/
theorem exists_skipQuotedFrom_spellsChars {cs forms : List Char} (h : SpellsChars cs forms)
    (read : Nat) (rest : List Char) :
    ∃ next, skipQuotedFrom read (forms ++ '"' :: rest) = .ok (next, rest) := by
  induction h generalizing read with
  | nil => exact ⟨read + 1, by rw [List.nil_append, skipQuotedFrom] <;> simp⟩
  | cons hc _ ih =>
    obtain ⟨next, hn⟩ := exists_skipQuotedFrom_spellsChar hc read (_ ++ '"' :: rest)
    obtain ⟨last, hl⟩ := ih next
    exact ⟨last, by rw [List.append_assoc, hn, hl]⟩

/-- A string is passed over whole. -/
theorem yields_skipString {s : String} {inner : List Char} (h : SpellsChars s.toList inner)
    (rest : List Char) : Yields limit skipString (inner ++ '"' :: rest) (.ok ()) rest := by
  obtain ⟨bytes, hs⟩ := exists_skipQuotedFrom_spellsChars h 0 rest
  refine yields_lift (a := ()) (?_ : _ = Except.ok ((), bytes, rest))
  rw [skipQuoted, hs]
  rfl

/-! ## Entries of containers -/

/-- A colon is passed over with the blanks in front of it. -/
theorem yields_colon {cs : List Char} (h : IsMark ':' cs) (rest : List Char) :
    ∃ after, IsGap after ∧ Yields limit colon (cs ++ rest) (.ok ()) (after ++ rest) := by
  obtain ⟨before, after, hb, ha, rfl⟩ := h
  refine ⟨after, ha, ?_⟩
  rw [List.append_assoc]
  exact (yields_peek_cons hb (by decide) _).andThen (yields_next _ _)

/-- Behind what separates two items the next item is in front. -/
theorem yields_hasItem {first : Bool} {front : List Char} {c : Char} (hf : Separates first front)
    (hc : isGap c = false) (hm : c ≠ ']') (rest : List Char) :
    Yields limit (hasItem first) (front ++ c :: rest) (.ok true) (c :: rest) := by
  cases first with
  | true =>
    refine (yields_peek_cons hf hc rest).andThen ?_
    split
    · simp_all
    · simp_all
    · exact .pure true _
  | false =>
    obtain ⟨before, after, hb, ha, rfl⟩ := hf
    rw [List.append_assoc]
    refine (yields_peek_cons hb (by decide) _).andThen ?_
    refine (yields_next _ _).andThen ((yields_peek_cons ha hc rest).andThen ?_)
    split
    · simp_all
    · exact .pure true _
    · simp_all

theorem yields_hasItem_end {gap : List Char} (hg : IsGap gap) (first : Bool) (rest : List Char) :
    Yields limit (hasItem first) (gap ++ ']' :: rest) (.ok false) (']' :: rest) :=
  (yields_peek_cons hg (by decide) rest).andThen (.pure false _)

/-- A key follows behind what separates it from the member in front. -/
theorem yields_hasKey {first : Bool} {front : List Char} (hf : Separates first front)
    (rest : List Char) :
    Yields limit (hasKey first) (front ++ '"' :: rest) (.ok true) ('"' :: rest) := by
  cases first with
  | true => exact (yields_peek_cons hf (by decide) rest).andThen (.pure true _)
  | false =>
    obtain ⟨before, after, hb, ha, rfl⟩ := hf
    rw [List.append_assoc]
    refine (yields_peek_cons hb (by decide) _).andThen ?_
    exact (yields_next _ _).andThen ((yields_peek_cons ha (by decide) rest).andThen (.pure true _))

theorem yields_hasKey_end {gap : List Char} (hg : IsGap gap) (first : Bool) (rest : List Char) :
    Yields limit (hasKey first) (gap ++ '}' :: rest) (.ok false) ('}' :: rest) :=
  (yields_peek_cons hg (by decide) rest).andThen (.pure false _)

theorem yields_endList (rest : List Char) : Yields limit endList (']' :: rest) (.ok ()) rest := by
  have hpeek : Yields limit peek (']' :: rest) (.ok (some ']')) (']' :: rest) :=
    yields_peek_cons isGap_nil (by decide) rest
  exact hpeek.andThen (yields_next _ _)

theorem yields_endObject (rest : List Char) :
    Yields limit endObject ('}' :: rest) (.ok ()) rest := by
  have hpeek : Yields limit peek ('}' :: rest) (.ok (some '}')) ('}' :: rest) :=
    yields_peek_cons isGap_nil (by decide) rest
  exact hpeek.andThen (yields_next _ _)

/-! ## Containers -/

/-- A container is what its entries are, if it ends behind them. -/
theorem yields_container {entries : Reader α} {finish : Reader Unit} {reach : Cursor → Cursor}
    {x : Except Fault α} {cs between rest : List Char} {depth : Nat} (hd : depth ≠ 0)
    (he : Yields limit (next >>= fun _ => entries) cs x between)
    (hf : Yields limit finish between (.ok ()) rest) :
    Yields limit (container depth entries finish reach) cs x rest := by
  rw [container, if_neg hd]
  cases x with
  | error fault =>
    intro place
    obtain ⟨failure, h⟩ := he place
    cases failure with
    | placed fault place' => exact ⟨.placed fault place', by simp only [h]⟩
    | «open» fault cur => exact ⟨.placed fault (reach cur).place, by simp only [h]⟩
  | ok a =>
    intro place
    obtain ⟨place', h⟩ := he place
    obtain ⟨place'', h'⟩ := hf place'
    exact ⟨place'', by simp only [h, h']⟩

theorem yields_foldItems {step : σ → Reader σ} {s : σ} {x : Except Fault σ} {cs rest : List Char}
    (h : Yields limit (foldItemsIn step (limit + 1) true s) cs x rest) :
    Yields limit (foldItems step s) cs x rest := by
  cases x with
  | error fault => exact fun place => h place
  | ok a => exact fun place => h place

theorem yields_foldMembers {step : σ → String → Reader σ} {s : σ} {x : Except Fault σ}
    {cs rest : List Char} (h : Yields limit (foldMembersIn step (limit + 1) true s) cs x rest) :
    Yields limit (foldMembers step s) cs x rest := by
  cases x with
  | error fault => exact fun place => h place
  | ok a => exact fun place => h place

/-- What a step makes of a text of an item, for each of some items. -/
def StepsThrough (limit : Nat) (step : σ → Reader σ) (f : σ → Json → Except Fault σ)
    (items : List Json) : Prop :=
  ∀ value ∈ items, ∀ s cs rest, Spells value cs → (cs ++ rest).length ≤ limit →
    Yields limit (step s) (cs ++ rest) (f s value) rest

/-- What a step makes of the colon and a text of the value behind a key, for each of some
members. -/
def StepsThroughMembers (limit : Nat) (step : σ → String → Reader σ)
    (f : σ → String × Json → Except Fault σ) (members : List (String × Json)) : Prop :=
  ∀ p ∈ members, ∀ s colon cs rest, IsMark ':' colon → Spells p.2 cs →
    (colon ++ (cs ++ rest)).length ≤ limit →
      Yields limit (step s p.1) (colon ++ (cs ++ rest)) (f s p) rest

/-- Going through the items of a list is a fold over them; the induction follows how they are
spelled. -/
theorem yields_foldItemsIn {step : σ → Reader σ} {f : σ → Json → Except Fault σ}
    {items : List Json} {first : Bool} {steps : Nat} {s : σ} {cs rest : List Char}
    (hp : PlainItems items) (h : SpellsItems first items cs) (hn : items.length < steps)
    (hl : (cs ++ ']' :: rest).length ≤ limit) (hs : StepsThrough limit step f items) :
    Yields limit (foldItemsIn step steps first s) (cs ++ ']' :: rest) (items.foldlM f s)
      (']' :: rest) := by
  obtain ⟨steps, rfl⟩ := Nat.exists_eq_succ_of_ne_zero (Nat.ne_zero_of_lt hn)
  induction items generalizing first cs steps s with
  | nil => exact (yields_hasItem_end h first rest).andThen (.pure s _)
  | cons value items ih =>
    obtain ⟨front, item, behind, hf, hi, hr, rfl⟩ := h
    obtain ⟨c, tail, rfl, hc⟩ := exists_cons_of_spells hp.1 hi
    have hm : c ≠ ']' := ne_bracket_of_start? hc
    rw [List.append_assoc, List.append_assoc] at hl ⊢
    rw [List.length_append] at hl
    obtain ⟨n, rfl⟩ : ∃ n, steps = n + 1 :=
      Nat.exists_eq_succ_of_ne_zero (Nat.ne_zero_of_lt (Nat.lt_of_succ_lt_succ hn))
    have hstep := hs value List.mem_cons_self s (c :: tail) (behind ++ ']' :: rest) hi (by omega)
    refine (yields_hasItem hf (isGap_of_start? hc) hm _).andThen ?_
    rw [List.foldlM_cons]
    refine hstep.bind fun s' _ => ?_
    refine ih hp.2 hr ?_ (fun v hv => hs v (List.mem_cons_of_mem value hv)) n
      (Nat.lt_of_succ_lt_succ hn)
    rw [List.length_append] at hl
    omega

/-- Going through the members of an object is a fold over them. -/
theorem yields_foldMembersIn {step : σ → String → Reader σ}
    {f : σ → String × Json → Except Fault σ} {members : List (String × Json)} {first : Bool}
    {steps : Nat} {s : σ} {cs rest : List Char} (h : SpellsMembers first members cs)
    (hn : members.length < steps) (hl : (cs ++ '}' :: rest).length ≤ limit)
    (hs : StepsThroughMembers limit step f members) :
    Yields limit (foldMembersIn step steps first s) (cs ++ '}' :: rest) (members.foldlM f s)
      ('}' :: rest) := by
  obtain ⟨steps, rfl⟩ := Nat.exists_eq_succ_of_ne_zero (Nat.ne_zero_of_lt hn)
  induction members generalizing first cs steps s with
  | nil => exact (yields_hasKey_end h first rest).andThen (.pure s _)
  | cons p members ih =>
    obtain ⟨front, name, colon, item, behind, hf, ⟨inner, hk, rfl⟩, hc, hi, hr, rfl⟩ := h
    simp only [List.append_assoc, List.cons_append, List.nil_append, List.length_append,
      List.length_cons] at hl ⊢
    obtain ⟨n, rfl⟩ : ∃ n, steps = n + 1 :=
      Nat.exists_eq_succ_of_ne_zero (Nat.ne_zero_of_lt (Nat.lt_of_succ_lt_succ hn))
    have hstep := hs p List.mem_cons_self s colon item (behind ++ '}' :: rest) hc hi
      (by simp only [List.length_append, List.length_cons]; omega)
    refine (yields_hasKey hf _).andThen ?_
    refine (yields_next _ _).andThen ((yields_quoted hk _).andThen ?_)
    rw [List.foldlM_cons]
    refine hstep.bind fun s' _ => ?_
    refine ih hr ?_ (fun q hq => hs q (List.mem_cons_of_mem p hq)) n (Nat.lt_of_succ_lt_succ hn)
    simp only [List.length_append, List.length_cons]
    omega

/-- The items of a list are read one after the other, each by a step. -/
theorem yields_readList {step : σ → Reader σ} {f : σ → Json → Except Fault σ}
    {items : List Json} {s : σ} {depth : Nat} {cs rest : List Char} (hd : depth ≠ 0)
    (hp : PlainItems items) (h : Spells (.array items) cs) (hl : (cs ++ rest).length ≤ limit)
    (hs : StepsThrough limit step f items) :
    Yields limit (readList depth (foldItems step s)) (cs ++ rest) (items.foldlM f s) rest := by
  obtain ⟨inner, hi, rfl⟩ := h
  have hlength := length_le_of_spellsItems hp hi
  simp only [List.append_assoc, List.cons_append, List.nil_append, List.length_append,
    List.length_cons] at hl ⊢
  refine yields_container hd ((yields_next _ _).andThen (yields_foldItems ?_))
    (yields_endList rest)
  exact yields_foldItemsIn hp hi (by omega)
    (by simp only [List.length_append, List.length_cons]; omega) hs

/-- The members of an object are read one after the other, each by a step behind its key. -/
theorem yields_readObject {step : σ → String → Reader σ} {f : σ → String × Json → Except Fault σ}
    {members : List (String × Json)} {s : σ} {depth : Nat} {cs rest : List Char} (hd : depth ≠ 0)
    (h : Spells (.object members) cs) (hl : (cs ++ rest).length ≤ limit)
    (hs : StepsThroughMembers limit step f members) :
    Yields limit (readObject depth (foldMembers step s)) (cs ++ rest) (members.foldlM f s)
      rest := by
  obtain ⟨inner, hi, rfl⟩ := h
  have hlength := length_le_of_spellsMembers hi
  simp only [List.append_assoc, List.cons_append, List.nil_append, List.length_append,
    List.length_cons] at hl ⊢
  refine yields_container hd ((yields_next _ _).andThen (yields_foldMembers ?_))
    (yields_endObject rest)
  exact yields_foldMembersIn hi (by omega)
    (by simp only [List.length_append, List.length_cons]; omega) hs

end SvgComponent.Json
