import SvgComponent.Proofs.Text.Marks

/-!
# Occurrences of a mark before and after replacing

A text is cut at each occurrence of a mark (`Chunks`). For a mark that cannot overlap itself
the cuts are all there is to say about occurrences : a text stands behind some mark exactly if
a chunk starts with it (`Chunks.infix_iff`), provided that no mark reaches into it from behind
(`Fenced`).

Replacing puts the new text in place of each cut (`Chunks.replaceAll_eq`). If the new text is the
mark with something fenced behind it, then what stood behind a mark stands there with that in
front, and nothing else does (`infix_replaceAll_iff`).
-/

namespace SvgComponent.Text

/-! ## Prefixes that stop -/

/-- A text without a character cannot reach past it. -/
theorem prefix_of_not_mem {text a b : List Char} {d : Char} (hd : d ∉ text)
    (h : text <+: a ++ d :: b) : text <+: a := by
  rcases Nat.lt_or_ge a.length text.length with hlt | hge
  · have hget := List.prefix_iff_getElem?.1 h a.length hlt
    rw [List.getElem?_append_right (Nat.le_refl _), Nat.sub_self, List.getElem?_cons_zero,
      Option.some_inj] at hget
    exact absurd (hget ▸ List.getElem_mem hlt) hd
  · exact List.prefix_of_prefix_length_le h (List.prefix_append _ _) hge

/-- A mark is in none of two texts nor between them, if what is between is no part of it. -/
theorem not_infix_append_cons {mark a b : List Char} {d : Char} (hd : d ∉ mark)
    (ha : ¬ mark <:+: a) (hb : ¬ mark <:+: b) : ¬ mark <:+: a ++ d :: b := by
  induction a with
  | nil =>
    rw [List.nil_append, List.infix_cons_iff, not_or]
    exact ⟨fun hp => ha (@prefix_of_not_mem mark [] b d hd hp).isInfix, hb⟩
  | cons c a ih =>
    rw [List.cons_append, List.infix_cons_iff, not_or, ← List.cons_append]
    exact ⟨fun hp => ha (prefix_of_not_mem hd hp).isInfix, ih fun hi => ha (List.infix_cons hi)⟩

/-! ## Fenced texts -/

/-- A text that holds no mark, and that no mark reaches into from behind, since it ends in a
character that no mark holds. -/
def Fenced (mark text : List Char) : Prop :=
  ¬ mark <:+: text ∧ ∃ front d, text = front ++ [d] ∧ d ∉ mark

/-- A fenced text in front brings no mark about. -/
theorem Fenced.not_infix_append {mark text a : List Char} (h : Fenced mark text)
    (ha : ¬ mark <:+: a) : ¬ mark <:+: text ++ a := by
  obtain ⟨hfree, front, d, rfl, hd⟩ := h
  rw [List.append_assoc, List.singleton_append]
  exact not_infix_append_cons hd (fun hi => hfree (hi.trans (List.infix_append' [] _ _))) ha

theorem Fenced.append {mark a b : List Char} (ha : Fenced mark a) (hb : Fenced mark b) :
    Fenced mark (a ++ b) := by
  refine ⟨ha.not_infix_append hb.1, ?_⟩
  obtain ⟨-, front, d, rfl, hd⟩ := hb
  exact ⟨a ++ front, d, (List.append_assoc _ _ _).symm, hd⟩

/-- A fenced text ends in front of a mark. -/
theorem Fenced.prefix_of_prefix_append {mark text a b : List Char} (h : Fenced mark text)
    (hp : text <+: a ++ (mark ++ b)) : text <+: a := by
  obtain ⟨hfree, front, d, rfl, hd⟩ := h
  rcases Nat.lt_or_ge a.length (front ++ [d]).length with hlt | hge
  · exfalso
    obtain ⟨text, ht⟩ := List.prefix_of_prefix_length_le (List.prefix_append _ _) hp hlt.le
    have htext : text <+: mark ++ b := by
      rw [← ht] at hp
      exact (List.prefix_append_right_inj a).1 hp
    rcases Nat.le_total mark.length text.length with hle | hle
    · have hm := List.prefix_of_prefix_length_le (List.prefix_append _ _) htext hle
      exact hfree (hm.isInfix.trans (ht ▸ (List.suffix_append a text).isInfix))
    · have hm := List.prefix_of_prefix_length_le htext (List.prefix_append _ _) hle
      have hlast : d ∈ text := by
        have hne : text ≠ [] := by
          rintro rfl
          rw [← ht, List.append_nil] at hlt
          exact lt_irrefl _ hlt
        have hl := congrArg List.getLast? ht
        rw [List.getLast?_append_of_ne_nil _ hne, List.getLast?_concat] at hl
        exact List.mem_of_getLast? hl
      exact hd (hm.subset hlast)
  · exact List.prefix_of_prefix_length_le hp (List.prefix_append _ _) hge

/-! ## Chunks -/

/-- A text cut at each mark : what stands in front of the first, and what behind each. -/
structure Chunks (mark cs first : List Char) (chunks : List (List Char)) : Prop where
  eq : cs = first ++ chunks.flatMap (mark ++ ·)
  first : ¬ mark <:+: first
  rest : ∀ chunk ∈ chunks, ¬ mark <:+: chunk

/-- What cannot be cut at a mark does not hold it. -/
theorem not_infix_of_cutAt?_eq_none {mark cs : List Char} (h : cutAt? mark cs = none) :
    ¬ mark <:+: cs := by
  induction cs with
  | nil =>
    rw [cutAt?, Option.map_eq_none_iff, stripMark?_eq_none_iff] at h
    exact fun hi => h (List.infix_nil.1 hi ▸ List.prefix_refl _)
  | cons c cs ih =>
    rw [cutAt?] at h
    split at h
    · cases h
    · rename_i hs
      rw [List.infix_cons_iff, not_or]
      exact ⟨stripMark?_eq_none_iff.1 hs, ih (Option.map_eq_none_iff.1 h)⟩

/-- A text can be cut at all its marks. -/
theorem exists_chunks {mark : List Char} (hne : mark ≠ []) (cs : List Char) :
    ∃ first chunks, Chunks mark cs first chunks := by
  match hc : cutAt? mark cs with
  | none => exact ⟨cs, [], by simp, not_infix_of_cutAt?_eq_none hc, by simp⟩
  | some (a, b) =>
    have hcs := eq_append_of_cutAt? hc
    have hlt : b.length < cs.length := by
      have := List.length_pos_iff.2 hne
      rw [hcs, List.length_append, List.length_append]
      omega
    obtain ⟨first, chunks, heq, hfirst, hrest⟩ := exists_chunks hne b
    refine ⟨a, first :: chunks, ?_, not_infix_of_cutAt? hne hc,
      List.forall_mem_cons.2 ⟨hfirst, hrest⟩⟩
    rw [hcs, heq, List.flatMap_cons, List.append_assoc, List.append_assoc]
termination_by cs.length

/-! ## Replacing -/

/-- Without the mark nothing is replaced. -/
theorem replaceAll_of_not_infix {mark cs : List Char} (new : List Char) (h : ¬ mark <:+: cs) :
    replaceAll mark new cs = cs := by
  refine replaceAll_of_not_found new ?_
  rw [holds, Option.isSome_eq_false_iff, Option.isNone_iff_eq_none]
  by_contra hc
  obtain ⟨p, hp⟩ := Option.ne_none_iff_exists'.1 hc
  exact h ⟨p.1, p.2, (eq_append_of_cutAt? hp).symm⟩

/-- What has been replaced is passed over. -/
theorem replaceFrom_skip (mark new passed rest : List Char) :
    replaceFrom mark new passed.length (passed ++ rest) = replaceFrom mark new 0 rest := by
  induction passed with
  | nil => rfl
  | cons c passed ih => exact ih

section Mark

variable {m : List Char} {e : Char} (he : e ∉ m)

include he in
/-- The first mark is replaced, and replacing goes on behind it. -/
theorem replaceAll_append_mark {a : List Char} (ha : ¬ (m ++ [e]) <:+: a) (new b : List Char) :
    replaceAll (m ++ [e]) new (a ++ (m ++ [e] ++ b)) =
      a ++ (new ++ replaceAll (m ++ [e]) new b) := by
  induction a with
  | nil =>
    obtain ⟨c, cs, hc⟩ := List.exists_cons_of_ne_nil (show m ++ [e] ≠ [] by simp)
    have hs : (stripMark? (c :: cs) (c :: (cs ++ b))).isSome = true :=
      isSome_stripMark?_iff.2 (List.prefix_append (c :: cs) b)
    rw [List.nil_append, List.nil_append, hc, replaceAll, List.cons_append, replaceFrom, if_pos hs]
    exact congrArg (new ++ ·) (replaceFrom_skip (c :: cs) new cs b)
  | cons c a ih =>
    have hn := stripMark?_eq_none_iff.2 (no_overlap b he ha)
    rw [List.cons_append] at hn
    have hrest := ih fun hi => ha (List.infix_cons hi)
    rw [replaceAll] at hrest
    rw [List.cons_append, replaceAll, replaceFrom, hn, Option.isSome_none, if_neg (by simp), hrest]
    rfl

include he in
/-- Replacing a mark puts something else between the chunks. -/
theorem Chunks.replaceAll_eq {cs first : List Char} {chunks : List (List Char)}
    (h : Chunks (m ++ [e]) cs first chunks) (new : List Char) :
    replaceAll (m ++ [e]) new cs = first ++ chunks.flatMap (new ++ ·) := by
  obtain ⟨rfl, hfirst, hrest⟩ := h
  induction chunks generalizing first with
  | nil =>
    rw [List.flatMap_nil, List.flatMap_nil, List.append_nil]
    exact replaceAll_of_not_infix new hfirst
  | cons chunk chunks ih =>
    rw [List.forall_mem_cons] at hrest
    rw [List.flatMap_cons, List.flatMap_cons, List.append_assoc (m ++ [e]),
      replaceAll_append_mark he hfirst, ih hrest.1 hrest.2, List.append_assoc]

/-! ## Occurrences -/

include he in
/-- No mark starts so late in a mark that it ends behind it. -/
theorem infix_of_infix_append_cons {text a b : List Char} (ha : a.length < m.length)
    (h : m ++ [e] ++ text <:+: a ++ e :: b) : m ++ [e] ++ text <:+: b := by
  induction a with
  | nil =>
    rcases List.infix_cons_iff.1 h with hp | hi
    · obtain ⟨c, cs, rfl⟩ := List.exists_cons_of_ne_nil (List.length_pos_iff.1 ha)
      rw [List.cons_append, List.cons_append, List.cons_prefix_cons] at hp
      exact absurd (hp.1 ▸ List.mem_cons_self) he
    · exact hi
  | cons c a ih =>
    rw [List.cons_append, List.infix_cons_iff] at h
    rcases h with hp | hi
    · have hm : m <+: (c :: a) ++ e :: b := by
        rw [List.append_assoc] at hp
        exact (List.prefix_append _ _).trans hp
      have := (prefix_of_not_mem he hm).length_le
      omega
    · exact ih (Nat.lt_of_succ_lt ha) hi

include he in
/-- A mark behind a text without marks is the next one or a later one. -/
theorem infix_append_mark_iff {text a b : List Char} (ha : ¬ (m ++ [e]) <:+: a) :
    m ++ [e] ++ text <:+: a ++ (m ++ [e] ++ b) ↔ text <+: b ∨ m ++ [e] ++ text <:+: b := by
  constructor
  · intro h
    induction a with
    | nil =>
      rw [List.nil_append] at h
      cases m with
      | nil => exact (List.infix_cons_iff.1 h).imp_left fun hp => (List.cons_prefix_cons.1 hp).2
      | cons c m =>
        rcases List.infix_cons_iff.1 h with hp | hi
        · exact .inl ((List.prefix_append_right_inj _).1 hp)
        · refine .inr (infix_of_infix_append_cons he (Nat.lt_succ_self m.length) ?_)
          simpa using hi
    | cons c a ih =>
      rcases List.infix_cons_iff.1 h with hp | hi
      · exact absurd ((List.prefix_append _ _).trans hp) (no_overlap b he ha)
      · exact ih (fun hi' => ha (List.infix_cons hi')) hi
  · rintro (⟨rest, rfl⟩ | hi)
    · exact ⟨a, rest, by simp⟩
    · exact hi.trans ⟨a ++ (m ++ [e]), [], by simp⟩

include he in
/-- What stands behind a mark starts a chunk. -/
theorem Chunks.infix_iff {cs first text : List Char} {chunks : List (List Char)}
    (h : Chunks (m ++ [e]) cs first chunks) (ht : Fenced (m ++ [e]) text) :
    m ++ [e] ++ text <:+: cs ↔ ∃ chunk ∈ chunks, text <+: chunk := by
  obtain ⟨rfl, hfirst, hrest⟩ := h
  induction chunks generalizing first with
  | nil =>
    refine iff_of_false (fun hi => hfirst ?_) (by simp)
    rw [List.flatMap_nil, List.append_nil] at hi
    exact (List.prefix_append _ _).isInfix.trans hi
  | cons chunk chunks ih =>
    rw [List.forall_mem_cons] at hrest
    have hchunk : text <+: chunk ++ chunks.flatMap (m ++ [e] ++ ·) ↔ text <+: chunk := by
      refine ⟨fun hp => ?_, fun hp => hp.trans (List.prefix_append _ _)⟩
      cases chunks with
      | nil => simpa using hp
      | cons next chunks =>
        rw [List.flatMap_cons, List.append_assoc (m ++ [e])] at hp
        exact ht.prefix_of_prefix_append hp
    rw [List.flatMap_cons, List.append_assoc (m ++ [e]), infix_append_mark_iff he hfirst, hchunk,
      ih hrest.1 hrest.2, List.exists_mem_cons_iff]

include he in
/-- Behind the marks stands what stood there before, with the text added to the mark in front. -/
theorem infix_replaceAll_iff {added text : List Char} (ha : Fenced (m ++ [e]) added)
    (ht : Fenced (m ++ [e]) text) (cs : List Char) :
    m ++ [e] ++ (added ++ text) <:+: replaceAll (m ++ [e]) (m ++ [e] ++ added) cs ↔
      m ++ [e] ++ text <:+: cs := by
  obtain ⟨first, chunks, h⟩ := exists_chunks (show m ++ [e] ≠ [] by simp) cs
  have hnew : Chunks (m ++ [e]) (replaceAll (m ++ [e]) (m ++ [e] ++ added) cs) first
      (chunks.map (added ++ ·)) := by
    refine ⟨?_, h.first,
      List.forall_mem_map.2 fun chunk hc => ha.not_infix_append (h.rest chunk hc)⟩
    rw [h.replaceAll_eq he, List.flatMap_map]
    simp only [List.append_assoc]
  rw [hnew.infix_iff he (ha.append ht), h.infix_iff he ht]
  simp only [List.mem_map, exists_exists_and_eq_and, List.prefix_append_right_inj]

end Mark

/-- Replacing keeps the first character if the new text starts with the mark. -/
theorem head?_replaceAll {m : List Char} {e : Char} (he : e ∉ m) (added cs : List Char) :
    (replaceAll (m ++ [e]) (m ++ [e] ++ added) cs).head? = cs.head? := by
  obtain ⟨first, chunks, h⟩ := exists_chunks (show m ++ [e] ≠ [] by simp) cs
  rw [h.replaceAll_eq he, h.eq]
  cases first with
  | cons c first => rfl
  | nil =>
    cases chunks with
    | nil => rfl
    | cons chunk chunks => cases m <;> rfl

end SvgComponent.Text
