import SvgComponent.Proofs.Tree.Visits

/-!
# Which leaves are retained

Retaining asks a test about every leaf of a document, and about nothing else (`Answered.asked`),
those of a list before those in its elements (`AskedBefore`). All elements stay where they are, and
so do the leaves that pass (`Passed`, `Answered.result`); see `exists_retained`. For a test without
a state it is a recursion on the tree (`retainNodes_stateless`).
-/

namespace SvgComponent.Node

variable {σ : Type}

/-- What has passed at an address : an element, and a leaf if the test says so. -/
inductive Passed (document : Document) (exchanges : List (Exchange Node Bool)) :
    Address → Option Node → Prop
  | element {address : Address} {span : Span} {tag : Tag} {children : List Node}
      (hn : at? document address = some (.element span tag children)) :
      Passed document exchanges address (some (.element span tag children))
  | leaf {address : Address} {leaf : Node} {passes : Bool}
      (he : ⟨address, leaf, passes⟩ ∈ exchanges) :
      Passed document exchanges address (if passes then some leaf else none)

/-- A test has been asked about the leaves of a document, each under its address, and a document has
come out that is made of the elements and of the leaves that have passed. -/
structure Answered (document after : Document) (exchanges : List (Exchange Node Bool)) : Prop where
  asked : ∀ address leaf, (∃ passes, ⟨address, leaf, passes⟩ ∈ exchanges) ↔
    at? document address = some leaf ∧ leaf.isElement = false
  result : Made (Passed document exchanges) document after

/-- The order of questions : nodes that stand side by side come before those in the elements among
them. -/
def AskedBefore (first second : Address) : Prop :=
  first.dropLast < second.dropLast ∨ first.dropLast = second.dropLast ∧ first < second

/-- Retaining has asked about each leaf once, in order. -/
structure Retained (document after : Document) (exchanges : List (Exchange Node Bool)) : Prop
    extends Answered document after exchanges where
  inOrder : exchanges.Pairwise fun a b => AskedBefore a.address b.address

/-! ## Documents of parts -/

section

variable {node leaf other : Node} {rest after front more document inside : List Node}
  {address below : Address} {exchanges exchanges' first second inner : List (Exchange Node Bool)}

theorem Answered.ne_nil (h : Answered document after exchanges) {exchange : Exchange Node Bool}
    (he : exchange ∈ exchanges) : exchange.address ≠ [] := by
  intro hnil
  have hat := ((h.asked exchange.address exchange.handed).1 ⟨exchange.answer, he⟩).1
  rw [hnil, at?_nil] at hat
  cases hat

theorem Answered.exists_of_singleton (h : Answered [node] after exchanges)
    {exchange : Exchange Node Bool} (he : exchange ∈ exchanges) :
    ∃ below, exchange.address = 0 :: below :=
  exists_of_at?_singleton ((h.asked exchange.address exchange.handed).1 ⟨exchange.answer, he⟩).1

/-- It does not matter in which order questions are listed. -/
theorem Answered.congr (h : Answered document after exchanges)
    (hsame : ∀ exchange, exchange ∈ exchanges' ↔ exchange ∈ exchanges) :
    Answered document after exchanges' := by
  obtain ⟨fate, hfate, hafter⟩ := h.result
  refine ⟨by simpa only [hsame] using h.asked, fate, fun address kept hk => ?_, hafter⟩
  cases hk with
  | element hn => exact hfate _ _ (.element hn)
  | leaf he => exact hfate _ _ (.leaf ((hsame _).1 he))

/-- There is nothing to ask about no nodes. -/
theorem answered_nil : Answered [] [] [] := by
  have hnone (address : Address) : at? [] address = none := by
    cases address <;> rfl
  refine ⟨fun address leaf => iff_of_false (by simp) (by simp [hnone]), made_nil ?_⟩
  rintro address kept (hn | he)
  · rw [hnone] at hn
    cases hn
  · cases he

theorem at?_of_leaf (hl : leaf.isElement = false) :
    at? [leaf] address = some other ↔ address = [0] ∧ other = leaf := by
  constructor
  · intro h
    obtain ⟨below, rfl⟩ := exists_of_at?_singleton h
    rcases below with - | ⟨i, further⟩
    · exact ⟨rfl, (Option.some.inj h).symm⟩
    · rw [at?_below (List.cons_ne_nil _ _), children_of_leaf hl] at h
      cases h
  · rintro ⟨rfl, rfl⟩
    rfl

/-- A leaf has been answered by its own question. -/
theorem answered_leaf (hl : leaf.isElement = false) (passes : Bool) :
    Answered [leaf] (if passes then some leaf else none).toList [⟨[0], leaf, passes⟩] := by
  refine ⟨fun address other => ?_, .leaf ?_ fun address kept hk => ?_⟩
  · rw [at?_of_leaf hl]
    simp only [List.mem_singleton, Exchange.mk.injEq, exists_and_left, exists_eq, and_true]
    exact ⟨fun ⟨ha, ho⟩ => ⟨⟨ha, ho⟩, ho ▸ hl⟩, fun h => h.1⟩
  · cases passes <;> simp [hl]
  · cases hk with
    | element hn =>
      rw [← ((at?_of_leaf hl).1 hn).2] at hl
      cases hl
    | leaf he =>
      cases List.mem_singleton.1 he
      exact ⟨rfl, rfl⟩

/-- An element has been answered by the questions about its children. -/
theorem Answered.element {span : Span} {tag : Tag} {children : List Node}
    (h : Answered children inside inner) :
    Answered [.element span tag children] [.element span tag inside]
      (inner.map (.move (0 :: ·))) := by
  refine ⟨fun address leaf => ?_, ?_⟩
  · constructor
    · rintro ⟨passes, he⟩
      obtain ⟨⟨below, leaf, passes⟩, hm, hmove⟩ := List.mem_map.1 he
      cases hmove
      rw [at?_below (h.ne_nil hm)]
      exact (h.asked below leaf).1 ⟨passes, hm⟩
    · rintro ⟨hn, hl⟩
      obtain ⟨below, rfl⟩ := exists_of_at?_singleton hn
      rcases below with - | ⟨i, further⟩
      · cases hn
        cases hl
      · rw [at?_below (List.cons_ne_nil _ _)] at hn
        obtain ⟨passes, he⟩ := (h.asked _ leaf).2 ⟨hn, hl⟩
        exact ⟨passes, (mem_move_iff List.cons_injective).2 he⟩
  · have hmade : Made (Passed children inner)
        ((some (Node.element span tag children)).elim [] Node.children) inside := h.result
    refine hmade.single fun address kept hk => ?_
    cases hk with
    | element hn =>
      obtain ⟨below, rfl⟩ := exists_of_at?_singleton hn
      by_cases hb : below = []
      · subst hb
        exact .inl ⟨rfl, hn.symm⟩
      · exact .inr ⟨below, hb, rfl, .element ((at?_below hb).symm.trans hn)⟩
    | leaf he =>
      obtain ⟨⟨below, leaf, passes⟩, hm, hmove⟩ := List.mem_map.1 he
      cases hmove
      exact .inr ⟨below, h.ne_nil hm, rfl, .leaf hm⟩

/-- Nodes have been answered by the questions about the first one and those about the others, under
later addresses. -/
theorem Answered.cons (h : Answered [node] front first) (h' : Answered rest more second) :
    Answered (node :: rest) (front ++ more) (first ++ second.map (.move later)) := by
  have hfirst : ∀ exchange ∈ first, ∃ below, exchange.address = 0 :: below :=
    fun _ he => h.exists_of_singleton he
  have hne := ne_nil_of_mem_append hfirst fun _ he => h'.ne_nil he
  refine ⟨fun address leaf => ?_, h.result.cons h'.result fun address kept hk => ?_⟩
  · by_cases ha : address = []
    · rw [ha, at?_nil]
      exact iff_of_false (fun ⟨_, he⟩ => hne _ he rfl) (by simp)
    · obtain ⟨below, rfl⟩ | ⟨behind, hb, rfl⟩ := exists_zero_or_later ha
      · simp only [mem_append_zero_iff]
        exact h.asked _ leaf
      · simp only [mem_append_later_iff hfirst, at?_later]
        exact h'.asked behind leaf
  · have ha : address ≠ [] := by
      rintro rfl
      cases hk with
      | element hn => cases hn
      | leaf he => exact hne _ he rfl
    obtain ⟨below, rfl⟩ | ⟨behind, hb, rfl⟩ := exists_zero_or_later ha
    · refine .inl ⟨below, rfl, ?_⟩
      cases hk with
      | element hn => exact .element hn
      | leaf he => exact .leaf (mem_append_zero_iff.1 he)
    · refine .inr ⟨behind, hb, rfl, ?_⟩
      cases hk with
      | element hn => exact .element (at?_later.symm.trans hn)
      | leaf he => exact .leaf ((mem_append_later_iff hfirst).1 he)

end

/-! ## The order of questions -/

/-- Questions about nodes that stand side by side, and questions about what is in the elements among
them, both in order. -/
structure InTurns (top inner : List (Exchange Node Bool)) : Prop where
  above : ∀ exchange ∈ top, exchange.address.dropLast = []
  below : ∀ exchange ∈ inner, exchange.address.dropLast ≠ []
  topOrder : top.Pairwise fun a b => AskedBefore a.address b.address
  innerOrder : inner.Pairwise fun a b => AskedBefore a.address b.address

theorem dropLast_later (address : Address) : (later address).dropLast = later address.dropLast := by
  match address with
  | [] => rfl
  | [i] => rfl
  | i :: j :: rest => rfl

/-- Behind another node questions are in the same order. -/
theorem askedBefore_later_iff {a b : Address} :
    AskedBefore (later a) (later b) ↔ AskedBefore a b := by
  simp only [AskedBefore, dropLast_later, later_lt_later_iff, later_injective.eq_iff]

theorem askedBefore_below_iff {a b : Address} (ha : a ≠ []) (hb : b ≠ []) :
    AskedBefore (0 :: a) (0 :: b) ↔ AskedBefore a b := by
  simp [AskedBefore, List.dropLast_cons_of_ne_nil ha, List.dropLast_cons_of_ne_nil hb]

section

variable {top inner top' inner' : List (Exchange Node Bool)}

/-- Questions about nodes side by side, and then those about what is in them, are in order. -/
theorem InTurns.inOrder (h : InTurns top inner) :
    (top ++ inner).Pairwise fun a b => AskedBefore a.address b.address := by
  refine List.pairwise_append.2 ⟨h.topOrder, h.innerOrder, fun a ha b hb => .inl ?_⟩
  obtain ⟨i, rest, hcons⟩ := List.exists_cons_of_ne_nil (h.below b hb)
  rw [h.above a ha, hcons]
  exact List.nil_lt_cons _ _

/-- Questions about a node and about those behind it can be put into order. -/
theorem InTurns.cons (h : InTurns top inner) (h' : InTurns top' inner')
    (hzero : ∀ exchange ∈ top ++ inner, ∃ below, exchange.address = 0 :: below)
    (hne : ∀ exchange ∈ top' ++ inner', exchange.address ≠ []) :
    InTurns (top ++ top'.map (.move later)) (inner ++ inner'.map (.move later)) := by
  rw [List.forall_mem_append] at hzero hne
  refine ⟨?_, ?_, ?_, ?_⟩
  · rw [List.forall_mem_append, List.forall_mem_map]
    exact ⟨h.above, fun _ he => (dropLast_later _).trans (congrArg later (h'.above _ he))⟩
  · rw [List.forall_mem_append, List.forall_mem_map]
    exact ⟨h.below, fun _ he => (dropLast_later _).trans_ne (later_injective.ne (h'.below _ he))⟩
  · rw [List.pairwise_append, List.pairwise_map]
    refine ⟨h.topOrder, h'.topOrder.imp askedBefore_later_iff.2, fun a ha b hb => .inr ?_⟩
    obtain ⟨moved, hm, rfl⟩ := List.mem_map.1 hb
    obtain ⟨below, hbelow⟩ := hzero.1 a ha
    rw [h.above a ha, Exchange.move, dropLast_later, h'.above moved hm, hbelow]
    exact ⟨rfl, zero_lt_later (hne.1 moved hm) below⟩
  · rw [List.pairwise_append, List.pairwise_map]
    refine ⟨h.innerOrder, h'.innerOrder.imp askedBefore_later_iff.2, fun a ha b hb => .inl ?_⟩
    obtain ⟨moved, hm, rfl⟩ := List.mem_map.1 hb
    obtain ⟨below, hbelow⟩ := hzero.2 a ha
    have hdrop := h.below a ha
    rw [hbelow] at hdrop ⊢
    have hbelow : below ≠ [] := by
      rintro rfl
      exact hdrop rfl
    rw [List.dropLast_cons_of_ne_nil hbelow, Exchange.move, dropLast_later]
    exact zero_lt_later (h'.below moved hm) _

/-- Questions about children are in order when they are about what is in an element. -/
theorem InTurns.element (h : InTurns top inner)
    (hne : ∀ exchange ∈ top ++ inner, exchange.address ≠ []) :
    InTurns [] ((top ++ inner).map (.move (0 :: ·))) := by
  refine ⟨by simp, ?_, .nil, ?_⟩
  · rw [List.forall_mem_map]
    intro exchange he
    rw [Exchange.move, List.dropLast_cons_of_ne_nil (hne exchange he)]
    exact List.cons_ne_nil _ _
  · rw [List.pairwise_map]
    exact h.inOrder.imp_of_mem fun ha hb => (askedBefore_below_iff (hne _ ha) (hne _ hb)).2

end

/-! ## Runs -/

/-- A test is asked about nodes that stand side by side, in one state, and about what is in the
elements among them, in another. -/
def Asks (keep : Node → σ → Bool × σ) (document after : List Node) (s s' t t' : σ) : Prop :=
  ∃ top inner, Exchanged keep top s s' ∧ Exchanged keep inner t t' ∧
    Answered document after (top ++ inner) ∧ InTurns top inner

section

variable {keep : Node → σ → Bool × σ} {node : Node} {rest front more children inside : List Node}
  {s s' t t' u u' : σ}

theorem Asks.nil : Asks keep [] [] s s t t :=
  ⟨[], [], rfl, rfl, answered_nil, by simp, by simp, .nil, .nil⟩

/-- What is asked about a node and what is asked about those behind it is asked about all of them,
each round in its own state. -/
theorem Asks.cons (h : Asks keep [node] front s s' t t') (h' : Asks keep rest more s' u t' u') :
    Asks keep (node :: rest) (front ++ more) s u t u' := by
  obtain ⟨top, inner, he, hi, hr, hturns⟩ := h
  obtain ⟨top', inner', he', hi', hr', hturns'⟩ := h'
  refine ⟨top ++ top'.map (.move later), inner ++ inner'.map (.move later),
    exchanged_append_iff.2 ⟨s', he, exchanged_move_iff.2 he'⟩,
    exchanged_append_iff.2 ⟨t', hi, exchanged_move_iff.2 hi'⟩,
    (hr.cons hr').congr fun exchange => ?_,
    hturns.cons hturns' (fun _ => hr.exists_of_singleton) fun _ => hr'.ne_nil⟩
  simp only [List.map_append, List.mem_append]
  tauto

theorem Asks.leaf (hl : node.isElement = false) :
    Asks keep [node] (if (keep node s).1 then some node else none).toList s (keep node s).2 t t :=
  ⟨[⟨[0], node, (keep node s).1⟩], [], ⟨rfl, rfl⟩, rfl, answered_leaf hl _, by simp, by simp,
    List.pairwise_singleton _ _, .nil⟩

/-- In an element all questions belong to the round of what is inside. -/
theorem Asks.element {span : Span} {tag : Tag} (h : Asks keep children inside t u u t') :
    Asks keep [.element span tag children] [.element span tag inside] s s t t' := by
  obtain ⟨top, inner, he, hi, hr, hturns⟩ := h
  exact ⟨[], (top ++ inner).map (.move (0 :: ·)), rfl,
    exchanged_move_iff.2 (exchanged_append_iff.2 ⟨u, he, hi⟩), hr.element,
    hturns.element fun _ => hr.ne_nil⟩

end

section

variable {keep : Node → σ → Bool × σ} {node : Node} {rest : List Node} {s t : σ}

theorem judge_element (hn : node.isElement = true) :
    judge keep (node :: rest) s = (true :: (judge keep rest s).1, (judge keep rest s).2) := by
  cases node with
  | element => rfl
  | text | cdata | comment | doctype | instruction => cases hn

theorem judge_leaf (hl : node.isElement = false) :
    judge keep (node :: rest) s = ((keep node s).1 :: (judge keep rest (keep node s).2).1,
      (judge keep rest (keep node s).2).2) := by
  cases node with
  | element => cases hl
  | text | cdata | comment | doctype | instruction => rfl

/-- A leaf stays if it has been judged so. -/
theorem retainJudged_leaf (hl : node.isElement = false) (passes : Bool) (verdicts : List Bool) :
    retainJudged keep (node :: rest) (passes :: verdicts) t =
      ((if passes then some node else none).toList ++ (retainJudged keep rest verdicts t).1,
        (retainJudged keep rest verdicts t).2) := by
  cases passes with
  | false => rfl
  | true =>
    cases node with
    | element => cases hl
    | text | cdata | comment | doctype | instruction => rfl

end

section

variable (keep : Node → σ → Bool × σ)

mutual

/-- Retaining inside an element asks about what is in it. -/
theorem asks_retainInside (s : σ) : (node : Node) → (t : σ) → node.isElement = true →
    Asks keep [node] [(retainInside keep node t).1] s s t (retainInside keep node t).2
  | .element _ _ children, t, _ => .element (asks_retainJudged children t _)

/-- Nodes are judged side by side, and then asked about what is in them; by recursion on the
nodes. -/
theorem asks_retainJudged : (document : Document) → (s t : σ) →
    Asks keep document (retainJudged keep document (judge keep document s).1 t).1 s
      (judge keep document s).2 t (retainJudged keep document (judge keep document s).1 t).2
  | [], s, t => .nil
  | node :: rest, s, t => by
    cases hn : node.isElement with
    | true =>
      rw [judge_element hn]
      exact Asks.cons (asks_retainInside s node t hn) (asks_retainJudged rest s _)
    | false =>
      rw [judge_leaf hn, retainJudged_leaf hn]
      exact Asks.cons (.leaf hn) (asks_retainJudged rest _ t)

end

/-- Retaining asks about each leaf once, and keeps the elements and the leaves that pass. -/
theorem exists_retained (document : Document) (s : σ) :
    ∃ exchanges, Exchanged keep exchanges s (retainNodes keep document s).2 ∧
      Retained document (retainNodes keep document s).1 exchanges := by
  obtain ⟨top, inner, he, hi, hr, hturns⟩ :=
    asks_retainJudged keep document s (judge keep document s).2
  exact ⟨top ++ inner, exchanged_append_iff.2 ⟨_, he, hi⟩, hr, hturns.inOrder⟩

end

/-! ## Tests without a state -/

section

variable (keep : Node → Bool)

/-- A test without a state, as one with a state that does not matter. -/
def stateless (node : Node) (s : σ) : Bool × σ :=
  (keep node, s)

theorem judge_stateless (s : σ) (nodes : List Node) : (judge (stateless keep) nodes s).2 = s := by
  induction nodes with
  | nil => rfl
  | cons node rest ih =>
    cases hn : node.isElement with
    | true => rw [judge_element hn, ih]
    | false => rw [judge_leaf hn, stateless, ih]

mutual

/-- For a test without a state an element stays, with what is retained in it. -/
theorem retainInside_stateless (s : σ) : (node : Node) → node.isElement = true →
    retain keep node = some (retainInside (stateless keep) node s).1 ∧
      (retainInside (stateless keep) node s).2 = s
  | .element span tag children, _ => by
    have hc := retainJudged_stateless s children
    have hj : judge (stateless keep) children s = ((judge (stateless keep) children s).1, s) :=
      Prod.ext rfl (judge_stateless keep s children)
    rw [retainInside, hj, retain]
    simp only [hc, and_self]

/-- For a test without a state it does not matter that nodes are judged first. -/
theorem retainJudged_stateless (s : σ) : (document : Document) →
    retainJudged (stateless keep) document (judge (stateless keep) document s).1 s =
      (retainAll keep document, s)
  | [] => rfl
  | node :: rest => by
    have hrest := retainJudged_stateless s rest
    rw [retainAll]
    cases hn : node.isElement with
    | true =>
      obtain ⟨hr, hs⟩ := retainInside_stateless s node hn
      rw [judge_element hn, retainJudged, hr]
      simp only [hs, hrest, Option.toList_some, List.singleton_append]
    | false =>
      rw [judge_leaf hn, retainJudged_leaf hn, retain_of_not_isElement keep hn, stateless, hrest]

end

/-- Retaining by a test without a state is a recursion on the tree. -/
theorem retainNodes_stateless (document : Document) (s : σ) :
    retainNodes (stateless keep) document s = (retainAll keep document, s) := by
  have hj : judge (stateless keep) document s = ((judge (stateless keep) document s).1, s) :=
    Prod.ext rfl (judge_stateless keep s document)
  rw [retainNodes, hj]
  exact retainJudged_stateless keep s document

end

/-! ## Both -/

/-- A visit hands every element none of whose ancestors was removed to the callback once, in
document order and with the children that it was left with, and leaves what was kept behind : it
ends exactly so, at some depth and with the same at any greater one, and it does end if no element
is left with more nodes than it had. Retaining asks about every leaf once and leaves the elements
and those that pass. The recursions on the tree that the stages use are the two with callbacks that
leave the children alone and with tests without a state. -/
theorem visited_and_retained (f : Element → σ → Option Element × σ)
    (g : Tag → List Node → σ → Option Tag × σ) (keep : Node → σ → Bool × σ) (test : Node → Bool)
    (document : Document) (s : σ) :
    (∀ after t, (∃ depth, visitElements f depth document s = some (after, t)) ↔
      ∃ exchanges : Exchanges, Exchanged f exchanges s t ∧ Visited document after exchanges) ∧
    (∀ depth deeper result, depth ≤ deeper → visitElements f depth document s = some result →
      visitElements f deeper document s = some result) ∧
    ((∀ element u left, (f element u).1 = some left →
      countAll left.children ≤ countAll element.children) →
      ∃ result, visitElements f (countAll document + 1) document s = some result) ∧
    visitElements (leavingChildren g) (countAll document + 1) document s =
      some (visitAll g document s) ∧
    (∃ exchanges, Exchanged keep exchanges s (retainNodes keep document s).2 ∧
      Retained document (retainNodes keep document s).1 exchanges) ∧
    retainNodes (stateless test) document s = (retainAll test document, s) :=
  ⟨fun _ _ => exists_visitElements_iff, fun _ _ _ hd h => visitElements_mono hd h,
    fun hf => exists_visitElements hf (Nat.lt_succ_self _) s,
    visitElements_leavingChildren g (Nat.lt_succ_self _) s, exists_retained keep document s,
    retainNodes_stateless test document s⟩

/-- A callback that counts its calls, removes definitions and empties titles. -/
def clearing (element : Element) (calls : Nat) : Option Element × Nat :=
  (match element.tag.name with
    | "defs" => none
    | "title" => some { element with children := [] }
    | _ => some element, calls + 1)

/-- A drawing with definitions, a note and a title. -/
def titled : Document :=
  [.element {} ⟨"svg", .empty⟩
    [.element {} ⟨"defs", .empty⟩ [.element {} ⟨"path", .empty⟩ []],
      .comment {} "note", .element {} ⟨"title", .empty⟩ [.text {} "T"]]]

theorem visited_and_retained_titled :
    (∃ exchanges : Exchanges, Exchanged clearing exchanges 0 3 ∧
      Visited titled [.element {} ⟨"svg", .empty⟩
        [.comment {} "note", .element {} ⟨"title", .empty⟩ []]] exchanges) ∧
    (∃ result, visitElements clearing 4 titled 0 = some result ∧
      visitElements clearing (countAll titled + 1) titled 0 = some result) ∧
    ∃ result, visitElements clearing (countAll titled + 1) titled 0 = some result := by
  obtain ⟨hiff, hmono, hends, -⟩ := visited_and_retained clearing
    (fun tag _ calls => (some tag, calls)) (fun _ asked => (asked % 2 = 0, asked + 1))
    (fun _ => true) titled 0
  refine ⟨(hiff _ _).1 ⟨4, rfl⟩, ⟨_, rfl, hmono 4 _ _ (by decide) rfl⟩,
    hends fun element calls left hl => ?_⟩
  unfold clearing at hl
  split at hl
  · cases hl
  · cases hl
    exact Nat.zero_le _
  · cases hl
    exact le_rfl

end SvgComponent.Node
