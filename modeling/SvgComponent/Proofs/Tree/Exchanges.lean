import Mathlib.Data.Set.List
import SvgComponent.Proofs.Tree.Fates

/-!
# What a visit hands to its callback

A visit makes exchanges with its callback : it hands over an element, and the callback answers with
the element as it is to be, or has it removed. An exchange is told with the address of the element,
in the document as the callback leaves it on the way : below an element that was kept stand the
children that it was left with (`Stands`).

`Visited` says of exchanges what a visit promises : there is one for each element that stands at an
address, in the order of the document, and the document that comes out of the visit is made of the
elements that were kept, as they were left, and of the leaves. The two parts of a list of nodes, and
an element and its children, can be looked at by themselves (`visited_cons_iff`,
`visited_element_iff`), and a leaf is left as it is (`visited_leaf_iff`).
-/

namespace SvgComponent.Node

variable {σ α β : Type}

/-! ## Exchanges -/

/-- What was handed to a callback for the node at an address, and what it answered. -/
structure Exchange (α β : Type) where
  address : Address
  handed : α
  answer : β

/-- The same exchange for a node at another address. -/
def Exchange.move (g : Address → Address) (exchange : Exchange α β) : Exchange α β :=
  { exchange with address := g exchange.address }

/-- A callback answers so, one time after the other, and its state changes from one to another. -/
def Exchanged (f : α → σ → β × σ) : List (Exchange α β) → σ → σ → Prop
  | [], s, t => s = t
  | exchange :: rest, s, t =>
    (f exchange.handed s).1 = exchange.answer ∧ Exchanged f rest (f exchange.handed s).2 t

section

variable {f : α → σ → β × σ} {s t : σ} {exchanges first second : List (Exchange α β)}
  {g : Address → Address} {address below : Address} {handed top : α} {answer reply : β}

/-- Exchanges are made one after the other if there is a state between them. -/
theorem exchanged_append_iff :
    Exchanged f (first ++ second) s t ↔
      ∃ between, Exchanged f first s between ∧ Exchanged f second between t := by
  induction first generalizing s with
  | nil => simp [Exchanged]
  | cons exchange first ih => simp [Exchanged, ih, and_assoc]

/-- What a callback answers does not depend on addresses. -/
theorem exchanged_move_iff :
    Exchanged f (exchanges.map (Exchange.move g)) s t ↔ Exchanged f exchanges s t := by
  induction exchanges generalizing s with
  | nil => rfl
  | cons exchange exchanges ih => simp only [List.map_cons, Exchanged, Exchange.move, ih]

/-- Under moved addresses there are the same exchanges. -/
theorem mem_move_iff (hg : Function.Injective g) :
    ⟨g address, handed, answer⟩ ∈ exchanges.map (Exchange.move g) ↔
      ⟨address, handed, answer⟩ ∈ exchanges := by
  simp only [List.mem_map]
  constructor
  · rintro ⟨⟨a, e, b⟩, he, hm⟩
    simp only [Exchange.move, Exchange.mk.injEq] at hm
    obtain ⟨ha, rfl, rfl⟩ := hm
    exact hg ha ▸ he
  · intro he
    exact ⟨_, he, rfl⟩

/-- Of exchanges about a node and about those behind it, some are about what is in the node. -/
theorem mem_append_zero_iff :
    ⟨0 :: below, handed, answer⟩ ∈ first ++ second.map (.move later) ↔
      ⟨0 :: below, handed, answer⟩ ∈ first := by
  rw [List.mem_append, or_iff_left]
  intro hm
  obtain ⟨exchange, -, hmove⟩ := List.mem_map.1 hm
  exact later_ne_zero _ _ (congrArg Exchange.address hmove)

/-- Behind the first node all exchanges are those of the other nodes. -/
theorem mem_append_later_iff (hfirst : ∀ exchange ∈ first, ∃ below, exchange.address = 0 :: below) :
    ⟨later address, handed, answer⟩ ∈ first ++ second.map (.move later) ↔
      ⟨address, handed, answer⟩ ∈ second := by
  rw [List.mem_append, mem_move_iff later_injective, or_iff_right]
  intro hm
  obtain ⟨below, hb⟩ := hfirst _ hm
  exact later_ne_zero address below hb

/-- Of exchanges about a node and about what is in it, some are about what is in it. -/
theorem mem_below_iff :
    ⟨0 :: below, handed, answer⟩ ∈
        (⟨[0], top, reply⟩ :: exchanges.map (.move (0 :: ·)) : List (Exchange α β)) ↔
      (below = [] ∧ handed = top ∧ answer = reply) ∨ ⟨below, handed, answer⟩ ∈ exchanges := by
  rw [List.mem_cons, mem_move_iff List.cons_injective, Exchange.mk.injEq, List.cons_eq_cons]
  simp only [true_and]

/-- No exchange is about the whole document. -/
theorem ne_nil_of_mem_append (hfirst : ∀ exchange ∈ first, ∃ below, exchange.address = 0 :: below)
    (hsecond : ∀ exchange ∈ second, exchange.address ≠ []) :
    ∀ exchange ∈ first ++ second.map (.move later), exchange.address ≠ [] := by
  rw [List.forall_mem_append, List.forall_mem_map]
  refine ⟨fun exchange he => ?_, fun exchange he => later_injective.ne (hsecond exchange he)⟩
  obtain ⟨below, hb⟩ := hfirst exchange he
  rw [hb]
  exact List.cons_ne_nil _ _

theorem exists_below_of_mem :
    ∀ exchange ∈ (⟨[0], top, reply⟩ :: exchanges.map (.move (0 :: ·)) : List (Exchange α β)),
      ∃ below, exchange.address = 0 :: below := by
  rw [List.forall_mem_cons, List.forall_mem_map]
  exact ⟨⟨[], rfl⟩, fun exchange _ => ⟨exchange.address, rfl⟩⟩

/-! ## Document order -/

/-- The exchanges are in document order. -/
def InOrder (exchanges : List (Exchange α β)) : Prop :=
  exchanges.Pairwise fun a b => a.address < b.address

/-- Exchanges are in order if those about the first node are, and those about the nodes behind
it. -/
theorem inOrder_append_iff (hfirst : ∀ exchange ∈ first, ∃ below, exchange.address = 0 :: below)
    (hsecond : ∀ exchange ∈ second, exchange.address ≠ []) :
    InOrder (first ++ second.map (.move later)) ↔ InOrder first ∧ InOrder second := by
  rw [InOrder, List.pairwise_append, List.pairwise_map]
  simp only [Exchange.move, later_lt_later_iff]
  refine and_congr_right fun _ => and_iff_left fun a ha b hb => ?_
  obtain ⟨below, hbelow⟩ := hfirst a ha
  obtain ⟨moved, hm, rfl⟩ := List.mem_map.1 hb
  rw [hbelow]
  exact zero_lt_later (hsecond moved hm) below

/-- In order, what is about the first of several nodes comes before what is about those behind it.
-/
theorem exists_append_of_inOrder (h : InOrder exchanges)
    (hne : ∀ exchange ∈ exchanges, exchange.address ≠ []) :
    ∃ first second : List (Exchange α β), exchanges = first ++ second.map (.move later) ∧
      (∀ exchange ∈ first, ∃ below, exchange.address = 0 :: below) ∧
      ∀ exchange ∈ second, exchange.address ≠ [] := by
  rw [InOrder] at h
  induction h with
  | nil => exact ⟨[], [], rfl, by simp, by simp⟩
  | @cons exchange exchanges hlt _ ih =>
    rw [List.forall_mem_cons] at hne
    obtain ⟨first, second, rfl, hfirst, hsecond⟩ := ih hne.2
    obtain ⟨below, ha⟩ | ⟨behind, hb, ha⟩ := exists_zero_or_later hne.1
    · exact ⟨exchange :: first, second, rfl, List.forall_mem_cons.2 ⟨⟨below, ha⟩, hfirst⟩, hsecond⟩
    · have hnil : first = [] := by
        refine List.eq_nil_iff_forall_not_mem.2 fun other ho => ?_
        obtain ⟨below, hbelow⟩ := hfirst other ho
        have hbefore := hlt other (List.mem_append_left _ ho)
        rw [ha, hbelow] at hbefore
        exact lt_asymm hbefore (zero_lt_later hb below)
      refine ⟨[], exchange.move (fun _ => behind) :: second, ?_, by simp,
        List.forall_mem_cons.2 ⟨hb, hsecond⟩⟩
      rw [hnil, List.nil_append, List.map_cons, Exchange.move, Exchange.move, ← ha]
      rfl

/-- Exchanges are in order behind the one about the element they are in. -/
theorem inOrder_cons_iff (hne : ∀ exchange ∈ exchanges, exchange.address ≠ []) :
    InOrder (⟨[0], top, reply⟩ :: exchanges.map (.move (0 :: ·))) ↔ InOrder exchanges := by
  rw [InOrder, List.pairwise_cons, List.forall_mem_map, List.pairwise_map]
  simp only [Exchange.move, List.cons_lt_cons_iff, lt_irrefl, false_or, true_and]
  refine and_iff_right fun exchange he => ?_
  obtain ⟨i, rest, hcons⟩ := List.exists_cons_of_ne_nil (hne exchange he)
  rw [hcons]
  exact List.nil_lt_cons _ _

end

/-! ## Visits -/

/-- Exchanges about elements, which are answered with the element that is kept, if it is. -/
abbrev Exchanges := List (Exchange Element (Option Element))

/-- A node stands at an address : at the top level, or as a child that the element above it was left
with. -/
def Stands (document : Document) (exchanges : Exchanges) (address : Address) (node : Node) : Prop :=
  (∃ i, address = [i] ∧ document[i]? = some node) ∨
    ∃ exchange ∈ exchanges, ∃ left i, exchange.answer = some left ∧
      address = exchange.address ++ [i] ∧ left.children[i]? = some node

/-- What a visit has left at an address : a leaf that stands there, or what was answered about the
element. -/
inductive Left (document : Document) (exchanges : Exchanges) : Address → Option Node → Prop
  | leaf {address : Address} {leaf : Node} (hs : Stands document exchanges address leaf)
      (hl : leaf.isElement = false) : Left document exchanges address (some leaf)
  | answer {address : Address} {element : Element} {answer : Option Element}
      (he : ⟨address, element, answer⟩ ∈ exchanges) :
      Left document exchanges address (answer.map Element.toNode)

/-- An element was handed over under an address if, and only if, it stands there. -/
def Hands (document : Document) (exchanges : Exchanges) (address : Address) : Prop :=
  ∀ element : Element, (∃ answer, ⟨address, element, answer⟩ ∈ exchanges) ↔
    Stands document exchanges address element.toNode

/-- A visit has made these exchanges, and a document has come out. Each element that stands at an
address was handed over once, and nothing else was, in document order. What has come out is made of
the elements that were kept, as they were left, and of the leaves. -/
structure Visited (document after : Document) (exchanges : Exchanges) : Prop where
  hands : ∀ address, Hands document exchanges address
  inOrder : InOrder exchanges
  result : Made (Left document exchanges) document after

/-! ## Nodes that stand at an address -/

section

variable {document rest after : List Node} {exchanges first second inner : Exchanges}
  {node other : Node} {left : Option Node} {address : Address} {element : Element}

theorem Stands.ne_nil (h : Stands document exchanges address node) : address ≠ [] := by
  obtain ⟨i, rfl, -⟩ | ⟨exchange, -, left, i, -, rfl, -⟩ := h <;> simp

/-- An element that was handed over is below a node at the top level that was handed over. -/
theorem Visited.exists_top (h : Visited document after exchanges)
    {exchange : Exchange Element (Option Element)} (he : exchange ∈ exchanges) :
    ∃ i below, exchange.address = i :: below ∧
      ∃ top ∈ exchanges, top.address = [i] ∧ document[i]? = some top.handed.toNode := by
  induction hn : exchange.address.length using Nat.strong_induction_on generalizing exchange with
  | _ n ih =>
    have hs := (h.hands exchange.address exchange.handed).1 ⟨exchange.answer, he⟩
    obtain ⟨i, ha, hd⟩ | ⟨outer, ho, left, i, -, ha, -⟩ := hs
    · exact ⟨i, [], ha, exchange, he, ha, hd⟩
    · have hlt : outer.address.length < n := by
        rw [← hn, ha, List.length_append]
        exact Nat.lt_succ_self _
      obtain ⟨j, below, hj, htop⟩ := ih _ hlt ho rfl
      exact ⟨j, below ++ [i], by rw [ha, hj]; rfl, htop⟩

/-- Of a single node everything stands under the first address. -/
theorem Stands.exists_of_singleton
    (hfirst : ∀ exchange ∈ first, ∃ below, exchange.address = 0 :: below)
    (h : Stands [node] first address other) : ∃ below, address = 0 :: below := by
  obtain ⟨i, rfl, hi⟩ | ⟨exchange, he, left, i, -, rfl, -⟩ := h
  · obtain ⟨hlt, -⟩ := List.getElem?_eq_some_iff.1 hi
    obtain rfl : i = 0 := by simpa using hlt
    exact ⟨[], rfl⟩
  · obtain ⟨below, hb⟩ := hfirst exchange he
    exact ⟨below ++ [i], by rw [hb]; rfl⟩

theorem Visited.ne_nil (h : Visited document after exchanges)
    {exchange : Exchange Element (Option Element)} (he : exchange ∈ exchanges) :
    exchange.address ≠ [] := by
  obtain ⟨i, below, ha, -⟩ := h.exists_top he
  simp [ha]

/-- All exchanges about a single node are under the first address. -/
theorem Visited.exists_of_singleton (h : Visited [node] after exchanges)
    {exchange : Exchange Element (Option Element)} (he : exchange ∈ exchanges) :
    ∃ below, exchange.address = 0 :: below := by
  obtain ⟨i, below, ha, top, -, -, hi⟩ := h.exists_top he
  obtain rfl : i = 0 := by
    obtain ⟨hlt, -⟩ := List.getElem?_eq_some_iff.1 hi
    simpa using hlt
  exact ⟨below, ha⟩

theorem Left.ne_nil (h : ∀ exchange ∈ exchanges, exchange.address ≠ [])
    (hl : Left document exchanges address left) : address ≠ [] := by
  cases hl with
  | leaf hs => exact hs.ne_nil
  | answer he => exact h _ he

theorem Left.exists_of_singleton
    (hfirst : ∀ exchange ∈ first, ∃ below, exchange.address = 0 :: below)
    (hl : Left [node] first address left) : ∃ below, address = 0 :: below := by
  cases hl with
  | leaf hs => exact hs.exists_of_singleton hfirst
  | answer he => exact hfirst _ he

/-! ## A list of nodes -/

section

variable (hsecond : ∀ exchange ∈ second, exchange.address ≠ [])

include hsecond

/-- Under the first address stands what is in the first node. -/
theorem stands_zero_iff {below : Address} :
    Stands (node :: rest) (first ++ second.map (.move later)) (0 :: below) other ↔
      Stands [node] first (0 :: below) other := by
  refine or_congr (exists_congr fun i => and_congr_right fun hi => ?_) ?_
  · obtain ⟨rfl, -⟩ := List.cons_eq_cons.1 hi
    rfl
  · simp only [List.mem_append, List.mem_map]
    constructor
    · rintro ⟨exchange, he | ⟨moved, hm, rfl⟩, left, i, hl, ha, hi⟩
      · exact ⟨exchange, he, left, i, hl, ha, hi⟩
      · rw [Exchange.move, ← later_append (hsecond moved hm)] at ha
        exact absurd ha.symm (later_ne_zero _ _)
    · rintro ⟨exchange, he, h⟩
      exact ⟨exchange, .inl he, h⟩

/-- Under a later address stands what is in the nodes behind the first one. -/
theorem stands_later_iff (hfirst : ∀ exchange ∈ first, ∃ below, exchange.address = 0 :: below)
    (ha : address ≠ []) :
    Stands (node :: rest) (first ++ second.map (.move later)) (later address) other ↔
      Stands rest second address other := by
  obtain ⟨j, more, rfl⟩ := List.exists_cons_of_ne_nil ha
  refine or_congr ?_ ?_
  · constructor
    · rintro ⟨i, hi, hn⟩
      obtain ⟨rfl, rfl⟩ := List.cons_eq_cons.1 hi
      exact ⟨j, rfl, hn⟩
    · rintro ⟨i, hi, hn⟩
      obtain ⟨rfl, rfl⟩ := List.cons_eq_cons.1 hi
      exact ⟨j + 1, rfl, hn⟩
  · simp only [List.mem_append, List.mem_map]
    constructor
    · rintro ⟨exchange, he | ⟨moved, hm, rfl⟩, left, i, hl, hi, hn⟩
      · obtain ⟨below, hb⟩ := hfirst exchange he
        rw [hb] at hi
        exact absurd hi (later_ne_zero _ (below ++ [i]))
      · rw [Exchange.move, ← later_append (hsecond moved hm)] at hi
        exact ⟨moved, hm, left, i, hl, later_injective hi, hn⟩
    · rintro ⟨exchange, he, left, i, hl, hi, hn⟩
      refine ⟨exchange.move later, .inr ⟨exchange, he, rfl⟩, left, i, hl, ?_, hn⟩
      rw [Exchange.move, ← later_append (hsecond exchange he), hi]

end

/-- Under the first address is left what is left of the first node. -/
theorem left_zero_iff (hsecond : ∀ exchange ∈ second, exchange.address ≠ []) {below : Address} :
    Left (node :: rest) (first ++ second.map (.move later)) (0 :: below) left ↔
      Left [node] first (0 :: below) left := by
  constructor <;> intro h
  · cases h with
    | leaf hs hl => exact .leaf ((stands_zero_iff hsecond).1 hs) hl
    | answer he => exact .answer (mem_append_zero_iff.1 he)
  · cases h with
    | leaf hs hl => exact .leaf ((stands_zero_iff hsecond).2 hs) hl
    | answer he => exact .answer (mem_append_zero_iff.2 he)

/-- Under a later address is left what is left of the nodes behind the first one. -/
theorem left_later_iff (hsecond : ∀ exchange ∈ second, exchange.address ≠ [])
    (hfirst : ∀ exchange ∈ first, ∃ below, exchange.address = 0 :: below) (ha : address ≠ []) :
    Left (node :: rest) (first ++ second.map (.move later)) (later address) left ↔
      Left rest second address left := by
  constructor <;> intro h
  · cases h with
    | leaf hs hl => exact .leaf ((stands_later_iff hsecond hfirst ha).1 hs) hl
    | answer he => exact .answer ((mem_append_later_iff hfirst).1 he)
  · cases h with
    | leaf hs hl => exact .leaf ((stands_later_iff hsecond hfirst ha).2 hs) hl
    | answer he => exact .answer ((mem_append_later_iff hfirst).2 he)

theorem hands_nil (hne : ∀ exchange ∈ exchanges, exchange.address ≠ []) :
    Hands document exchanges [] :=
  fun _ => iff_of_false (fun ⟨_, he⟩ => hne _ he rfl) fun hs => hs.ne_nil rfl

/-- Nothing is handed over behind a single node. -/
theorem hands_of_ne_zero (hfirst : ∀ exchange ∈ first, ∃ below, exchange.address = 0 :: below)
    (ha : ∀ below, address ≠ 0 :: below) : Hands [node] first address := by
  refine fun element => iff_of_false ?_ fun hs => ?_
  · rintro ⟨answer, he⟩
    obtain ⟨below, hb⟩ := hfirst _ he
    exact ha below hb
  · obtain ⟨below, hb⟩ := hs.exists_of_singleton hfirst
    exact ha below hb

/-- What is handed over is what stands there, for the first node and for those behind it. -/
theorem hands_append_iff (hfirst : ∀ exchange ∈ first, ∃ below, exchange.address = 0 :: below)
    (hsecond : ∀ exchange ∈ second, exchange.address ≠ []) :
    (∀ address, Hands (node :: rest) (first ++ second.map (.move later)) address) ↔
      (∀ address, Hands [node] first address) ∧ ∀ address, Hands rest second address := by
  have hzero (below : Address) :
      Hands (node :: rest) (first ++ second.map (.move later)) (0 :: below) ↔
        Hands [node] first (0 :: below) := by
    simp only [Hands, mem_append_zero_iff, stands_zero_iff hsecond]
  have hlater {behind : Address} (hb : behind ≠ []) :
      Hands (node :: rest) (first ++ second.map (.move later)) (later behind) ↔
        Hands rest second behind := by
    simp only [Hands, mem_append_later_iff hfirst, stands_later_iff hsecond hfirst hb]
  constructor
  · refine fun h => ⟨fun address => ?_, fun address => ?_⟩
    · by_cases ha : ∃ below, address = 0 :: below
      · obtain ⟨below, rfl⟩ := ha
        exact (hzero below).1 (h _)
      · exact hands_of_ne_zero hfirst (not_exists.1 ha)
    · by_cases ha : address = []
      · exact ha ▸ hands_nil hsecond
      · exact (hlater ha).1 (h _)
  · rintro ⟨h, h'⟩ address
    by_cases ha : address = []
    · exact ha ▸ hands_nil (ne_nil_of_mem_append hfirst hsecond)
    · obtain ⟨below, rfl⟩ | ⟨behind, hb, rfl⟩ := exists_zero_or_later ha
      · exact (hzero below).2 (h _)
      · exact (hlater hb).2 (h' _)

/-- A visit of a node, and one of the nodes behind it, are a visit of all of them. -/
theorem Visited.cons {front more : List Node} (h : Visited [node] front first)
    (h' : Visited rest more second) :
    Visited (node :: rest) (front ++ more) (first ++ second.map (.move later)) := by
  have hfirst : ∀ exchange ∈ first, ∃ below, exchange.address = 0 :: below :=
    fun _ he => h.exists_of_singleton he
  have hsecond : ∀ exchange ∈ second, exchange.address ≠ [] := fun _ he => h'.ne_nil he
  refine ⟨(hands_append_iff hfirst hsecond).2 ⟨h.hands, h'.hands⟩,
    (inOrder_append_iff hfirst hsecond).2 ⟨h.inOrder, h'.inOrder⟩,
    h.result.cons h'.result fun address left hl => ?_⟩
  have ha := hl.ne_nil (ne_nil_of_mem_append hfirst hsecond)
  obtain ⟨below, rfl⟩ | ⟨behind, hb, rfl⟩ := exists_zero_or_later ha
  · exact .inl ⟨below, rfl, (left_zero_iff hsecond).1 hl⟩
  · exact .inr ⟨behind, hb, rfl, (left_later_iff hsecond hfirst hb).1 hl⟩

/-- A visit of several nodes is one of the first node, and then one of the nodes behind it. -/
theorem visited_cons_iff :
    Visited (node :: rest) after exchanges ↔
      ∃ (front more : List Node) (first second : Exchanges),
        exchanges = first ++ second.map (.move later) ∧ after = front ++ more ∧
          Visited [node] front first ∧ Visited rest more second := by
  constructor
  · intro h
    obtain ⟨first, second, rfl, hfirst, hsecond⟩ :=
      exists_append_of_inOrder h.inOrder fun _ he => h.ne_nil he
    obtain ⟨hands, hands'⟩ := (hands_append_iff hfirst hsecond).1 h.hands
    obtain ⟨horder, horder'⟩ := (inOrder_append_iff hfirst hsecond).1 h.inOrder
    have hzero (address : Address) (left : Option Node) (hl : Left [node] first address left) :
        Left (node :: rest) (first ++ second.map (.move later)) address left := by
      obtain ⟨below, rfl⟩ := hl.exists_of_singleton hfirst
      exact (left_zero_iff hsecond).2 hl
    have hlater (address : Address) (left : Option Node) (hl : Left rest second address left) :
        address ≠ [] ∧
          Left (node :: rest) (first ++ second.map (.move later)) (later address) left := by
      have ha := hl.ne_nil hsecond
      exact ⟨ha, (left_later_iff hsecond hfirst ha).2 hl⟩
    obtain ⟨front, more, rfl, hfront, hmore⟩ := h.result.exists_append hzero hlater
    exact ⟨front, more, first, second, rfl, rfl, ⟨hands, horder, hfront⟩, ⟨hands', horder', hmore⟩⟩
  · rintro ⟨front, more, first, second, rfl, rfl, h, h'⟩
    exact h.cons h'

/-! ## An element and its children -/

theorem toNode_injective : Function.Injective Element.toNode := by
  rintro ⟨span, tag, children⟩ ⟨span', tag', children'⟩ h
  cases h
  rfl

/-- Below an element stands what is in the children it was left with. -/
theorem stands_below_iff {answer : Option Element} {below : Address} :
    Stands [element.toNode] (⟨[0], element, answer⟩ :: inner.map (.move (0 :: ·))) (0 :: below)
        other ↔
      below = [] ∧ other = element.toNode ∨
        Stands (answer.elim [] Element.children) inner below other := by
  simp only [Stands, List.mem_cons, List.mem_map]
  constructor
  · rintro (⟨i, hi, hn⟩ | ⟨exchange, rfl | ⟨moved, hm, rfl⟩, left, i, hl, hi, hn⟩)
    · obtain ⟨rfl, rfl⟩ := List.cons_eq_cons.1 hi
      exact .inl ⟨rfl, (Option.some.inj hn).symm⟩
    · obtain rfl : answer = some left := hl
      exact .inr (.inl ⟨i, (List.cons_eq_cons.1 hi).2, hn⟩)
    · exact .inr (.inr ⟨moved, hm, left, i, hl, (List.cons_eq_cons.1 hi).2, hn⟩)
  · rintro (⟨rfl, rfl⟩ | ⟨i, rfl, hn⟩ | ⟨exchange, he, left, i, hl, rfl, hn⟩)
    · exact .inl ⟨0, rfl, rfl⟩
    · cases answer with
      | none => cases hn
      | some left => exact .inr ⟨_, .inl rfl, left, i, rfl, rfl, hn⟩
    · exact .inr ⟨_, .inr ⟨exchange, he, rfl⟩, left, i, hl, rfl, hn⟩

/-- The exchange about an element comes before those about what is in it. -/
theorem Visited.exists_cons (h : Visited [element.toNode] after exchanges) :
    ∃ (answer : Option Element) (inner : Exchanges),
      exchanges = ⟨[0], element, answer⟩ :: inner.map (.move (0 :: ·)) ∧
      ∀ exchange ∈ inner, exchange.address ≠ [] := by
  obtain ⟨answer, he⟩ := (h.hands [0] element).2 (.inl ⟨0, rfl, rfl⟩)
  cases exchanges with
  | nil => cases he
  | cons exchange others =>
    obtain ⟨hfirst, -⟩ := List.pairwise_cons.1 h.inOrder
    obtain ⟨below, hb⟩ := h.exists_of_singleton List.mem_cons_self
    have hhead : exchange = ⟨[0], element, answer⟩ := by
      refine ((List.mem_cons.1 he).resolve_right fun hm => ?_).symm
      have hlt := hfirst _ hm
      rw [hb, List.cons_lt_cons_iff] at hlt
      rcases hlt with hlt | ⟨-, hlt⟩
      · exact absurd hlt (lt_irrefl 0)
      · exact List.not_lt_nil _ hlt
    have hmoved : others ∈ Set.range (List.map (Exchange.move (0 :: ·))) := by
      rw [Set.range_list_map]
      intro other hm
      obtain ⟨below', hb'⟩ := h.exists_of_singleton (List.mem_cons_of_mem _ hm)
      exact ⟨other.move fun _ => below', by rw [Exchange.move, Exchange.move, ← hb']⟩
    obtain ⟨inner, rfl⟩ := hmoved
    refine ⟨answer, inner, by rw [hhead], fun other hm hnil => ?_⟩
    have hlt := hfirst _ (List.mem_map_of_mem hm)
    rw [hhead, Exchange.move, hnil] at hlt
    exact absurd hlt (lt_irrefl [0])

/-- Below an element is left what is left of the children it was left with. -/
theorem left_below_iff {answer : Option Element} {below : Address} :
    Left [element.toNode] (⟨[0], element, answer⟩ :: inner.map (.move (0 :: ·))) (0 :: below) left ↔
      below = [] ∧ left = answer.map Element.toNode ∨
        Left (answer.elim [] Element.children) inner below left := by
  constructor
  · intro h
    cases h with
    | leaf hs hl =>
      obtain ⟨-, rfl⟩ | hs := stands_below_iff.1 hs
      · cases hl
      · exact .inr (.leaf hs hl)
    | answer he =>
      obtain ⟨rfl, -, rfl⟩ | hm := mem_below_iff.1 he
      · exact .inl ⟨rfl, rfl⟩
      · exact .inr (.answer hm)
  · rintro (⟨rfl, rfl⟩ | h)
    · exact .answer List.mem_cons_self
    · cases h with
      | leaf hs hl => exact .leaf (stands_below_iff.2 (.inr hs)) hl
      | answer he => exact .answer (mem_below_iff.2 (.inr he))

/-- What is handed over is what stands there, for an element if it is for its children. -/
theorem hands_cons_iff {answer : Option Element}
    (hinner : ∀ exchange ∈ inner, exchange.address ≠ []) :
    (∀ address, Hands [element.toNode] (⟨[0], element, answer⟩ :: inner.map (.move (0 :: ·)))
        address) ↔
      ∀ address, Hands (answer.elim [] Element.children) inner address := by
  have hbelow {below : Address} (hb : below ≠ []) :
      Hands [element.toNode] (⟨[0], element, answer⟩ :: inner.map (.move (0 :: ·))) (0 :: below) ↔
        Hands (answer.elim [] Element.children) inner below := by
    simp only [Hands, mem_below_iff, stands_below_iff, hb, false_and, false_or]
  constructor
  · intro h address
    by_cases ha : address = []
    · exact ha ▸ hands_nil hinner
    · exact (hbelow ha).1 (h _)
  · intro h address
    by_cases ha : ∃ below, address = 0 :: below
    · obtain ⟨below, rfl⟩ := ha
      by_cases hb : below = []
      · subst hb
        refine fun other => ⟨?_, ?_⟩
        · rintro ⟨answer', he⟩
          obtain ⟨-, rfl, -⟩ | hm := mem_below_iff.1 he
          · exact stands_below_iff.2 (.inl ⟨rfl, rfl⟩)
          · exact absurd rfl (hinner _ hm)
        · intro hs
          obtain ⟨-, he⟩ | hs := stands_below_iff.1 hs
          · exact ⟨answer, mem_below_iff.2 (.inl ⟨rfl, toNode_injective he, rfl⟩)⟩
          · exact absurd rfl hs.ne_nil
      · exact (hbelow hb).2 (h _)
    · exact hands_of_ne_zero exists_below_of_mem (not_exists.1 ha)

/-- A visit of an element is one of the children that it was left with, if it was kept. -/
theorem visited_element_iff :
    Visited [element.toNode] after exchanges ↔
      ∃ (answer : Option Element) (children : List Node) (inner : Exchanges),
        exchanges = ⟨[0], element, answer⟩ :: inner.map (.move (0 :: ·)) ∧
        after = (answer.map fun left => .element left.span left.tag children).toList ∧
        Visited (answer.elim [] Element.children) children inner := by
  have hafter (answer : Option Element) (children : List Node) :
      (answer.map Element.toNode).map (withChildren children) =
        answer.map fun left => .element left.span left.tag children := by
    cases answer <;> rfl
  have hchildren (answer : Option Element) :
      (answer.map Element.toNode).elim [] Node.children = answer.elim [] Element.children := by
    cases answer <;> rfl
  constructor
  · intro h
    obtain ⟨answer, inner, rfl, hinner⟩ := h.exists_cons
    obtain ⟨children, rfl, hmade⟩ := h.result.exists_single (.answer List.mem_cons_self)
      fun below left hl => left_below_iff.2 (.inr hl)
    rw [hchildren] at hmade
    exact ⟨answer, children, inner, rfl, by rw [hafter], (hands_cons_iff hinner).1 h.hands,
      (inOrder_cons_iff hinner).1 h.inOrder, hmade⟩
  · rintro ⟨answer, children, inner, rfl, rfl, h⟩
    have hinner : ∀ exchange ∈ inner, exchange.address ≠ [] := fun _ he => h.ne_nil he
    have hmade : Made (Left (answer.elim [] Element.children) inner)
        ((answer.map Element.toNode).elim [] Node.children) children := by
      rw [hchildren]
      exact h.result
    refine ⟨(hands_cons_iff hinner).2 h.hands, (inOrder_cons_iff hinner).2 h.inOrder, ?_⟩
    rw [← hafter]
    refine hmade.single fun address left hl => ?_
    obtain ⟨below, rfl⟩ := hl.exists_of_singleton exists_below_of_mem
    obtain ⟨rfl, rfl⟩ | hl := left_below_iff.1 hl
    · exact .inl ⟨rfl, rfl⟩
    · exact .inr ⟨below, hl.ne_nil hinner, rfl, hl⟩

/-! ## No node, and a leaf -/

/-- A visit of nothing makes no exchange. -/
theorem visited_nil_iff : Visited [] after exchanges ↔ after = [] ∧ exchanges = [] := by
  constructor
  · intro h
    refine ⟨h.result.eq_nil, List.eq_nil_iff_forall_not_mem.2 fun exchange he => ?_⟩
    obtain ⟨i, _, -, _, -, -, hi⟩ := h.exists_top he
    cases hi
  · rintro ⟨rfl, rfl⟩
    have hnone (address : Address) (node : Node) : ¬ Stands [] [] address node := by
      rintro (⟨i, -, hi⟩ | ⟨_, he, -⟩)
      · cases hi
      · cases he
    refine ⟨fun address element => iff_of_false (by simp) (hnone _ _), .nil,
      made_nil fun address left hl => ?_⟩
    cases hl with
    | leaf hs => exact hnone address _ hs
    | answer he => cases he

/-- A visit of a leaf makes no exchange and leaves it as it is. -/
theorem visited_leaf_iff (hleaf : node.isElement = false) :
    Visited [node] after exchanges ↔ after = [node] ∧ exchanges = [] := by
  constructor
  · intro h
    have hnil : exchanges = [] := by
      refine List.eq_nil_iff_forall_not_mem.2 fun exchange he => ?_
      obtain ⟨i, _, -, top, -, -, hi⟩ := h.exists_top he
      have hm : top.handed.toNode ∈ [node] := List.mem_of_getElem? hi
      rw [← List.mem_singleton.1 hm] at hleaf
      cases hleaf
    exact ⟨h.result.eq_of_leaf hleaf (.leaf (.inl ⟨0, rfl, rfl⟩) hleaf), hnil⟩
  · rintro ⟨rfl, rfl⟩
    have htop (address : Address) (other : Node) (hs : Stands [node] [] address other) :
        address = [0] ∧ other = node := by
      obtain ⟨i, rfl, hi⟩ | ⟨_, he, -⟩ := hs
      · obtain ⟨hlt, he⟩ := List.getElem?_eq_some_iff.1 hi
        obtain rfl : i = 0 := by simpa using hlt
        exact ⟨rfl, he.symm⟩
      · cases he
    have hresult : Made (Left [node] []) [node] (some node).toList := by
      refine .leaf (by simpa using hleaf) fun address left hl => ?_
      cases hl with
      | leaf hs =>
        obtain ⟨rfl, rfl⟩ := htop address _ hs
        exact ⟨rfl, rfl⟩
      | answer he => cases he
    refine ⟨fun address element => iff_of_false (by simp) fun hs => ?_, .nil, hresult⟩
    rw [← (htop _ _ hs).2] at hleaf
    cases hleaf

end

end SvgComponent.Node
