import SvgComponent.Proofs.Tree.Addresses

/-!
# What a document is made of

When the nodes of a document are kept, changed or left out one by one, what comes out is told by
what is left at each address : a node, or none. `Made` says that a document consists of what is
left, each node with what is left directly below its address in it, in the old order.

What is left of several nodes is what is left of the first one, and then what is left of those
behind it, which stand under addresses that are one larger there (`later`, `Made.cons`); and of a
node that is left it is the node with what is left of its children (`Made.single`).
-/

namespace SvgComponent.Node

/-- A node with other nodes in it. A leaf has none in any case. -/
def withChildren (children : List Node) : Node → Node
  | .element span tag _ => .element span tag children
  | leaf => leaf

theorem children_of_leaf {node : Node} (hl : node.isElement = false) : node.children = [] := by
  cases node with
  | element => cases hl
  | text | cdata | comment | doctype | instruction => rfl

theorem withChildren_of_leaf {node : Node} (hl : node.isElement = false) (children : List Node) :
    withChildren children node = node := by
  cases node with
  | element => cases hl
  | text | cdata | comment | doctype | instruction => rfl

/-- What has become of the nodes directly below an address, in order. -/
def fates (fate : Address → Option Node) (above : Address) (nodes : List Node) : List Node :=
  (List.range nodes.length).filterMap fun i => fate (above ++ [i])

/-- What comes out of a document of which this is left. -/
def Made (left : Address → Option Node → Prop) (document after : Document) : Prop :=
  ∃ fate : Address → Option Node,
    (∀ address kept, left address kept →
      fate address = kept.map fun node => node.withChildren (fates fate address node.children)) ∧
    after = fates fate [] document

/-! ## Addresses behind a node -/

/-- The address behind one more node. -/
def later : Address → Address
  | [] => []
  | i :: rest => (i + 1) :: rest

theorem exists_zero_or_later {address : Address} (h : address ≠ []) :
    (∃ below, address = 0 :: below) ∨ ∃ behind, behind ≠ [] ∧ address = later behind := by
  match address with
  | [] => exact absurd rfl h
  | 0 :: below => exact .inl ⟨below, rfl⟩
  | (i + 1) :: below => exact .inr ⟨i :: below, List.cons_ne_nil _ _, rfl⟩

theorem later_append {address : Address} (h : address ≠ []) (i : Nat) :
    later (address ++ [i]) = later address ++ [i] := by
  obtain ⟨j, rest, rfl⟩ := List.exists_cons_of_ne_nil h
  rfl

theorem later_injective : Function.Injective later := by
  intro a b h
  cases a <;> cases b <;> simp_all [later]

theorem later_ne_zero (address rest : Address) : later address ≠ 0 :: rest := by
  cases address <;> simp [later]

theorem later_lt_later_iff {a b : Address} : later a < later b ↔ a < b := by
  cases a <;> cases b <;> simp [later, List.cons_lt_cons_iff]

theorem zero_lt_later {a : Address} (h : a ≠ []) (rest : Address) : 0 :: rest < later a := by
  obtain ⟨i, more, rfl⟩ := List.exists_cons_of_ne_nil h
  simp [later, List.cons_lt_cons_iff]

section

variable {node other : Node} {rest document : List Node} {address below : Address}

theorem at?_nil : at? document [] = none := rfl

/-- Behind the first node stands what the others have under earlier addresses. -/
theorem at?_later : at? (node :: rest) (later address) = at? rest address := by
  cases address <;> rfl

/-- All that a single node holds stands at or below the first address. -/
theorem exists_of_at?_singleton (h : at? [node] address = some other) :
    ∃ below, address = 0 :: below := by
  match address with
  | 0 :: below => exact ⟨below, rfl⟩
  | (i + 1) :: below => cases h

/-- Below a node stand its children. -/
theorem at?_below (hb : below ≠ []) : at? [node] (0 :: below) = at? node.children below := by
  obtain ⟨i, further, rfl⟩ := List.exists_cons_of_ne_nil hb
  have htrail : trail? [node] (0 :: i :: further) =
    (trail? node.children (i :: further)).map (node :: ·) := rfl
  rw [at?, at?, htrail]
  rcases h : trail? node.children (i :: further) with - | trail
  · rfl
  · obtain ⟨first, inner, -, -, rfl⟩ := trail?_cons_eq_some_iff.1 h
    exact List.getLast?_cons_cons

end

/-! ## Fates -/

/-- What comes of nodes is told by what has become of them, wherever they stand. -/
theorem fates_congr {fate fate' : Address → Option Node} {above above' : Address}
    (h : ∀ i, fate (above ++ [i]) = fate' (above' ++ [i])) (nodes : List Node) :
    fates fate above nodes = fates fate' above' nodes :=
  List.filterMap_congr fun i _ => h i

/-- Of the first node comes what has become of it, and of the others what has become of them under
later addresses. -/
theorem fates_cons (fate : Address → Option Node) (node : Node) (rest : List Node) :
    fates fate [] (node :: rest) =
      (fate [0]).toList ++ fates (fun address => fate (later address)) [] rest := by
  rw [fates, List.length_cons, List.range_succ_eq_map, List.filterMap_cons, List.filterMap_map,
    List.nil_append]
  cases fate [0] <;> rfl

theorem fates_singleton (fate : Address → Option Node) (node : Node) :
    fates fate [] [node] = (fate [0]).toList := by
  rw [fates_cons]
  exact List.append_nil _

/-! ## Documents made of parts -/

/-- The fates of a node and of those behind it, which have theirs under later addresses. -/
def besides (fate fate' : Address → Option Node) : Address → Option Node
  | [] => none
  | 0 :: below => fate (0 :: below)
  | (i + 1) :: below => fate' (i :: below)

theorem besides_later (fate fate' : Address → Option Node) {behind : Address} (h : behind ≠ []) :
    besides fate fate' (later behind) = fate' behind := by
  obtain ⟨i, below, rfl⟩ := List.exists_cons_of_ne_nil h
  rfl

/-- The fate of a node and of those in it, which have theirs under addresses below its own. -/
def within (top : Option Node) (fate : Address → Option Node) : Address → Option Node
  | [] => none
  | _ :: [] => top
  | _ :: i :: below => fate (i :: below)

theorem within_below (top : Option Node) (fate : Address → Option Node) {below : Address}
    (h : below ≠ []) : within top fate (0 :: below) = fate below := by
  obtain ⟨i, further, rfl⟩ := List.exists_cons_of_ne_nil h
  rfl

section

variable {left first second inner : Address → Option Node → Prop} {node : Node} {kept : Option Node}
  {rest front more inside after : List Node}

theorem Made.eq_nil (h : Made left [] after) : after = [] := by
  obtain ⟨fate, -, rfl⟩ := h
  rfl

theorem made_nil (h : ∀ address kept, ¬ left address kept) : Made left [] [] :=
  ⟨fun _ => none, fun address kept hk => absurd hk (h address kept), rfl⟩

/-- What comes of the first node and what comes of those behind it make up what comes of all, if
nothing else is left anywhere. -/
theorem Made.cons (h : Made first [node] front) (h' : Made second rest more)
    (hleft : ∀ address kept, left address kept →
      (∃ below, address = 0 :: below ∧ first address kept) ∨
        ∃ behind, behind ≠ [] ∧ address = later behind ∧ second behind kept) :
    Made left (node :: rest) (front ++ more) := by
  obtain ⟨fate, hfate, rfl⟩ := h
  obtain ⟨fate', hfate', rfl⟩ := h'
  refine ⟨besides fate fate', fun address kept hk => ?_, ?_⟩
  · obtain ⟨below, rfl, hk'⟩ | ⟨behind, hne, rfl, hk'⟩ := hleft address kept hk
    · have hsame (nodes : List Node) :
          fates (besides fate fate') (0 :: below) nodes = fates fate (0 :: below) nodes :=
        fates_congr (fun _ => rfl) nodes
      simp only [hsame]
      exact hfate _ kept hk'
    · have hsame (nodes : List Node) :
          fates (besides fate fate') (later behind) nodes = fates fate' behind nodes :=
        fates_congr (fun i => by rw [← later_append hne, besides_later _ _ (by simp)]) nodes
      simp only [hsame, besides_later _ _ hne]
      exact hfate' behind kept hk'
  · rw [fates_singleton, fates_cons]
    exact congrArg _ (fates_congr (fun _ => rfl) _)

/-- What comes of nodes splits into what comes of the first one and what comes of those behind
it. -/
theorem Made.exists_append (h : Made left (node :: rest) after)
    (hfirst : ∀ address kept, first address kept → left address kept)
    (hsecond : ∀ behind kept, second behind kept → behind ≠ [] ∧ left (later behind) kept) :
    ∃ front more, after = front ++ more ∧ Made first [node] front ∧ Made second rest more := by
  obtain ⟨fate, hfate, rfl⟩ := h
  refine ⟨fates fate [] [node], fates (fun address => fate (later address)) [] rest, ?_,
    ⟨fate, fun address kept hk => hfate address kept (hfirst address kept hk), rfl⟩,
    ⟨fun address => fate (later address), fun behind kept hk => ?_, rfl⟩⟩
  · rw [fates_singleton, fates_cons]
  · obtain ⟨hne, hleft⟩ := hsecond behind kept hk
    have hsame (nodes : List Node) : fates fate (later behind) nodes =
        fates (fun address => fate (later address)) behind nodes :=
      fates_congr (fun i => by rw [later_append hne]) nodes
    simp only [hfate _ kept hleft, hsame]

/-- Of a node comes the node that is left with what comes of its children in it, or nothing. -/
theorem Made.single (h : Made inner (kept.elim [] children) inside)
    (hleft : ∀ address other, left address other →
      address = [0] ∧ other = kept ∨
        ∃ below, below ≠ [] ∧ address = 0 :: below ∧ inner below other) :
    Made left [node] (kept.map (withChildren inside)).toList := by
  obtain ⟨fate, hfate, rfl⟩ := h
  refine ⟨within (kept.map (withChildren (fates fate [] (kept.elim [] children)))) fate,
    fun address other ho => ?_, by rw [fates_singleton, within]⟩
  obtain ⟨rfl, rfl⟩ | ⟨below, hne, rfl, ho'⟩ := hleft address other ho
  · cases other <;> rfl
  · have hsame (top : Option Node) (nodes : List Node) :
        fates (within top fate) (0 :: below) nodes = fates fate below nodes :=
      fates_congr (fun i => by rw [List.cons_append, within_below _ _ (by simp)]) nodes
    simp only [hsame, within_below _ _ hne]
    exact hfate below other ho'

/-- What comes of a node is the node that is left, with what comes of its children in it. -/
theorem Made.exists_single (h : Made left [node] after) (hkept : left [0] kept)
    (hinner : ∀ below other, inner below other → left (0 :: below) other) :
    ∃ inside, after = (kept.map (withChildren inside)).toList ∧
      Made inner (kept.elim [] children) inside := by
  obtain ⟨fate, hfate, rfl⟩ := h
  refine ⟨fates (fun below => fate (0 :: below)) [] (kept.elim [] children), ?_,
    fun below => fate (0 :: below), fun below other ho => ?_, rfl⟩
  · rw [fates_singleton, hfate [0] kept hkept]
    cases kept <;> rfl
  · exact hfate _ other (hinner below other ho)

/-- A leaf comes out as it is left. -/
theorem Made.leaf (hkept : ∀ leaf ∈ kept, leaf.isElement = false)
    (hleft : ∀ address other, left address other → address = [0] ∧ other = kept) :
    Made left [node] kept.toList := by
  have hinside : kept.map (withChildren []) = kept := by
    cases kept with
    | none => rfl
    | some leaf => rw [Option.map_some, withChildren_of_leaf (hkept leaf rfl)]
  have hchildren : kept.elim [] children = [] := by
    cases kept with
    | none => rfl
    | some leaf => exact children_of_leaf (hkept leaf rfl)
  have hmade : Made (fun _ _ => False) (kept.elim [] children) [] := by
    rw [hchildren]
    exact made_nil fun _ _ => id
  rw [← hinside]
  exact hmade.single fun address other ho => .inl (hleft address other ho)

/-- Of a leaf that is kept comes the leaf itself. -/
theorem Made.eq_of_leaf (h : Made left [node] after) (hl : node.isElement = false)
    (hkept : left [0] (some node)) : after = [node] := by
  obtain ⟨fate, hfate, rfl⟩ := h
  rw [fates_singleton, hfate [0] _ hkept, Option.map_some, withChildren_of_leaf hl]
  rfl

end

end SvgComponent.Node
