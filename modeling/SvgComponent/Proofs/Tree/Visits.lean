import SvgComponent.Proofs.Tree.Exchanges

/-!
# The ends of visits

A visit ends at some depth if, and only if, there are exchanges with the callback of which `Visited`
is true, and it ends with the document and the state that they tell (`exists_visitElements_iff`). A
greater depth changes nothing then (`visitElements_mono`). A callback that puts elements into
elements again and again does not let it end; one that leaves no more nodes in an element than it
was handed does (`exists_visitElements`).

The stages use callbacks that leave the children alone, for which the visit is a recursion on the
tree (`visitElements_leavingChildren`).
-/

namespace SvgComponent.Node

variable {σ : Type}

section

variable {f : Element → σ → Option Element × σ}
  {inside inside' : List Node → σ → Option (List Node × σ)} {s t : σ}
  {document rest after : List Node} {node : Node} {element : Element} {depth : Nat}

/-- An element is handed over, and then what it was left with is visited, unless it was removed. -/
theorem visitSiblings_element : visitSiblings f inside (element.toNode :: rest) s =
    match f element s with
    | (none, s) => visitSiblings f inside rest s
    | (some left, s) => do
      let (children, s) ← inside left.children s
      let (rest, s) ← visitSiblings f inside rest s
      return (.element left.span left.tag children :: rest, s) := rfl

theorem visitSiblings_leaf (hl : node.isElement = false) :
    visitSiblings f inside (node :: rest) s = do
      let (rest, s) ← visitSiblings f inside rest s
      return (node :: rest, s) := by
  cases node with
  | element => cases hl
  | text | cdata | comment | doctype | instruction => rfl

/-- A node is an element or a leaf. -/
theorem eq_toNode_or (node : Node) : (∃ element : Element, node = element.toNode) ∨
    node.isElement = false := by
  cases node with
  | element span tag children => exact .inl ⟨⟨span, tag, children⟩, rfl⟩
  | text | cdata | comment | doctype | instruction => exact .inr rfl

/-! ## Depths -/

/-- A visit that ends at some depth ends so with more of it inside. -/
theorem visitSiblings_mono
    (h : ∀ nodes s result, inside nodes s = some result → inside' nodes s = some result)
    {nodes : List Node} {result : List Node × σ}
    (hs : visitSiblings f inside nodes s = some result) :
    visitSiblings f inside' nodes s = some result := by
  induction nodes generalizing s result with
  | nil => exact hs
  | cons node rest ih =>
    obtain ⟨element, rfl⟩ | hl := eq_toNode_or node
    · rw [visitSiblings_element] at hs ⊢
      match hf : f element s with
      | (none, between) =>
        rw [hf] at hs
        exact ih hs
      | (some left, between) =>
        rw [hf] at hs
        obtain ⟨⟨children, between'⟩, hc, hs⟩ := Option.bind_eq_some_iff.1 hs
        obtain ⟨⟨more, last⟩, hr, hs⟩ := Option.bind_eq_some_iff.1 hs
        exact Option.bind_eq_some_iff.2 ⟨_, h _ _ _ hc, Option.bind_eq_some_iff.2 ⟨_, ih hr, hs⟩⟩
    · rw [visitSiblings_leaf hl] at hs ⊢
      obtain ⟨⟨more, last⟩, hr, hs⟩ := Option.bind_eq_some_iff.1 hs
      exact Option.bind_eq_some_iff.2 ⟨_, ih hr, hs⟩

/-- Where a visit has ended, it ends with the same at any greater depth. -/
theorem visitElements_mono {deeper : Nat} (hd : depth ≤ deeper) {result : List Node × σ}
    (h : visitElements f depth document s = some result) :
    visitElements f deeper document s = some result := by
  induction depth generalizing document deeper s result with
  | zero => cases h
  | succ depth ih =>
    obtain ⟨deeper, rfl⟩ : ∃ d, deeper = d + 1 := ⟨deeper - 1, by omega⟩
    exact visitSiblings_mono (fun _ _ _ hi => ih (by omega) hi) h

/-! ## Ends -/

/-- What exchanges tell comes out of the visit. The induction is on their number, as the children
that an element is left with may be more than it had, and then on the nodes side by side. -/
theorem visitElements_of_visited {exchanges : Exchanges} (he : Exchanged f exchanges s t)
    (hv : Visited document after exchanges) {n : Nat} (hn : exchanges.length ≤ n) :
    visitElements f (n + 1) document s = some (after, t) := by
  induction n using Nat.strong_induction_on generalizing document after exchanges s t with
  | _ n ih =>
  induction document generalizing after exchanges s with
  | nil =>
    obtain ⟨rfl, rfl⟩ := visited_nil_iff.1 hv
    obtain rfl : s = t := he
    rfl
  | cons node rest ihrest =>
    obtain ⟨front, more, first, second, rfl, rfl, hfirst, hsecond⟩ := visited_cons_iff.1 hv
    rw [List.length_append, List.length_map] at hn
    obtain ⟨between, he, he'⟩ := exchanged_append_iff.1 he
    have hrest := ihrest (exchanged_move_iff.1 he') hsecond (by omega)
    rw [visitElements] at hrest ⊢
    obtain ⟨element, rfl⟩ | hl := eq_toNode_or node
    · obtain ⟨answer, children, inner, rfl, rfl, hinner⟩ := visited_element_iff.1 hfirst
      obtain ⟨ha, he⟩ := he
      have hf : f element s = (answer, (f element s).2) := Prod.ext ha rfl
      rw [List.length_cons, List.length_map] at hn
      obtain ⟨m, rfl⟩ : ∃ m, n = m + 1 := ⟨n - 1, by omega⟩
      have hchildren := ih m (by omega) (exchanged_move_iff.1 he) hinner (by omega)
      rw [visitSiblings_element, hf]
      cases answer with
      | none =>
        cases hchildren
        exact hrest
      | some left =>
        rw [Option.elim_some] at hchildren
        simp only [hchildren, hrest, Option.bind_eq_bind, Option.bind_some]
        rfl
    · obtain ⟨rfl, rfl⟩ := (visited_leaf_iff hl).1 hfirst
      obtain rfl : s = between := he
      rw [visitSiblings_leaf hl, hrest]
      rfl

/-- A visit tells a callback of the nodes, and leaves others behind. -/
def Tells (f : Element → σ → Option Element × σ) (document after : List Node) (s t : σ) : Prop :=
  ∃ exchanges : Exchanges, Exchanged f exchanges s t ∧ Visited document after exchanges

section

variable {front more children : List Node} {between : σ} {answer : Option Element}

theorem Tells.nil : Tells f [] [] s s :=
  ⟨[], rfl, visited_nil_iff.2 ⟨rfl, rfl⟩⟩

/-- A callback is told of the first node, and then of those behind it. -/
theorem Tells.cons (h : Tells f [node] front s between) (h' : Tells f rest more between t) :
    Tells f (node :: rest) (front ++ more) s t := by
  obtain ⟨first, he, hv⟩ := h
  obtain ⟨second, he', hv'⟩ := h'
  exact ⟨_, exchanged_append_iff.2 ⟨between, he, exchanged_move_iff.2 he'⟩, hv.cons hv'⟩

/-- A callback is told of an element, and then of the children that it left. -/
theorem Tells.answered (hf : f element s = (answer, between))
    (h : Tells f (answer.elim [] Element.children) children between t) :
    Tells f [element.toNode]
      (answer.map fun left => .element left.span left.tag children).toList s t := by
  obtain ⟨inner, he, hv⟩ := h
  have hall : Exchanged f (⟨[0], element, answer⟩ :: inner.map (.move (0 :: ·))) s t := by
    rw [Exchanged, hf]
    exact ⟨rfl, exchanged_move_iff.2 he⟩
  exact ⟨_, hall, visited_element_iff.2 ⟨answer, children, inner, rfl, rfl, hv⟩⟩

theorem Tells.leaf (hl : node.isElement = false) : Tells f [node] [node] s s :=
  ⟨[], rfl, (visited_leaf_iff hl).2 ⟨rfl, rfl⟩⟩

end

/-- A visit that ends has told its callback of the nodes; by induction on the depth. -/
theorem tells_of_visitElements (h : visitElements f depth document s = some (after, t)) :
    Tells f document after s t := by
  induction depth generalizing document after s t with
  | zero => cases h
  | succ depth ih =>
    induction document generalizing after s with
    | nil =>
      cases h
      exact .nil
    | cons node rest ihrest =>
      rw [visitElements] at h ihrest
      obtain ⟨element, rfl⟩ | hl := eq_toNode_or node
      · rw [visitSiblings_element] at h
        match hf : f element s with
        | (none, between) =>
          rw [hf] at h
          exact Tells.cons (.answered hf .nil) (ihrest h)
        | (some left, between) =>
          rw [hf] at h
          obtain ⟨⟨children, between'⟩, hc, h⟩ := Option.bind_eq_some_iff.1 h
          obtain ⟨⟨more, last⟩, hr, h⟩ := Option.bind_eq_some_iff.1 h
          cases h
          exact Tells.cons (.answered hf (ih hc)) (ihrest hr)
      · rw [visitSiblings_leaf hl] at h
        obtain ⟨⟨more, last⟩, hr, h⟩ := Option.bind_eq_some_iff.1 h
        cases h
        exact Tells.cons (.leaf hl) (ihrest hr)

/-- A visit ends exactly if its callback can be told of the nodes. -/
theorem exists_visitElements_iff :
    (∃ depth, visitElements f depth document s = some (after, t)) ↔ Tells f document after s t :=
  ⟨fun ⟨_, h⟩ => tells_of_visitElements h, fun ⟨_, he, hv⟩ =>
    ⟨_, visitElements_of_visited he hv le_rfl⟩⟩

/-! ## Callbacks that let a visit end -/

/-- A visit ends if no answer leaves more nodes in an element than were handed over. -/
theorem exists_visitElements (hf : ∀ element s left, (f element s).1 = some left →
    countAll left.children ≤ countAll element.children) (hd : countAll document < depth) (s : σ) :
    ∃ result, visitElements f depth document s = some result := by
  induction depth generalizing document s with
  | zero => exact absurd hd (Nat.not_lt_zero _)
  | succ depth ih =>
    induction document generalizing s with
    | nil => exact ⟨_, rfl⟩
    | cons node rest ihrest =>
      rw [countAll] at hd
      rw [visitElements] at ihrest ⊢
      obtain ⟨element, rfl⟩ | hl := eq_toNode_or node
      · have hcount : count element.toNode = countAll element.children + 1 := rfl
        rw [visitSiblings_element]
        match he : f element s with
        | (none, between) => exact ihrest (by omega) between
        | (some left, between) =>
          have hleft := hf element s left (congrArg Prod.fst he)
          obtain ⟨⟨children, between'⟩, hc⟩ := @ih left.children (by omega) between
          obtain ⟨⟨more, last⟩, hr⟩ := ihrest (by omega) between'
          exact ⟨_, Option.bind_eq_some_iff.2 ⟨_, hc, Option.bind_eq_some_iff.2 ⟨_, hr, rfl⟩⟩⟩
      · obtain ⟨result, hr⟩ := ihrest (by omega) s
        rw [visitSiblings_leaf hl, hr]
        exact ⟨_, rfl⟩

end

/-! ## Callbacks that leave the children alone -/

/-- A callback that answers with a tag, as one that answers with an element. -/
def leavingChildren (g : Tag → List Node → σ → Option Tag × σ) (element : Element) (s : σ) :
    Option Element × σ :=
  ((g element.tag element.children s).1.map fun tag => { element with tag },
    (g element.tag element.children s).2)

theorem visit_leaf {g : Tag → List Node → σ → Option Tag × σ} {node : Node}
    (hl : node.isElement = false) (s : σ) : visit g node s = (some node, s) := by
  cases node with
  | element => cases hl
  | text | cdata | comment | doctype | instruction => rfl

/-- A visit that leaves the children alone ends, with what the recursion on the tree gives. -/
theorem visitElements_leavingChildren (g : Tag → List Node → σ → Option Tag × σ) {depth : Nat}
    {document : Document} (hd : countAll document < depth) (s : σ) :
    visitElements (leavingChildren g) depth document s = some (visitAll g document s) := by
  induction depth generalizing document s with
  | zero => exact absurd hd (Nat.not_lt_zero _)
  | succ depth ih =>
    induction document generalizing s with
    | nil => rfl
    | cons node rest ihrest =>
      rw [countAll] at hd
      rw [visitElements] at ihrest ⊢
      rw [visitAll]
      obtain ⟨⟨span, tag, children⟩, rfl⟩ | hl := eq_toNode_or node
      · have hsize : countAll children + 1 + countAll rest < depth + 1 := hd
        rw [visitSiblings_element, Element.toNode, visit, leavingChildren]
        rcases g tag children s with ⟨_ | new, between⟩
        · exact ihrest (by omega) between
        · have hc := @ih children (by omega) between
          have hr := ihrest (by omega) (visitAll g children between).2
          simp only [Option.map_some, hc, hr, Option.bind_eq_bind, Option.bind_some]
          rfl
      · rw [visitSiblings_leaf hl, visit_leaf hl, ihrest (by omega) s]
        rfl

end SvgComponent.Node
