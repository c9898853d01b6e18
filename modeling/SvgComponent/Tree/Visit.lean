import SvgComponent.Tree.Basic

/-!
# Visiting a tree

Two ways to go over a tree. A visit hands every element to a callback, a parent before its
children and siblings from left to right; the callback has a state of its own, may change the
element, and may have it removed together with all that is in it (`visitElements`). Retaining leaves
all elements in place and keeps the leaves that pass a test, which may have a state of its own, too
(`retainNodes`).

Most callbacks change nothing but the tag, and most tests have no state : `visitAll` and `retainAll`
are for these.
-/

namespace SvgComponent

namespace Node

variable {σ : Type}

/-! ## Visiting elements -/

/-- An element as it is handed to a callback. -/
structure Element where
  span : Span
  tag : Tag
  children : List Node
  deriving Inhabited

/-- The node of an element. -/
def Element.toNode (element : Element) : Node :=
  .element element.span element.tag element.children

/-- Hands the elements of a list of nodes to a callback that answers with the element to keep, or
with none to remove it. The children of the element that is kept are visited before the next one. -/
def visitSiblings (f : Element → σ → Option Element × σ)
    (inside : List Node → σ → Option (List Node × σ)) : List Node → σ → Option (List Node × σ)
  | [], s => some ([], s)
  | .element span tag children :: rest, s =>
    match f ⟨span, tag, children⟩ s with
    | (none, s) => visitSiblings f inside rest s
    | (some left, s) => do
      let (children, s) ← inside left.children s
      let (rest, s) ← visitSiblings f inside rest s
      return (.element left.span left.tag children :: rest, s)
  | leaf :: rest, s => do
    let (rest, s) ← visitSiblings f inside rest s
    return (leaf :: rest, s)

/-- Visits a list of nodes and the children of the elements that are kept, down to a depth. There is
no result if elements are nested deeper than that; there is none at any depth if the callback goes
on and on putting elements into elements. -/
def visitElements (f : Element → σ → Option Element × σ) :
    Nat → List Node → σ → Option (List Node × σ)
  | 0 => fun _ _ => none
  | depth + 1 => visitSiblings f (visitElements f depth)

mutual

/-- Hands the elements of a node to a callback that answers with the tag to keep, or with none
to remove the element, and leaves the children as they are. The children of a removed element are
not visited. -/
def visit (f : Tag → List Node → σ → Option Tag × σ) : Node → σ → Option Node × σ
  | .element span tag children, s =>
    match f tag children s with
    | (some tag, s) =>
      let (children, s) := visitAll f children s
      (some (.element span tag children), s)
    | (none, s) => (none, s)
  | leaf, s => (some leaf, s)

/-- Hands the elements of a list of nodes to a callback, in document order. -/
def visitAll (f : Tag → List Node → σ → Option Tag × σ) : List Node → σ → List Node × σ
  | [], s => ([], s)
  | node :: rest, s =>
    let (node, s) := visit f node s
    let (rest, s) := visitAll f rest s
    (node.toList ++ rest, s)

end

/-- A visit whose callback looks at the tag alone and has no state. -/
def mapTags (f : Tag → Option Tag) (nodes : List Node) : List Node :=
  (visitAll (fun tag _ (_ : Unit) => (f tag, ())) nodes ()).1

/-! ## Retaining leaves -/

/-- What a test says of the nodes of a list, one after the other; elements pass without a
question. -/
def judge (keep : Node → σ → Bool × σ) : List Node → σ → List Bool × σ
  | [], s => ([], s)
  | .element .. :: rest, s =>
    let (verdicts, s) := judge keep rest s
    (true :: verdicts, s)
  | leaf :: rest, s =>
    let (verdict, s) := keep leaf s
    let (verdicts, s) := judge keep rest s
    (verdict :: verdicts, s)

mutual

/-- A node after the leaves in it have been sorted out. -/
def retainInside (keep : Node → σ → Bool × σ) : Node → σ → Node × σ
  | .element span tag children, s =>
    let (verdicts, s) := judge keep children s
    let (children, s) := retainJudged keep children verdicts s
    (.element span tag children, s)
  | leaf, s => (leaf, s)

/-- The nodes of a list that have passed, after the leaves in them have been sorted out. -/
def retainJudged (keep : Node → σ → Bool × σ) : List Node → List Bool → σ → List Node × σ
  | node :: rest, true :: verdicts, s =>
    let (node, s) := retainInside keep node s
    let (rest, s) := retainJudged keep rest verdicts s
    (node :: rest, s)
  | _ :: rest, false :: verdicts, s => retainJudged keep rest verdicts s
  | _, _, s => ([], s)

end

/-- Keeps the leaves that pass a test, at every depth. The leaves of a list are asked about before
those in its elements. -/
def retainNodes (keep : Node → σ → Bool × σ) (nodes : List Node) (s : σ) : List Node × σ :=
  let (verdicts, s) := judge keep nodes s
  retainJudged keep nodes verdicts s

mutual

/-- A node after the leaves in it have been sorted out by a test without a state; none if it is such
a leaf itself. -/
def retain (keep : Node → Bool) : Node → Option Node
  | .element span tag children => some (.element span tag (retainAll keep children))
  | leaf => if keep leaf then some leaf else none

/-- Keeps the leaves that pass a test, at every depth. -/
def retainAll (keep : Node → Bool) : List Node → List Node
  | [] => []
  | node :: rest => (retain keep node).toList ++ retainAll keep rest

end

/-! ## Sizes -/

mutual

/-- How many nodes a node is, with all that are in it. -/
def count : Node → Nat
  | .element _ _ children => countAll children + 1
  | _ => 1

/-- How many nodes there are in a list of nodes, at every depth. -/
def countAll : List Node → Nat
  | [] => 0
  | node :: rest => count node + countAll rest

end

/-! ## Tags -/

mutual

/-- The tags of a node in document order. -/
def tags : Node → List Tag
  | .element _ tag children => tag :: tagsAll children
  | _ => []

/-- The tags of a list of nodes in document order. -/
def tagsAll : List Node → List Tag
  | [] => []
  | node :: rest => tags node ++ tagsAll rest

end

end Node

end SvgComponent
