import SvgComponent.Jsx.Render
import SvgComponent.Tree.Visit

/-!
# What rendering does

Rendering is determined by three things that can be said without it : the tags in document
order, of which the first faulty one decides whether there is a text at all and the names are
the components; and the text of each node (`written`). `render_eq` puts them together.
-/

namespace SvgComponent.Jsx

/-! ## Outcomes -/

/-- What comes of writing elements with these tags, in document order : the first fault, or a
value with the components used. -/
def outcome {α : Type} (used : List String) (tags : List Tag) (value : α) :
    Except RenderFault (α × List String) :=
  match tags.findSome? tagFault? with
  | some fault => .error fault
  | none => .ok (value, (tags.map Tag.name).foldl noteComponent used)

/-- Two outcomes one after the other. -/
theorem outcome_bind {α β γ : Type} (used : List String) (first second : List Tag) (a : α) (b : β)
    (f : α → β → γ) :
    (do
      let x ← outcome used first a
      let y ← outcome x.2 second b
      return (f x.1 y.1, y.2)) = outcome used (first ++ second) (f a b) := by
  unfold outcome
  rw [List.findSome?_append]
  cases h₁ : first.findSome? tagFault? with
  | some fault => rfl
  | none =>
    cases h₂ : second.findSome? tagFault? with
    | some fault => simp [bind, Except.bind]
    | none => simp [bind, Except.bind, pure, Except.pure]

/-- An outcome is a success only if no tag is faulty, and then with the given value. -/
theorem outcome_eq_ok_iff {α : Type} {used components : List String} {tags : List Tag} {a b : α} :
    outcome used tags a = .ok (b, components) ↔
      (∀ tag ∈ tags, tagFault? tag = none) ∧ a = b ∧
        (tags.map Tag.name).foldl noteComponent used = components := by
  unfold outcome
  cases h : tags.findSome? tagFault? with
  | some fault =>
    obtain ⟨tag, hm, ht⟩ := List.exists_of_findSome?_eq_some h
    constructor
    · intro hc
      cases hc
    · rintro ⟨hn, -⟩
      rw [hn tag hm] at ht
      cases ht
  | none =>
    rw [List.findSome?_eq_none_iff] at h
    constructor
    · intro hc
      cases hc
      exact ⟨h, rfl, rfl⟩
    · rintro ⟨-, rfl, rfl⟩
      rfl

/-! ## Texts -/

/-- The front of an element, up to the end of its attributes. -/
def front (overrides : Option Overrides) (tag : Tag) : String :=
  "<" ++ tag.name ++ (Props.compose tag.attributes overrides).text

mutual

/-- The text of a node. -/
def written (overrides : Option Overrides) : Node → String
  | .element _ tag [] => front overrides tag ++ " />"
  | .element _ tag (child :: rest) =>
    front overrides tag ++ ">" ++ written none child ++ writtenAll rest ++ "</" ++ tag.name ++ ">"
  | .text _ value => literal value
  | .cdata _ value => literal value
  | .comment _ value => comment value
  | .doctype .. => ""
  | .instruction .. => ""

/-- The text of nodes that are children of an element. -/
def writtenAll : List Node → String
  | [] => ""
  | node :: rest => written none node ++ writtenAll rest

end

/-- What is written behind the attributes of an element. -/
def behind (tag : Tag) : List Node → String
  | [] => " />"
  | child :: rest => ">" ++ written none child ++ writtenAll rest ++ "</" ++ tag.name ++ ">"

/-- An element is its front and what is behind it. -/
theorem written_element (overrides : Option Overrides) (span : Span) (tag : Tag)
    (children : List Node) :
    written overrides (.element span tag children) =
      front overrides tag ++ behind tag children := by
  cases children with
  | nil => rfl
  | cons child rest => simp only [written, behind, String.append_assoc]

/-- The texts of the nodes at the top level that say something. -/
def writtenParts (overrides : Option Overrides) (document : Document) : List String :=
  (document.map (written overrides)).filter (· ≠ "")

/-- Parts that say nothing make no difference to the text of all parts. -/
theorem join_writtenParts_cons (overrides : Option Overrides) (node : Node) (rest : Document) :
    String.join (writtenParts overrides (node :: rest)) =
      written overrides node ++ String.join (writtenParts overrides rest) := by
  by_cases h : written overrides node = "" <;> simp [writtenParts, h]

mutual

/-- Rendering a node writes it, or fails at the first of its tags that is faulty. -/
theorem renderNode_eq (overrides : Option Overrides) (used : List String) : (node : Node) →
    renderNode overrides used node = outcome used node.tags (written overrides node)
  | .element span tag children => by
    rw [renderNode, Node.tags]
    cases hf : tagFault? tag with
    | some fault => simp [outcome, hf]
    | none =>
      cases children with
      | nil => simp [outcome, hf, Node.tagsAll, written, front]
      | cons child rest =>
        simp only [renderNode_eq none _ child, renderNodes_eq _ rest]
        refine (outcome_bind _ _ _ _ _ fun text more =>
          front overrides tag ++ ">" ++ text ++ more ++ "</" ++ tag.name ++ ">").trans ?_
        simp [outcome, hf, Node.tagsAll, written]
  | .text .. => rfl
  | .cdata .. => rfl
  | .comment .. => rfl
  | .doctype .. => rfl
  | .instruction .. => rfl

/-- Rendering nodes writes them, or fails at the first of their tags that is faulty. -/
theorem renderNodes_eq (used : List String) : (nodes : List Node) →
    renderNodes used nodes = outcome used (Node.tagsAll nodes) (writtenAll nodes)
  | [] => rfl
  | node :: rest => by
    rw [renderNodes]
    simp only [renderNode_eq none _ node, renderNodes_eq _ rest]
    exact outcome_bind _ _ _ _ _ (· ++ ·)

end

/-- Rendering a document writes its parts, or fails at the first faulty tag. -/
theorem renderParts_eq (overrides : Option Overrides) (used : List String) (document : Document) :
    renderParts overrides used document =
      outcome used (Node.tagsAll document) (writtenParts overrides document) := by
  induction document generalizing used with
  | nil => rfl
  | cons node rest ih =>
    rw [renderParts]
    simp only [renderNode_eq, ih]
    refine (outcome_bind _ _ _ _ _
      fun text parts => if text = "" then parts else text :: parts).trans ?_
    by_cases h : written overrides node = "" <;> simp [writtenParts, Node.tagsAll, h]

/-- A document is written as its parts are, unless a tag is faulty. -/
theorem render_eq (document : Document) (overrides : Option Overrides) :
    render document overrides =
      (outcome [] (Node.tagsAll document) (wrap (writtenParts overrides document))).map
        fun p => ⟨p.1, p.2⟩ := by
  rw [render, renderParts_eq]
  unfold outcome
  cases (Node.tagsAll document).findSome? tagFault? <;> rfl

/-- A document that is written has no faulty tag. -/
theorem of_render_eq_ok {document : Document} {overrides : Option Overrides} {rendered : Rendered}
    (h : render document overrides = .ok rendered) :
    (∀ tag ∈ Node.tagsAll document, tagFault? tag = none) ∧
      rendered.text = wrap (writtenParts overrides document) := by
  rw [render_eq] at h
  cases ho : outcome [] (Node.tagsAll document) (wrap (writtenParts overrides document)) with
  | error fault =>
    rw [ho] at h
    cases h
  | ok p =>
    rw [ho] at h
    obtain ⟨hn, hw, -⟩ := outcome_eq_ok_iff.1 ho
    cases h
    exact ⟨hn, hw.symm⟩

end SvgComponent.Jsx
