import SvgComponent.Proofs.Jsx.Decoding
import SvgComponent.Proofs.Tree.Visiting

/-!
# Which documents are written as one expression

A JSX expression is an element or a fragment; a container, in braces, is one only inside of
them. `IsElement` is the grammar of elements and fragments, whatever their attributes say.

* `isElement_written`, `isChildren_parts` : each element, and the nodes between the tags of a
  fragment, are in the grammar;
* `single_iff_of_render` : a document is written as an element or a fragment unless all that it
  has to write is one leaf (`OnlyLeaf`), which stands in bare braces.
-/

namespace SvgComponent.Jsx

open Text

/-! ## The grammar -/

/-- What can stand in braces : a string or a comment. -/
inductive IsContained : List Char → Prop
  | string (cs : List Char) : IsContained (Json.quote cs)
  | comment {cs : List Char} (h : ¬ scriptCommentEnd <:+: cs) :
    IsContained ('/' :: '*' :: (cs ++ scriptCommentEnd))

mutual

/-- A fragment, or an element with or without something in it. -/
inductive IsElement : List Char → Prop
  | fragment {children : List Char} (h : IsChildren children) :
    IsElement ('<' :: '>' :: (children ++ ['<', '/', '>']))
  | empty {name : String} (hn : name ≠ "") (props : Props) :
    IsElement ('<' :: (name.toList ++ (props.text.toList ++ [' ', '/', '>'])))
  | nested {name : String} (hn : name ≠ "") (props : Props) {children : List Char}
    (h : IsChildren children) :
    IsElement ('<' :: (name.toList ++ (props.text.toList ++
      '>' :: (children ++ '<' :: '/' :: (name.toList ++ ['>'])))))

/-- Elements and containers one behind the other. -/
inductive IsChildren : List Char → Prop
  | nil : IsChildren []
  | element {text rest : List Char} (h : IsElement text) (hr : IsChildren rest) :
    IsChildren (text ++ rest)
  | container {text rest : List Char} (h : IsContained text) (hr : IsChildren rest) :
    IsChildren ('{' :: (text ++ '}' :: rest))

end

theorem IsElement.head? {cs : List Char} (h : IsElement cs) : cs.head? = some '<' := by
  cases h <;> rfl

/-- Whether a content is the only one and an element or a fragment. -/
def IsSingle (contents : List Content) : Prop :=
  ∃ name attributes children, contents = [.element name attributes children]

/-! ## Nodes -/

/-- Whether a node is written at all. -/
def isVisible : Node → Bool
  | .doctype .. | .instruction .. => false
  | _ => true

/-- All that a document has to write is one leaf. -/
def OnlyLeaf (document : Document) : Prop :=
  ∃ leaf, document.filter isVisible = [leaf] ∧ leaf.isElement = false

/-- A text is a string in braces. -/
theorem isContained_literal (value : String) :
    ∃ text, IsContained text ∧ (literal value).toList = '{' :: (text ++ ['}']) :=
  ⟨Json.quote value.toList, .string _, by simp [literal]⟩

/-- What stands between the marks of a written comment does not end it. -/
theorem not_infix_commentText (value : String) :
    ¬ scriptCommentEnd <:+: ' ' :: (breakUp value.toList ++ [' ']) := by
  have hend : ¬ ['*', '/'] <:+: breakUp value.toList ++ [' '] :=
    @not_infix_concat '/' ' ' ['*'] _ (by decide) (not_infix_breakUp value.toList)
  rw [List.infix_cons_iff, not_or]
  exact ⟨by simp [scriptCommentEnd], hend⟩

theorem toList_comment (value : String) :
    (comment value).toList =
      '{' :: '/' :: '*' ::
        (' ' :: (breakUp value.toList ++ [' ']) ++ scriptCommentEnd ++ ['}']) := by
  simp [comment, breakUp, scriptCommentEnd]

/-- A comment stands in braces and does not end early. -/
theorem isContained_comment (value : String) :
    ∃ text, IsContained text ∧ (comment value).toList = '{' :: (text ++ ['}']) :=
  ⟨_, .comment (not_infix_commentText value), toList_comment value⟩

/-- A leaf that is written stands in braces. -/
theorem exists_isContained {leaf : Node} (hv : isVisible leaf = true)
    (hl : leaf.isElement = false) (overrides : Option Overrides) :
    ∃ text, IsContained text ∧ (written overrides leaf).toList = '{' :: (text ++ ['}']) := by
  cases leaf with
  | element => cases hl
  | text span value => exact isContained_literal value
  | cdata span value => exact isContained_literal value
  | comment span value => exact isContained_comment value
  | doctype | instruction => cases hv

theorem written_eq_empty {node : Node} (hv : isVisible node = false)
    (overrides : Option Overrides) : written overrides node = "" := by
  cases node with
  | doctype | instruction => rfl
  | element | text | cdata | comment => cases hv

/-- A node in front of children is one of them. -/
theorem IsChildren.written_append {overrides : Option Overrides} {node : Node}
    (h : node.isElement = true → IsElement (written overrides node).toList) {rest : List Char}
    (hr : IsChildren rest) : IsChildren ((written overrides node).toList ++ rest) := by
  by_cases hv : isVisible node = true
  · by_cases he : node.isElement = true
    · exact .element (h he) hr
    · obtain ⟨text, hc, ht⟩ := exists_isContained hv (Bool.eq_false_iff.2 he) overrides
      rw [ht, List.cons_append, List.append_assoc, List.singleton_append]
      exact .container hc hr
  · rw [written_eq_empty (Bool.eq_false_iff.2 hv)]
    exact hr

mutual

/-- An element is written as one, whatever is in it. -/
theorem isElement_written (overrides : Option Overrides) : (node : Node) →
    (∀ tag ∈ node.tags, tag.name ≠ "") → node.isElement = true →
    IsElement (written overrides node).toList
  | .element _ tag [], h, _ => by
    have hn := h tag (by simp [Node.tags])
    simpa [written, front] using IsElement.empty hn (Props.compose tag.attributes overrides)
  | .element _ tag (child :: rest), h, _ => by
    simp only [Node.tags, Node.tagsAll, List.mem_cons, List.mem_append, forall_eq_or_imp] at h
    have hchildren := IsChildren.written_append
      (isElement_written none child fun t ht => h.2 t (.inl ht))
      (isChildren_writtenAll rest fun t ht => h.2 t (.inr ht))
    have he := IsElement.nested h.1 (Props.compose tag.attributes overrides) hchildren
    simpa [written, front] using he

/-- Nodes side by side are written as elements and containers. -/
theorem isChildren_writtenAll : (nodes : List Node) → (∀ tag ∈ Node.tagsAll nodes, tag.name ≠ "") →
    IsChildren (writtenAll nodes).toList
  | [], _ => .nil
  | node :: rest, h => by
    simp only [Node.tagsAll, List.mem_append] at h
    rw [writtenAll, String.toList_append]
    exact .written_append (isElement_written none node fun t ht => h t (.inl ht))
      (isChildren_writtenAll rest fun t ht => h t (.inr ht))

end

/-! ## Documents -/

/-- Exactly the visible nodes are written. -/
theorem written_ne_empty_iff (overrides : Option Overrides) (node : Node) :
    written overrides node ≠ "" ↔ isVisible node = true := by
  refine ⟨fun h => ?_, fun hv hw => ?_⟩
  · by_contra hv
    exact h (written_eq_empty (Bool.eq_false_iff.2 hv) overrides)
  · have hnil := congrArg String.toList hw
    cases node with
    | element span tag children => cases children <;> simp [written, front] at hnil
    | text | cdata => simp [written, literal] at hnil
    | comment => simp [written, comment] at hnil
    | doctype | instruction => cases hv

/-- The parts of a document are the texts of its nodes that are written. -/
theorem writtenParts_eq (overrides : Option Overrides) (document : Document) :
    writtenParts overrides document = (document.filter isVisible).map (written overrides) := by
  rw [writtenParts, List.filter_map]
  congr 2
  funext node
  rw [Function.comp_apply, Bool.eq_iff_iff, decide_eq_true_iff]
  exact written_ne_empty_iff overrides node

section Named

variable {document : Document} (h : ∀ tag ∈ Node.tagsAll document, tag.name ≠ "")

include h in
/-- The parts of a document are elements and containers. -/
theorem isChildren_parts (overrides : Option Overrides) :
    IsChildren (String.join (writtenParts overrides document)).toList := by
  induction document with
  | nil => exact .nil
  | cons node rest ih =>
    simp only [Node.tagsAll, List.mem_append] at h
    rw [join_writtenParts_cons, String.toList_append]
    exact .written_append (isElement_written overrides node fun t ht => h t (.inl ht))
      (ih fun t ht => h t (.inr ht))

include h in
/-- One element is written as it is, and several parts, or none, are put into a fragment. -/
theorem isElement_wrap (hl : ¬ OnlyLeaf document) (overrides : Option Overrides) :
    IsElement (wrap (writtenParts overrides document)).toList := by
  unfold wrap
  split
  · rename_i text hs
    rw [writtenParts_eq] at hs
    obtain ⟨node, hd, rfl⟩ := List.map_eq_singleton_iff.1 hs
    have hm : node ∈ document := List.mem_of_mem_filter (hd ▸ List.mem_singleton_self node)
    have he : node.isElement = true := by
      by_contra hn
      exact hl ⟨node, hd, Bool.eq_false_iff.2 hn⟩
    exact isElement_written overrides node (fun t ht => h t (Node.mem_tagsAll hm ht)) he
  · simpa using IsElement.fragment (isChildren_parts h overrides)

/-- A leaf that is all there is to write is left in its braces. -/
theorem head?_wrap (h : OnlyLeaf document) (overrides : Option Overrides) :
    (wrap (writtenParts overrides document)).toList.head? = some '{' := by
  obtain ⟨leaf, hd, hl⟩ := h
  have hv : isVisible leaf = true := (List.mem_filter.1 (hd ▸ List.mem_singleton_self leaf)).2
  obtain ⟨text, -, ht⟩ := exists_isContained hv hl overrides
  rw [writtenParts_eq, hd]
  exact congrArg List.head? ht

include h in
/-- A document is one element or fragment unless all it has is one leaf. -/
theorem isElement_wrap_iff (overrides : Option Overrides) :
    IsElement (wrap (writtenParts overrides document)).toList ↔ ¬ OnlyLeaf document := by
  refine ⟨fun he hl => ?_, fun hl => isElement_wrap h hl overrides⟩
  have hhead := he.head?.symm.trans (head?_wrap hl overrides)
  exact absurd (Option.some.inj hhead) (by decide)

include h in
/-- A document stands in bare braces exactly if all it has is one leaf. -/
theorem head?_wrap_iff (overrides : Option Overrides) :
    (wrap (writtenParts overrides document)).toList.head? = some '{' ↔ OnlyLeaf document := by
  refine ⟨fun hb => ?_, fun hl => head?_wrap hl overrides⟩
  by_contra hl
  have hhead := (isElement_wrap h hl overrides).head?.symm.trans hb
  exact absurd (Option.some.inj hhead) (by decide)

end Named

/-! ## Contents -/

/-- What is not visible says nothing. -/
theorem canonicalAll_filter (document : Document) :
    canonicalAll (document.filter isVisible) = canonicalAll document := by
  induction document with
  | nil => rfl
  | cons node rest ih =>
    by_cases hv : isVisible node = true
    · rw [List.filter_cons_of_pos hv, canonicalAll, canonicalAll, ih]
    · have hn : canonical node = [] := by
        cases node with
        | doctype | instruction => rfl
        | element | text | cdata | comment => exact absurd rfl hv
      rw [List.filter_cons_of_neg hv, canonicalAll, hn, ih, List.nil_append]

/-- Of the nodes only an element is an element by itself. -/
theorem isSingle_canonical_iff {node : Node} :
    IsSingle (canonical node) ↔ node.isElement = true := by
  cases node with
  | element span tag children =>
    rw [canonical]
    exact iff_of_true ⟨_, _, _, rfl⟩ rfl
  | text | cdata | comment | doctype | instruction =>
    refine iff_of_false ?_ Bool.false_ne_true
    rintro ⟨name, attributes, children, he⟩
    simp [canonical] at he

theorem name_ne_empty_of_tagFault? {tag : Tag} (h : tagFault? tag = none) : tag.name ≠ "" := by
  intro hn
  rw [tagFault?, if_pos hn] at h
  cases h

/-- Read back, a legible document is one element or fragment unless it is only a leaf. -/
theorem isSingle_contents?_iff {document : Document}
    (h : ∀ tag ∈ Node.tagsAll document, Legible tag) :
    (∃ contents, contents? (wrap (writtenParts none document)) = some contents ∧
      IsSingle contents) ↔ ¬ OnlyLeaf document := by
  rw [contents?_wrap h, ← canonicalAll_filter, writtenParts_eq, List.length_map]
  simp only [Option.some.injEq, exists_eq_left']
  split_ifs with hl
  · obtain ⟨node, hd⟩ := List.length_eq_one_iff.1 hl
    rw [hd, canonicalAll, canonicalAll, List.append_nil, isSingle_canonical_iff]
    constructor
    · rintro he ⟨leaf, hleaf, hn⟩
      rw [hd, List.singleton_inj] at hleaf
      rw [← hleaf, he] at hn
      cases hn
    · intro hn
      by_contra he
      exact hn ⟨node, hd, Bool.eq_false_iff.2 he⟩
  · refine iff_of_true ⟨_, _, _, rfl⟩ ?_
    rintro ⟨leaf, hd, -⟩
    exact hl (by rw [hd]; rfl)

/-- A document is written as one element or fragment unless all that it has to write is a leaf,
which is left in its braces; with names that can be written this is how the text reads, too. -/
theorem single_iff_of_render {document : Document} {overrides : Option Overrides}
    {rendered : Rendered} (h : render document overrides = .ok rendered) :
    (IsElement rendered.text.toList ↔ ¬ OnlyLeaf document) ∧
    (rendered.text.toList.head? = some '{' ↔ OnlyLeaf document) ∧
    (overrides = none → (∀ tag ∈ Node.tagsAll document, isWritable tag.name = true) →
      ((∃ contents, contents? rendered.text = some contents ∧ IsSingle contents) ↔
        ¬ OnlyLeaf document)) := by
  obtain ⟨hf, ht⟩ := of_render_eq_ok h
  have hne : ∀ tag ∈ Node.tagsAll document, tag.name ≠ "" := fun tag hm =>
    name_ne_empty_of_tagFault? (hf tag hm)
  rw [ht]
  refine ⟨isElement_wrap_iff hne overrides, head?_wrap_iff hne overrides, ?_⟩
  rintro rfl hn
  exact isSingle_contents?_iff fun tag hm => legible_of_tagFault? (hn tag hm) (hf tag hm)

theorem single_of_render_element_and_comment :
    ∃ rendered, render [.comment {} "icon", .element {} ⟨"svg", .empty⟩ []] none = .ok rendered ∧
      IsElement rendered.text.toList := by
  have h : render [.comment {} "icon", .element {} ⟨"svg", .empty⟩ []] none =
      .ok ⟨"<>\x7b/* icon */\x7d<svg /></>", []⟩ := by
    with_unfolding_all rfl
  refine ⟨_, h, (single_iff_of_render h).1.2 ?_⟩
  rintro ⟨leaf, hd, -⟩
  cases hd

/-- A document of nothing but a comment is written as bare braces. -/
theorem not_forall_isElement :
    ¬ ∀ (document : Document) (overrides : Option Overrides) (rendered : Rendered),
      render document overrides = .ok rendered → IsElement rendered.text.toList := by
  intro h
  have hr : render [.comment {} "icon"] none = .ok ⟨"\x7b/* icon */\x7d", []⟩ := by
    with_unfolding_all rfl
  have hhead := (h _ _ _ hr).head?
  revert hhead
  decide

end SvgComponent.Jsx
