import SvgComponent.Tree.Visit

/-!
# What a visit without a state does

`Node.mapTags` visits with a callback that looks at the tag alone. It is a map of the tree
(`mapTags_cons`, `mapTag_element`) : each element gets the tag that the callback answers with,
or is left out with all that is in it.

* `mapTags_mapTags` : one visit after the other is one visit;
* `tagsAll_mapTags_some` : if the callback removes nothing, the tags of the result are the tags
  of the document, each changed by itself.
-/

namespace SvgComponent.Node

/-- One node as a visit by `mapTags` leaves it. -/
def mapTag (f : Tag → Option Tag) (node : Node) : Option Node :=
  (visit (fun tag _ (_ : Unit) => (f tag, ())) node ()).1

variable (f : Tag → Option Tag)

@[simp] theorem mapTags_nil : mapTags f [] = [] := rfl

theorem mapTags_cons (node : Node) (rest : List Node) :
    mapTags f (node :: rest) = (mapTag f node).toList ++ mapTags f rest := rfl

/-- An element is left if its tag is, with what is left of its children. -/
theorem mapTag_element (span : Span) (tag : Tag) (children : List Node) :
    mapTag f (.element span tag children) =
      (f tag).map fun tag => .element span tag (mapTags f children) := by
  unfold mapTag
  rw [visit]
  cases f tag <;> rfl

theorem mapTags_append (a b : List Node) : mapTags f (a ++ b) = mapTags f a ++ mapTags f b := by
  induction a with
  | nil => rfl
  | cons node rest ih => rw [List.cons_append, mapTags_cons, ih, mapTags_cons, List.append_assoc]

theorem retain_of_not_isElement (keep : Node → Bool) {node : Node} (h : node.isElement = false) :
    retain keep node = if keep node then some node else none := by
  cases node with
  | element => cases h
  | text | cdata | comment | doctype | instruction => rfl

theorem tagsAll_append (a b : List Node) : tagsAll (a ++ b) = tagsAll a ++ tagsAll b := by
  induction a with
  | nil => rfl
  | cons node rest ih => rw [List.cons_append, tagsAll, ih, tagsAll, List.append_assoc]

theorem mem_tagsAll {nodes : List Node} {node : Node} {tag : Tag} (hn : node ∈ nodes)
    (ht : tag ∈ node.tags) : tag ∈ tagsAll nodes := by
  obtain ⟨before, after, rfl⟩ := List.append_of_mem hn
  rw [tagsAll_append, tagsAll]
  exact List.mem_append_right _ (List.mem_append_left _ ht)

variable (g : Tag → Tag)

mutual

/-- Where every tag is kept, the tags are those that have been changed. -/
theorem tags_mapTag_some : (node : Node) →
    tagsAll (mapTag (fun tag => some (g tag)) node).toList = node.tags.map g
  | .element span tag children => by
    rw [mapTag_element, Option.map_some, Option.toList_some, tagsAll, tagsAll, tags, tags,
      tagsAll_mapTags_some children, List.append_nil, List.map_cons]
  | .text .. | .cdata .. | .comment .. | .doctype .. | .instruction .. => rfl

/-- The tags of a document in which each tag is changed by itself. -/
theorem tagsAll_mapTags_some : (nodes : List Node) →
    tagsAll (mapTags (fun tag => some (g tag)) nodes) = (tagsAll nodes).map g
  | [] => rfl
  | node :: rest => by
    rw [mapTags_cons, tagsAll_append, tags_mapTag_some node, tagsAll_mapTags_some rest, tagsAll,
      List.map_append]

end

mutual

/-- Changing tags twice is one change. -/
theorem mapTags_mapTag (h : Tag → Option Tag) : (node : Node) →
    mapTags f (mapTag h node).toList = (mapTag (fun tag => (h tag).bind f) node).toList
  | .element span tag children => by
    rw [mapTag_element, mapTag_element]
    cases h tag with
    | none => rfl
    | some tag =>
      rw [Option.map_some, Option.toList_some, mapTags_cons, mapTag_element,
        mapTags_mapTags h children, mapTags_nil, List.append_nil]
      rfl
  | .text .. | .cdata .. | .comment .. | .doctype .. | .instruction .. => rfl

/-- One visit after the other is one visit. -/
theorem mapTags_mapTags (h : Tag → Option Tag) : (nodes : List Node) →
    mapTags f (mapTags h nodes) = mapTags (fun tag => (h tag).bind f) nodes
  | [] => rfl
  | node :: rest => by
    rw [mapTags_cons, mapTags_append, mapTags_mapTag h node, mapTags_mapTags h rest, mapTags_cons]

end

end SvgComponent.Node
