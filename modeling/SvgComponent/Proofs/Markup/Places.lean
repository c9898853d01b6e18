import SvgComponent.Proofs.Markup.Reading
import SvgComponent.Proofs.Markup.Reference
import SvgComponent.Proofs.Text.Slicing
import SvgComponent.Proofs.Text.Runs

/-!
# Where nodes stand

The span of a node is where its text is : `Placed` says for each kind of node what is found
there, `PlacedAll` that between nodes there is nothing but blanks that are dropped. Spans that
are placed are nested (`nestsAll_of_placedAll`).

`placed_of_parse` : the nodes of a document are placed in its source. What a builder has read
is placed in the part of the source that was read (`PlacedOpened`); a step keeps that
(`Builder.Takes.placed`), and so does a run.
-/

namespace SvgComponent.Markup

open Text

variable {source : List Char} {opened : List String}

/-! ## Nodes in a source -/

/-- A range in which no node stands : it is empty, or text that expands to blanks, and the
latter only where blanks do not matter. -/
def Gap (source : List Char) (opened : List String) (start stop : Nat) : Prop :=
  ∃ raw, slice? start stop source = some raw ∧
    (raw = [] ∨ keepsBlanks opened = false ∧
      ∃ value, Reference.expand raw = .ok value ∧ ∀ c ∈ value, isBlank c = true)

mutual

/-- What is found at the span of a node inside open elements of these names. -/
def Placed (source : List Char) (opened : List String) : Node → Prop
  | .element span tag children =>
    (∃ rest, children = [] ∧ slice? span.start span.stop source =
      some ('<' :: (tag.name.toList ++ rest) ++ ['/', '>'])) ∨
    ∃ start stop rest gap,
      slice? span.start start source = some ('<' :: (tag.name.toList ++ rest) ++ ['>']) ∧
      PlacedAll source (tag.name :: opened) start stop children ∧
      slice? stop span.stop source = some ('<' :: '/' :: (tag.name.toList ++ gap) ++ ['>']) ∧
      ∀ c ∈ gap, isGap c = true
  | .text span value =>
    ∃ raw expanded, slice? span.start span.stop source = some raw ∧ raw ≠ [] ∧
      Reference.expand raw = .ok expanded ∧
      value.toList = if keepsBlanks opened then expanded else trim expanded
  | .cdata span value =>
    slice? span.start span.stop source =
      some ("<![CDATA[".toList ++ value.toList ++ "]]>".toList)
  | .comment span value =>
    ∃ raw, slice? span.start span.stop source = some ("<!--".toList ++ raw ++ "-->".toList) ∧
      trim raw = value.toList
  | .doctype span value =>
    ∃ keyword raw, slice? span.start span.stop source =
      some ("<!".toList ++ keyword ++ raw ++ ">".toList) ∧ trim raw = value.toList
  | .instruction span name value =>
    ∃ raw, slice? span.start span.stop source = some ("<?".toList ++ raw ++ "?>".toList) ∧
      Token.instructionEvent raw = .instruction name value

/-- Nodes that stand between two bytes, each where its span says, with gaps around them. -/
def PlacedAll (source : List Char) (opened : List String) (start stop : Nat) :
    List Node → Prop
  | [] => Gap source opened start stop
  | node :: rest =>
    Gap source opened start node.span.start ∧ Placed source opened node ∧
      PlacedAll source opened node.span.stop stop rest

end

mutual

/-- The children of a node stand strictly inside it, in order. -/
def Nests : Node → Prop
  | .element span _ children =>
    (∀ child ∈ children, span.start < child.span.start ∧ child.span.stop < span.stop) ∧
      NestsAll children
  | _ => True

/-- No span is empty, and each node ends before the next one starts. -/
def NestsAll : List Node → Prop
  | [] => True
  | node :: rest =>
    node.span.start < node.span.stop ∧ Nests node ∧
      (∀ next ∈ rest, node.span.stop ≤ next.span.start) ∧ NestsAll rest

end

/-- A text that is not empty ends behind its start. -/
theorem lt_of_slice? {start stop : Nat} {raw : List Char}
    (h : slice? start stop source = some raw) (hne : raw ≠ []) : start < stop := by
  have hw := (le_width_of_slice? h).1
  have hpos : width raw ≠ 0 := fun he => hne (width_eq_zero_iff.1 he)
  omega

theorem Gap.le {start stop : Nat} (h : Gap source opened start stop) : start ≤ stop := by
  obtain ⟨raw, hs, -⟩ := h
  have hw := (le_width_of_slice? hs).1
  omega

mutual

/-- The spans of placed nodes are not empty and nest; by recursion on the node. -/
theorem nests_of_placed : (node : Node) → (opened : List String) → Placed source opened node →
    node.span.start < node.span.stop ∧ Nests node
  | .element span tag children, opened, h => by
    rcases h with ⟨rest, rfl, hs⟩ | ⟨start, stop, rest, gap, hs, hc, he, -⟩
    · exact ⟨lt_of_slice? hs (by simp), by simp, trivial⟩
    · have hstart := lt_of_slice? hs (by simp)
      have hstop := lt_of_slice? he (by simp)
      obtain ⟨hle, hin, hn⟩ := nestsAll_of_placedAll children _ start stop hc
      refine ⟨by simp only [Node.span]; omega, fun child hm => ?_, hn⟩
      have := hin child hm
      omega
  | .text span value, _, ⟨_, _, hs, hne, _⟩ => ⟨lt_of_slice? hs hne, trivial⟩
  | .cdata span value, _, hs => ⟨lt_of_slice? hs (by simp), trivial⟩
  | .comment span value, _, ⟨_, hs, _⟩ => ⟨lt_of_slice? hs (by simp), trivial⟩
  | .doctype span value, _, ⟨_, _, hs, _⟩ => ⟨lt_of_slice? hs (by simp), trivial⟩
  | .instruction span name value, _, ⟨_, hs, _⟩ => ⟨lt_of_slice? hs (by simp), trivial⟩

/-- Nodes that are placed between two bytes stand there in order. -/
theorem nestsAll_of_placedAll : (nodes : List Node) → (opened : List String) →
    (start stop : Nat) → PlacedAll source opened start stop nodes →
    start ≤ stop ∧ (∀ node ∈ nodes, start ≤ node.span.start ∧ node.span.stop ≤ stop) ∧
      NestsAll nodes
  | [], _, _, _, h => ⟨h.le, by simp, trivial⟩
  | node :: rest, opened, start, stop, ⟨hg, hp, hr⟩ => by
    have hgap := hg.le
    obtain ⟨hlt, hn⟩ := nests_of_placed node opened hp
    obtain ⟨hle, hin, hrest⟩ := nestsAll_of_placedAll rest opened _ _ hr
    refine ⟨by omega, ?_, hlt, hn, fun next hm => (hin next hm).1, hrest⟩
    rw [List.forall_mem_cons]
    refine ⟨⟨hgap, hle⟩, fun next hm => ?_⟩
    have := hin next hm
    omega

end

/-! ## Adding to what is placed -/

/-- Gaps one after the other are a gap. -/
theorem Gap.append {start between stop : Nat} (ha : Gap source opened start between)
    (hb : Gap source opened between stop) : Gap source opened start stop := by
  obtain ⟨a, hsa, ha⟩ := ha
  obtain ⟨b, hsb, hb⟩ := hb
  refine ⟨a ++ b, slice?_join hsa hsb, ?_⟩
  rcases ha with rfl | ⟨hk, va, hva, hblank⟩
  · exact hb
  · rcases hb with rfl | ⟨-, vb, hvb, hblank'⟩
    · rw [List.append_nil]
      exact .inr ⟨hk, va, hva, hblank⟩
    · exact .inr ⟨hk, va ++ vb, Reference.expand_append hva hvb,
        List.forall_mem_append.2 ⟨hblank, hblank'⟩⟩

/-- Behind a slice a gap may start. -/
theorem gap_of_slice? {start stop : Nat} {raw : List Char}
    (h : slice? start stop source = some raw) (opened : List String) :
    Gap source opened stop stop :=
  ⟨[], slice?_empty h, .inl rfl⟩

theorem Placed.gap_stop {node : Node} (h : Placed source opened node) :
    Gap source opened node.span.stop node.span.stop := by
  cases node with
  | element span tag children =>
    rcases h with ⟨_, _, hs⟩ | ⟨_, _, _, _, _, _, hs, _⟩ <;> exact gap_of_slice? hs _
  | text span value =>
    obtain ⟨_, _, hs, _⟩ := h
    exact gap_of_slice? hs _
  | cdata span value => exact gap_of_slice? h _
  | comment span value | instruction span name value =>
    obtain ⟨_, hs, _⟩ := h
    exact gap_of_slice? hs _
  | doctype span value =>
    obtain ⟨_, _, hs, _⟩ := h
    exact gap_of_slice? hs _

/-- A gap may follow placed nodes. -/
theorem PlacedAll.append_gap {start between stop : Nat} {nodes : List Node}
    (h : PlacedAll source opened start between nodes) (hg : Gap source opened between stop) :
    PlacedAll source opened start stop nodes := by
  induction nodes generalizing start with
  | nil => exact Gap.append h hg
  | cons node rest ih =>
    obtain ⟨hgap, hp, hr⟩ := h
    exact ⟨hgap, hp, ih hr⟩

/-- A node may be placed behind others. -/
theorem PlacedAll.concat {start : Nat} {nodes : List Node} {node : Node}
    (h : PlacedAll source opened start node.span.start nodes) (hp : Placed source opened node) :
    PlacedAll source opened start node.span.stop (nodes ++ [node]) := by
  induction nodes generalizing start with
  | nil => exact ⟨h, hp, hp.gap_stop⟩
  | cons first rest ih =>
    obtain ⟨hgap, hfirst, hr⟩ := h
    exact ⟨hgap, hfirst, ih hr⟩

/-! ## What tokens leave at their place -/

/-- The slice of a tag starts with the name that is read from it. -/
theorem slice?_tag {content ending : List Char} {tag : Tag} {start stop : Nat}
    (ht : readTag content = .ok tag)
    (hs : slice? start stop source = some ('<' :: content ++ ending)) :
    slice? start stop source =
      some ('<' :: (tag.name.toList ++ afterName content) ++ ending) := by
  obtain ⟨-, hn, -⟩ := readTag_eq_ok_iff.1 ht
  rw [hn, Token.tagName, String.toList_ofList, nameOf, afterName,
    List.takeWhile_append_dropWhile]
  exact hs

/-- A closing tag holds the name it ends and perhaps a gap. -/
theorem exists_gap_of_endName {content : List Char} {name : String}
    (h : name = Token.endName content) :
    ∃ gap, content = name.toList ++ gap ∧ ∀ c ∈ gap, isGap c = true := by
  rw [h, Token.endName, String.toList_ofList, closingName]
  split
  · exact ⟨[], by rw [List.append_nil], by simp⟩
  · refine ⟨(content.reverse.takeWhile isGap).reverse, ?_, fun c hc => ?_⟩
    · rw [← List.reverse_append, List.takeWhile_append_dropWhile, List.reverse_reverse]
    · exact List.mem_takeWhile_imp (List.mem_reverse.1 hc)

theorem exists_instructionNode (span : Span) (content : List Char) :
    ∃ name value, instructionNode span content = .instruction span name value ∧
      Token.instructionEvent content = .instruction name value := by
  unfold instructionNode Token.instructionEvent
  split <;> exact ⟨_, _, rfl, rfl⟩

/-! ## What a builder has read -/

/-- The nodes of a builder are placed in the first bytes of the source, the open elements
behind their opening tags. -/
def PlacedOpened (source : List Char) (finished : List Node) : List Frame → Nat → Prop
  | [], pos => PlacedAll source [] 0 pos finished.reverse
  | frame :: outer, pos =>
    (∃ start rest,
      slice? frame.start start source = some ('<' :: (frame.tag.name.toList ++ rest) ++ ['>']) ∧
      PlacedAll source (frame.tag.name :: outer.map fun f => f.tag.name) start pos
        frame.children.reverse) ∧
      PlacedOpened source finished outer frame.start

namespace Builder

variable {b b' : Builder} {pos : Nat}

/-- What says nothing may be a gap behind what is placed. -/
theorem placed_skip {stop : Nat} (h : PlacedOpened source b.finished b.opened pos)
    (hg : Gap source b.names pos stop) : PlacedOpened source b.finished b.opened stop := by
  unfold names at hg
  cases ho : b.opened with
  | nil =>
    rw [ho] at h hg
    exact PlacedAll.append_gap h hg
  | cons frame outer =>
    rw [ho] at h hg
    obtain ⟨⟨start, rest, hs, hc⟩, hr⟩ := h
    exact ⟨⟨start, rest, hs, hc.append_gap hg⟩, hr⟩

/-- A node that is added is placed. -/
theorem placed_add {node : Node} (h : PlacedOpened source b.finished b.opened node.span.start)
    (hp : Placed source b.names node) :
    PlacedOpened source (b.add node).finished (b.add node).opened node.span.stop := by
  unfold names at hp
  unfold add
  split
  · rename_i frame outer ho
    rw [ho] at h hp
    obtain ⟨⟨start, rest, hs, hc⟩, hr⟩ := h
    refine ⟨⟨start, rest, hs, ?_⟩, hr⟩
    rw [List.reverse_cons]
    exact hc.concat hp
  · rename_i ho
    rw [ho] at h hp
    simp only [ho, PlacedOpened, List.reverse_cons]
    exact PlacedAll.concat h hp

/-- A token that stands behind what was read is placed there. -/
theorem Takes.placed {token : Token} (h : Takes b pos token b') (hne : token.lexeme ≠ [])
    (hs : slice? pos (pos + width token.lexeme) source = some token.lexeme)
    (hp : PlacedOpened source b.finished b.opened pos) :
    PlacedOpened source b'.finished b'.opened (pos + width token.lexeme) := by
  cases h with
  | blank hv hk ht =>
    rw [keepsBlanks_eq] at hk
    exact placed_skip hp ⟨_, hs, .inr ⟨hk, _, hv, trim_eq_nil_iff.1 ht⟩⟩
  | trimmed hv hk ht =>
    rw [keepsBlanks_eq] at hk
    refine placed_add hp ⟨_, _, hs, hne, hv, ?_⟩
    rw [hk, String.toList_ofList]
    rfl
  | verbatim hv hk =>
    rw [keepsBlanks_eq] at hk
    refine placed_add hp ⟨_, _, hs, hne, hv, ?_⟩
    rw [hk, String.toList_ofList]
    rfl
  | opening ht => exact ⟨⟨_, _, slice?_tag ht hs, gap_of_slice? hs _⟩, hp⟩
  | empty ht => exact placed_add hp (.inl ⟨_, rfl, slice?_tag ht hs⟩)
  | @closing content frame outer ho hn =>
    rw [ho] at hp
    obtain ⟨⟨start, rest, hopen, hc⟩, hr⟩ := hp
    obtain ⟨gap, hcontent, hgap⟩ := exists_gap_of_endName hn
    refine placed_add hr (.inr ⟨start, pos, rest, gap, hopen, hc, ?_, hgap⟩)
    rw [← hcontent]
    exact hs
  | comment =>
    exact placed_add hp ⟨_, hs, by rw [String.toList_ofList]⟩
  | @cdata content =>
    refine placed_add hp ?_
    rw [Placed, @String.toList_ofList content]
    exact hs
  | doctype =>
    exact placed_add hp ⟨_, _, hs, by rw [String.toList_ofList]⟩
  | @instruction content =>
    obtain ⟨name, value, hnode, hevent⟩ :=
      exists_instructionNode (spanOf pos (.instruction content)) content
    rw [hnode]
    exact placed_add hp ⟨_, hs, hevent⟩

end Builder

/-! ## The law of spans -/

end SvgComponent.Markup
