import SvgComponent.Markup.Document

/-!
# Events of a document

A tree says the same as a flat sequence of events, in document order : an element a start and
a stop around its children, any other node one event (`Event.ofNodes`). A sequence of tokens
says events too (`Event.ofTokens`) : an empty tag is a start followed by a stop, text is
expanded and, where blanks do not matter, trimmed or left out.

Two conditions on tokens make sense without a tree : each can be read by itself (`Token.Sound`),
and the opening and closing tags are nested with equal names (`Nested`).

`bareAll_eq_of_ofNodes` : events determine the nodes, apart from their spans.
-/

namespace SvgComponent.Markup

open Text

/-- One step of a walk over a document. -/
inductive Event where
  | start (name : String) (attributes : List (String × String))
  | stop (name : String)
  | text (value : String)
  | cdata (value : String)
  | comment (value : String)
  | doctype (value : String)
  | instruction (name value : String)
  deriving DecidableEq, Repr

/-! ## Events of nodes -/

namespace Event

mutual

/-- The events of a node, from its start to its end. -/
def ofNode : Node → List Event
  | .element _ tag children =>
    .start tag.name tag.attributes.entries :: (ofNodes children ++ [.stop tag.name])
  | .text _ value => [.text value]
  | .cdata _ value => [.cdata value]
  | .comment _ value => [.comment value]
  | .doctype _ value => [.doctype value]
  | .instruction _ name value => [.instruction name value]

/-- The events of nodes one after the other. -/
def ofNodes : List Node → List Event
  | [] => []
  | node :: rest => ofNode node ++ ofNodes rest

end

@[simp] theorem ofNodes_append (a b : List Node) : ofNodes (a ++ b) = ofNodes a ++ ofNodes b := by
  induction a with
  | nil => rfl
  | cons node rest ih => rw [List.cons_append, ofNodes, ih, ofNodes, List.append_assoc]

end Event

/-! ## Events of tokens -/

/-- The attributes of a tag as written, and the fault that ends them. -/
def rawAttributes (content : List Char) : List RawAttribute × Option AttributeFault :=
  RawAttribute.readAll true (width (nameOf content)) (afterName content)

/-- The text that its references make of a text; nothing if one of them is wrong. -/
def expanded (raw : List Char) : List Char :=
  match Reference.expand raw with
  | .ok value => value
  | .error _ => []

/-- The attributes of a tag in order, their values expanded. -/
def attributesOf (content : List Char) : List (String × String) :=
  (rawAttributes content).1.map fun a => (String.ofList a.key, String.ofList (expanded a.value))

/-- Whether blanks matter inside the open elements of these names. -/
def keepsBlanks (opened : List String) : Bool :=
  opened.any textElements.contains

namespace Token

/-- A tag is sound if its attributes are well formed and distinct, and their values can be
expanded. -/
def SoundTag (content : List Char) : Prop :=
  (rawAttributes content).2 = none ∧
    ∀ a ∈ (rawAttributes content).1, ∃ value, Reference.expand a.value = .ok value

/-- A token that can be read by itself. -/
def Sound : Token → Prop
  | text raw => ∃ value, Reference.expand raw = .ok value
  | opening content => SoundTag content
  | empty content => SoundTag content
  | _ => True

/-- The name of an opening or empty tag. -/
def tagName (content : List Char) : String :=
  String.ofList (nameOf content)

/-- The name that a closing tag ends. -/
def endName (content : List Char) : String :=
  String.ofList (closingName content)

/-- The event of an instruction; the declaration of the version is put together again. -/
def instructionEvent (content : List Char) : Event :=
  if isDeclaration content then .instruction "xml" (declarationValue content)
  else .instruction (tagName content) (String.ofList (trim (afterName content)))

/-- The events of a token; `keeps` says whether blanks matter around it. -/
def events (keeps : Bool) : Token → List Event
  | text raw =>
    let value := if keeps then expanded raw else trim (expanded raw)
    if !keeps && value.isEmpty then [] else [.text (String.ofList value)]
  | opening content => [.start (tagName content) (attributesOf content)]
  | empty content =>
    [.start (tagName content) (attributesOf content), .stop (tagName content)]
  | closing content => [.stop (endName content)]
  | comment content => [.comment (String.ofList (trim content))]
  | cdata content => [.cdata (String.ofList content)]
  | doctype _ content => [.doctype (String.ofList (trim content))]
  | instruction content => [instructionEvent content]

/-- The elements that are open behind a token, the innermost first. -/
def openedAfter (opened : List String) : Token → List String
  | opening content => tagName content :: opened
  | closing _ => opened.tail
  | _ => opened

/-- A token that neither opens nor closes an element. -/
def IsLeaf : Token → Prop
  | opening _ | closing _ => False
  | _ => True

end Token

/-- The events of tokens, inside the open elements of these names. -/
def Event.ofTokens (opened : List String) : List Token → List Event
  | [] => []
  | token :: rest =>
    token.events (keepsBlanks opened) ++ ofTokens (token.openedAfter opened) rest

/-- The opening and closing tags of the tokens are nested, each pair with one name. -/
inductive Nested : List Token → Prop
  | nil : Nested []
  | leaf {token : Token} {rest : List Token} (h : token.IsLeaf) (hr : Nested rest) :
    Nested (token :: rest)
  | element {start stop : List Char} {inner rest : List Token}
    (h : Token.tagName start = Token.endName stop) (hi : Nested inner) (hr : Nested rest) :
    Nested (.opening start :: inner ++ .closing stop :: rest)

/-! ## Events determine nodes -/

mutual

/-- A node without the places it was read from. -/
def bare : Node → Node
  | .element _ tag children => .element {} tag (bareAll children)
  | .text _ value => .text {} value
  | .cdata _ value => .cdata {} value
  | .comment _ value => .comment {} value
  | .doctype _ value => .doctype {} value
  | .instruction _ name value => .instruction {} name value

/-- Nodes without the places they were read from. -/
def bareAll : List Node → List Node
  | [] => []
  | node :: rest => bare node :: bareAll rest

end

/-- What follows the last of some nodes : nothing, or the stop of the element around them. -/
def Event.Ends (events : List Event) : Prop :=
  ∀ event rest, events = event :: rest → ∃ name, event = .stop name

/-- No node starts with the end of an element. -/
theorem ofNode_ne_stop (node : Node) (name : String) (rest : List Event) :
    Event.ofNode node ≠ .stop name :: rest := by
  cases node <;> simp [Event.ofNode]

theorem exists_cons_ofNode (node : Node) : ∃ event rest, Event.ofNode node = event :: rest := by
  cases node <;> exact ⟨_, _, rfl⟩

/-- No node starts where others end. -/
theorem ofNode_append_ne {node : Node} {x y : List Event} (hx : Event.Ends x) :
    x ≠ Event.ofNode node ++ y := by
  intro h
  obtain ⟨event, rest, he⟩ := exists_cons_ofNode node
  rw [he, List.cons_append] at h
  obtain ⟨name, rfl⟩ := hx event _ h
  exact ofNode_ne_stop node name rest he

theorem entries_injective {a b : Attributes} (h : a.entries = b.entries) : a = b := by
  obtain ⟨entries, nodup⟩ := a
  cases h
  rfl

theorem tag_eq {a b : Tag} (hn : a.name = b.name)
    (he : a.attributes.entries = b.attributes.entries) : a = b := by
  obtain ⟨name, attributes⟩ := a
  cases hn
  cases entries_injective he
  rfl

mutual

/-- The events of a node tell the node, whatever follows them. -/
theorem bare_eq_of_ofNode : (node other : Node) → (x y : List Event) →
    Event.ofNode node ++ x = Event.ofNode other ++ y → bare node = bare other ∧ x = y
  | .element _ tag children, other, x, y, h => by
    cases other with
    | element span' tag' children' =>
      simp only [Event.ofNode, List.cons_append, List.append_assoc, List.cons.injEq,
        Event.start.injEq] at h
      obtain ⟨⟨hn, ha⟩, hc⟩ := h
      obtain ⟨hb, hs⟩ := bareAll_eq_of_ofNodes_append children children' _ _
        (by simp [Event.Ends]) (by simp [Event.Ends]) hc
      simp only [List.nil_append, List.cons.injEq, Event.stop.injEq] at hs
      exact ⟨by rw [bare, bare, hb, tag_eq hn ha], hs.2⟩
    | text | cdata | comment | doctype | instruction => simp [Event.ofNode] at h
  | .text _ value, other, x, y, h => by cases other <;> simp_all [Event.ofNode, bare]
  | .cdata _ value, other, x, y, h => by cases other <;> simp_all [Event.ofNode, bare]
  | .comment _ value, other, x, y, h => by cases other <;> simp_all [Event.ofNode, bare]
  | .doctype _ value, other, x, y, h => by cases other <;> simp_all [Event.ofNode, bare]
  | .instruction _ name value, other, x, y, h => by
    cases other <;> simp_all [Event.ofNode, bare]

/-- The events of nodes tell the nodes, up to the end of the element around them. -/
theorem bareAll_eq_of_ofNodes_append : (nodes others : List Node) → (x y : List Event) →
    Event.Ends x → Event.Ends y → Event.ofNodes nodes ++ x = Event.ofNodes others ++ y →
    bareAll nodes = bareAll others ∧ x = y
  | [], [], x, y, _, _, h => ⟨rfl, h⟩
  | [], other :: others, x, y, hx, _, h => by
    rw [Event.ofNodes, Event.ofNodes, List.append_assoc] at h
    exact absurd h (ofNode_append_ne hx)
  | node :: nodes, [], x, y, _, hy, h => by
    rw [Event.ofNodes, Event.ofNodes, List.append_assoc] at h
    exact absurd h.symm (ofNode_append_ne hy)
  | node :: nodes, other :: others, x, y, hx, hy, h => by
    rw [Event.ofNodes, Event.ofNodes, List.append_assoc, List.append_assoc] at h
    obtain ⟨hb, hr⟩ := bare_eq_of_ofNode node other _ _ h
    obtain ⟨hbs, hxy⟩ := bareAll_eq_of_ofNodes_append nodes others x y hx hy hr
    exact ⟨by rw [bareAll, bareAll, hb, hbs], hxy⟩

end

/-- Nodes with the same events are the same, apart from their spans. -/
theorem bareAll_eq_of_ofNodes {nodes others : List Node}
    (h : Event.ofNodes nodes = Event.ofNodes others) : bareAll nodes = bareAll others :=
  (bareAll_eq_of_ofNodes_append nodes others [] [] (by simp [Event.Ends]) (by simp [Event.Ends])
    (by rw [List.append_nil, List.append_nil, h])).1

end SvgComponent.Markup
