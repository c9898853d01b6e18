import Mathlib.Data.List.Infix
import SvgComponent.Proofs.Json.Quoting
import SvgComponent.Proofs.Jsx.Content
import SvgComponent.Proofs.Jsx.Rendering
import SvgComponent.Proofs.Text.Runs

/-!
# A rendered document says what the document says

Every reader of `Content` is run on what the writer of its part writes, with any text behind
it : it reads that part and stops exactly where it ends. With the pieces of a node (`pieces`)
this gives `readPieces?_written`, by induction on the document; `assemble_pieces` nests them
again. `decode_render` puts both together, the fragment around several parts included.
-/

namespace SvgComponent.Jsx

open Text

/-! ## Names -/

theorem isWritable_iff {name : String} :
    isWritable name = true ↔ name ≠ "" ∧ ∀ c ∈ name.toList, isNameChar c = true := by
  simp [isWritable, isNameChar]

theorem readName_append {name : String} {d : Char} (h : ∀ c ∈ name.toList, isNameChar c = true)
    (hd : isNameChar d = false) (rest : List Char) :
    readName (name.toList ++ d :: rest) = (name, d :: rest) := by
  have hend : ∀ c ∈ (d :: rest).head?, isNameChar c = false := by simpa using hd
  rw [readName, takeWhile_run h hend, dropWhile_run h hend, String.ofList_toList]

/-! ## Strings and objects -/

/-- A quoted string is read as what has been quoted. -/
theorem readString?_quote (cs rest : List Char) :
    readString? (Json.quote cs ++ rest) = some (String.ofList cs, rest) := by
  have h := Json.unquote_quote cs rest
  rw [Json.quote, List.cons_append, List.tail_cons] at h
  rw [Json.quote, List.cons_append, List.cons_append, readString?, h]

theorem readStringAnd?_quote (mark cs rest : List Char) :
    readStringAnd? mark (Json.quote cs ++ (mark ++ rest)) = some (String.ofList cs, rest) := by
  simp [readStringAnd?, readString?_quote, stripMark?_append]

/-- The last entry of an object is read with the two brackets behind it. -/
theorem readPairs?_last (p : String × String) (rest : List Char) :
    readPairs? (Style.entry p.1 p.2 ++ '}' :: '}' :: rest) = some ([p], rest) := by
  have hk := readStringAnd?_quote [':'] p.1.toList (Json.quote p.2.toList ++ '}' :: '}' :: rest)
  have hv := readString?_quote p.2.toList ('}' :: '}' :: rest)
  rw [Style.entry, List.append_assoc, List.cons_append, readPairs?]
  simp only [List.singleton_append] at hk
  simp [hk, hv, stripMark?]

/-- An entry of an object is read in front of the others. -/
theorem readPairs?_more (p : String × String) (rest : List Char) :
    readPairs? (Style.entry p.1 p.2 ++ ',' :: rest) =
      (readPairs? rest).map fun q => (p :: q.1, q.2) := by
  have hk := readStringAnd?_quote [':'] p.1.toList (Json.quote p.2.toList ++ ',' :: rest)
  have hv := readString?_quote p.2.toList (',' :: rest)
  rw [Style.entry, List.append_assoc, List.cons_append, readPairs?]
  simp only [List.singleton_append] at hk
  simp only [hk, hv, Option.bind_eq_bind, Option.bind_some]
  rw [if_pos (by simp; omega)]
  cases readPairs? rest <;> simp

/-- The entries of an object are read up to its closing braces. -/
theorem readPairs?_separated (p : String × String) (ps : List (String × String))
    (rest : List Char) :
    readPairs? (Style.separated [','] ((p :: ps).map fun p => Style.entry p.1 p.2) ++
      '}' :: '}' :: rest) = some (p :: ps, rest) := by
  induction ps generalizing p with
  | nil => exact readPairs?_last p rest
  | cons q ps ih =>
    have hs : Style.separated [','] ((p :: q :: ps).map fun p => Style.entry p.1 p.2) =
        Style.entry p.1 p.2 ++ [','] ++
          Style.separated [','] ((q :: ps).map fun p => Style.entry p.1 p.2) := rfl
    rw [hs, List.append_assoc, List.append_assoc, List.singleton_append, readPairs?_more, ih q]
    rfl

/-! ## Attributes -/

/-- A string in braces is read as a value. -/
theorem readValue?_string (cs rest : List Char) :
    readValue? ('{' :: (Json.quote cs ++ '}' :: rest)) =
      some (.string (String.ofList cs), rest) := by
  have h := readStringAnd?_quote ['}'] cs rest
  rw [List.singleton_append] at h
  rw [readValue?, h]
  · rfl
  · simp [Json.quote]
  · simp [Json.quote]

theorem readValue?_quoted {cs : List Char} (h : Json.isPlain cs = true) (rest : List Char) :
    readValue? (Json.quote cs ++ rest) = some (.string (String.ofList cs), rest) := by
  rw [Json.quote, Json.flatMap_escape_of_isPlain h]
  simp [readValue?, Json.cutAt?_of_isPlain h]

/-- The object of a style is read as a value. -/
theorem readValue?_object (ps : List (String × String)) (rest : List Char) :
    readValue? ('{' :: '{' :: (Style.separated [','] (ps.map fun p => Style.entry p.1 p.2) ++
      '}' :: '}' :: rest)) = some (.object ps, rest) := by
  cases ps with
  | nil => rfl
  | cons p ps =>
    have hb := readPairs?_separated p ps rest
    rw [readValue?, hb]
    · rfl
    · intro r hr
      cases ps <;> simp [Style.separated, Style.entry, Json.quote] at hr

/-- The value of an attribute is read up to its end. -/
theorem readValue?_ofAttribute (name value : String) (rest : List Char) :
    ∃ cs, (Emission.ofAttribute name value).text.toList = '=' :: cs ∧
      readValue? (cs ++ rest) = some (valueOf name value, rest) := by
  unfold Emission.ofAttribute valueOf
  split_ifs with h
  · refine ⟨Style.expression value.toList, by simp [Emission.text], ?_⟩
    have hr := readValue?_object (Style.object value.toList).entries rest
    simpa [Style.expression] using hr
  · unfold Emission.literal
    split_ifs with hp
    · refine ⟨Json.quote value.toList, by simp [Emission.text], ?_⟩
      rw [readValue?_quoted hp, String.ofList_toList]
    · refine ⟨'{' :: Json.quote value.toList ++ ['}'], by simp [Emission.text], ?_⟩
      have hr := readValue?_string value.toList rest
      rw [String.ofList_toList] at hr
      simpa using hr

/-- One attribute is read off the front of a list. -/
theorem readAttributes?_cons {name value : String} (hw : isWritable name = true)
    (rest : List Char) :
    readAttributes?
        (' ' :: (name.toList ++ (Emission.ofAttribute name value).text.toList ++ rest)) =
      (readAttributes? rest).map fun q => ((name, valueOf name value) :: q.1, q.2) := by
  obtain ⟨hne, hc⟩ := isWritable_iff.1 hw
  obtain ⟨cs, hcs, hv⟩ := readValue?_ofAttribute name value rest
  obtain ⟨c, r, hn⟩ := List.exists_cons_of_ne_nil (show name.toList ≠ [] by simpa using hne)
  have hr := readName_append hc (by decide : isNameChar '=' = false) (cs ++ rest)
  have hs : startsAttribute (' ' :: (name.toList ++ '=' :: cs ++ rest)) = true := by
    rw [hn]
    exact hc c (by simp [hn])
  have hlt : rest.length < (' ' :: (name.toList ++ '=' :: cs ++ rest)).length := by
    simp
    omega
  rw [hcs, readAttributes?, if_pos hs]
  simp only [readAttribute?, List.tail_cons, List.append_assoc, List.cons_append, hr, stripMark?,
    hv, if_true, Option.bind_eq_bind, Option.bind_some, pure]
  rw [if_pos (by simpa using hlt)]
  cases readAttributes? rest <;> simp

theorem toList_text_cons (p : String × Emission) (props : Props) :
    (Props.text (p :: props)).toList =
      ' ' :: (p.1.toList ++ p.2.text.toList ++ (Props.text props).toList) := by
  simp [Props.text]

/-- The attributes of an element are read up to the end of its tag. -/
theorem readAttributes?_ofAttributes {rest : List Char} (hr : startsAttribute rest = false)
    (entries : List (String × String)) (hw : ∀ p ∈ entries, isWritable p.1 = true) :
    readAttributes?
        ((Props.text (entries.map fun p => (p.1, Emission.ofAttribute p.1 p.2))).toList ++ rest) =
      some (entries.map fun p => (p.1, valueOf p.1 p.2), rest) := by
  induction entries with
  | nil =>
    rw [readAttributes?]
    simp [Props.text, hr]
  | cons p entries ih =>
    have hp := hw p List.mem_cons_self
    rw [List.map_cons, toList_text_cons, List.cons_append, List.append_assoc,
      readAttributes?_cons hp, ih fun q hq => hw q (List.mem_cons_of_mem _ hq)]
    rfl

/-! ## Tags -/

/-- A tag that can be written and read back : its name is one, and its attributes have names
that can be written. -/
structure Legible (tag : Tag) : Prop where
  name : isWritable tag.name = true
  attributes : ∀ name ∈ tag.attributes.keys, isWritable name = true

/-- A tag without a fault is legible if its name is. -/
theorem legible_of_tagFault? {tag : Tag} (hn : isWritable tag.name = true)
    (h : tagFault? tag = none) : Legible tag := by
  refine ⟨hn, fun name hm => ?_⟩
  rw [tagFault?, if_neg (isWritable_iff.1 hn).1, Option.map_eq_none_iff, List.find?_eq_none] at h
  simpa using h name hm

theorem compose_none (attributes : Attributes) :
    Props.compose attributes none = Props.ofAttributes attributes :=
  rfl

/-- The front of a tag behind its `<`. -/
def frontText (tag : Tag) : List Char :=
  tag.name.toList ++ (Props.ofAttributes tag.attributes).text.toList

theorem toList_front (tag : Tag) : (front none tag).toList = '<' :: frontText tag := by
  simp [front, frontText, compose_none]

/-- The name of a tag is read up to its attributes. -/
theorem readName_frontText {tag : Tag} (h : Legible tag) {d : Char} (hd : isNameChar d = false)
    (rest : List Char) :
    readName (frontText tag ++ d :: rest) =
      (tag.name, (Props.ofAttributes tag.attributes).text.toList ++ d :: rest) := by
  have hc := (isWritable_iff.1 h.name).2
  rw [frontText, List.append_assoc]
  cases hp : Props.ofAttributes tag.attributes with
  | nil => simpa [Props.text] using readName_append hc hd rest
  | cons p props =>
    rw [toList_text_cons]
    exact readName_append hc (by decide) _

/-- The attributes of a tag are read up to its end. -/
theorem readAttributes?_tag {tag : Tag} (h : Legible tag) {rest : List Char}
    (hr : startsAttribute rest = false) :
    readAttributes? ((Props.ofAttributes tag.attributes).text.toList ++ rest) =
      some (valuesOf tag.attributes, rest) :=
  readAttributes?_ofAttributes hr _ fun p hp => h.attributes p.1 (List.mem_map_of_mem hp)

/-- Behind a `<` the front of a tag is taken for nothing else. -/
theorem readPiece?_frontText {tag : Tag} (h : Legible tag) (rest : List Char) :
    readPiece? ('<' :: (frontText tag ++ rest)) = readTag? (frontText tag ++ rest) := by
  obtain ⟨hne, hc⟩ := isWritable_iff.1 h.name
  obtain ⟨c, r, hn⟩ := List.exists_cons_of_ne_nil (show tag.name.toList ≠ [] by simpa using hne)
  have hslash : c ≠ '/' := by
    rintro rfl
    have := hc '/' (by simp [hn])
    revert this
    decide
  rw [frontText, hn, readPiece?]
  intro cs hcs
  exact hslash (List.cons.inj hcs).1

/-- The opening tag of an element with children is read as one. -/
theorem readPiece?_opening {tag : Tag} (h : Legible tag) (rest : List Char) :
    readPiece? ('<' :: (frontText tag ++ '>' :: rest)) =
      some (.opening tag.name (valuesOf tag.attributes), rest) := by
  rw [readPiece?_frontText h, readTag?, readName_frontText h (by decide)]
  simp only [@readAttributes?_tag tag h ('>' :: rest) rfl]
  rfl

theorem readPiece?_empty {tag : Tag} (h : Legible tag) (rest : List Char) :
    readPiece? ('<' :: (frontText tag ++ ' ' :: '/' :: '>' :: rest)) =
      some (.empty tag.name (valuesOf tag.attributes), rest) := by
  rw [readPiece?_frontText h, readTag?, readName_frontText h (by decide)]
  simp only [@readAttributes?_tag tag h (' ' :: '/' :: '>' :: rest) rfl]
  rfl

theorem readPiece?_closing {name : String} (h : isWritable name = true) (rest : List Char) :
    readPiece? ('<' :: '/' :: (name.toList ++ '>' :: rest)) = some (.closing name, rest) := by
  simp [readPiece?, readClosing?,
    readName_append (isWritable_iff.1 h).2 (by decide : isNameChar '>' = false), stripMark?]

/-! ## Strings and comments -/

/-- A text is read as the string in its braces. -/
theorem readPiece?_literal (value : String) (rest : List Char) :
    readPiece? ((literal value).toList ++ rest) = some (.string value, rest) := by
  have h := readStringAnd?_quote ['}'] value.toList rest
  rw [String.ofList_toList, List.singleton_append] at h
  rw [literal, String.toList_ofList, List.cons_append, List.cons_append, List.append_assoc,
    List.singleton_append, readPiece?, h]
  · rfl
  · simp [Json.quote]

/-- A comment ends where it was ended by the writer, whatever its text holds. -/
theorem readPiece?_comment (value : String) (rest : List Char) :
    readPiece? ((comment value).toList ++ rest) =
      some (.comment (String.ofList (breakUp value.toList)), rest) := by
  have hfree : ¬ (['*'] ++ ['/']) <:+: breakUp value.toList ++ [' '] :=
    not_infix_concat (by decide) (not_infix_breakUp value.toList)
  have hcut := cutAt?_append_mark ('}' :: rest) (by decide) hfree
  have ht : (comment value).toList ++ rest =
      '{' :: '/' :: '*' :: ' ' ::
        ((breakUp value.toList ++ [' ']) ++ (['*'] ++ ['/'] ++ '}' :: rest)) := by
    simp [comment, breakUp, scriptCommentEnd]
  rw [ht, readPiece?, readComment?]
  simp only [stripMark?, if_true, Option.bind_eq_bind, Option.bind_some]
  rw [show scriptCommentEnd = ['*'] ++ ['/'] from rfl, hcut]
  simp [stripMark?]

/-! ## Pieces of a document -/

mutual

/-- The pieces a node is written with. -/
def pieces : Node → List Piece
  | .element _ tag [] => [.empty tag.name (valuesOf tag.attributes)]
  | .element _ tag (child :: rest) =>
    .opening tag.name (valuesOf tag.attributes) ::
      (pieces child ++ piecesAll rest ++ [.closing tag.name])
  | .text _ value => [.string value]
  | .cdata _ value => [.string value]
  | .comment _ value => [.comment (String.ofList (breakUp value.toList))]
  | .doctype .. => []
  | .instruction .. => []

/-- The pieces of a list of nodes. -/
def piecesAll : List Node → List Piece
  | [] => []
  | node :: rest => pieces node ++ piecesAll rest

end

/-- What is read as one piece is read in front of the others. -/
theorem readPieces?_cons {cs rest : List Char} {piece : Piece}
    (h : readPiece? (cs ++ rest) = some (piece, rest)) (hne : cs ≠ []) :
    readPieces? (cs ++ rest) = (readPieces? rest).map (piece :: ·) := by
  have hpos := List.length_pos_iff.2 hne
  rw [readPieces?, if_neg (by simp [hne])]
  simp only [h, Option.bind_eq_bind, Option.bind_some]
  rw [if_pos (by simp; omega)]
  cases readPieces? rest <;> rfl

theorem toList_written_nil (span : Span) (tag : Tag) :
    (written none (.element span tag [])).toList = '<' :: (frontText tag ++ [' ', '/', '>']) := by
  simp [written, toList_front]

theorem toList_written_cons (span : Span) (tag : Tag) (child : Node) (nodes : List Node) :
    (written none (.element span tag (child :: nodes))).toList =
      '<' :: (frontText tag ++ ['>']) ++ ((written none child).toList ++
        ((writtenAll nodes).toList ++ '<' :: '/' :: (tag.name.toList ++ ['>']))) := by
  simp [written, toList_front]

mutual

/-- The text of a node is cut into its pieces, whatever comes behind. -/
theorem readPieces?_written (rest : List Char) : (node : Node) → (∀ tag ∈ node.tags, Legible tag) →
    readPieces? ((written none node).toList ++ rest) = (readPieces? rest).map (pieces node ++ ·)
  | .element span tag [], h => by
    have hp := readPiece?_empty (h tag (by simp [Node.tags])) rest
    rw [toList_written_nil]
    exact readPieces?_cons (by simpa using hp) (by simp)
  | .element span tag (child :: nodes), h => by
    simp only [Node.tags, Node.tagsAll, List.mem_cons, List.mem_append, forall_eq_or_imp] at h
    have hc := readPiece?_closing h.1.name rest
    rw [toList_written_cons, List.append_assoc, readPieces?_cons
        (by simpa using readPiece?_opening h.1 _) (by simp),
      List.append_assoc, readPieces?_written _ child fun t ht => h.2 t (.inl ht),
      List.append_assoc, readPieces?_writtenAll _ nodes fun t ht => h.2 t (.inr ht),
      readPieces?_cons (by simpa using hc) (by simp), Option.map_map, Option.map_map,
      Option.map_map]
    simp [pieces, Function.comp_def]
  | .text _ value, _ =>
    readPieces?_cons (readPiece?_literal value rest) (by simp [written, literal])
  | .cdata _ value, _ =>
    readPieces?_cons (readPiece?_literal value rest) (by simp [written, literal])
  | .comment _ value, _ =>
    readPieces?_cons (readPiece?_comment value rest) (by simp [written, comment])
  | .doctype .., _ => by simp [written, pieces]
  | .instruction .., _ => by simp [written, pieces]

/-- Nodes that stand side by side are read as their pieces. -/
theorem readPieces?_writtenAll (rest : List Char) : (nodes : List Node) →
    (∀ tag ∈ Node.tagsAll nodes, Legible tag) →
    readPieces? ((writtenAll nodes).toList ++ rest) = (readPieces? rest).map (piecesAll nodes ++ ·)
  | [], _ => by simp [writtenAll, piecesAll]
  | node :: nodes, h => by
    simp only [Node.tagsAll, List.mem_append] at h
    rw [writtenAll, String.toList_append, List.append_assoc,
      readPieces?_written _ node fun tag ht => h tag (.inl ht),
      readPieces?_writtenAll rest nodes fun tag ht => h tag (.inr ht), Option.map_map]
    simp [piecesAll, Function.comp_def]

end

/-! ## Nesting -/

mutual

/-- The pieces of a node are nested to what it has to say. -/
theorem assemble_pieces (opened : List OpenElement) (done : List Content) (ps : List Piece) :
    (node : Node) → assemble opened done (pieces node ++ ps) =
      assemble opened ((canonical node).reverse ++ done) ps
  | .element _ tag [] => rfl
  | .element _ tag (child :: nodes) => by
    rw [pieces, List.cons_append, assemble, List.append_assoc, List.append_assoc,
      assemble_pieces _ _ _ child, assemble_piecesAll _ _ _ nodes]
    simp [assemble, canonical, canonicalAll]
  | .text .. => rfl
  | .cdata .. => rfl
  | .comment .. => rfl
  | .doctype .. => rfl
  | .instruction .. => rfl

/-- Nesting the pieces of nodes gives the nodes back. -/
theorem assemble_piecesAll (opened : List OpenElement) (done : List Content) (ps : List Piece) :
    (nodes : List Node) → assemble opened done (piecesAll nodes ++ ps) =
      assemble opened ((canonicalAll nodes).reverse ++ done) ps
  | [] => rfl
  | node :: nodes => by
    rw [piecesAll, List.append_assoc, assemble_pieces _ _ _ node, assemble_piecesAll _ _ _ nodes]
    simp [canonicalAll]

end

/-! ## The whole text -/

theorem join_writtenParts (document : Document) :
    String.join (writtenParts none document) = writtenAll document := by
  induction document with
  | nil => rfl
  | cons node rest ih => rw [join_writtenParts_cons, ih, writtenAll]

/-- An element among the contents has the name of one of the tags. -/
theorem exists_tag_of_mem_canonicalAll {name : String} {attributes : List (String × Value)}
    {children : List Content} {document : Document}
    (h : .element name attributes children ∈ canonicalAll document) :
    ∃ tag ∈ Node.tagsAll document, tag.name = name := by
  induction document with
  | nil => simp [canonicalAll] at h
  | cons node rest ih =>
    rw [canonicalAll, List.mem_append] at h
    rcases h with h | h
    · cases node with
      | element span tag nodes =>
        simp only [canonical, List.mem_singleton, Content.element.injEq] at h
        exact ⟨tag, by simp [Node.tagsAll, Node.tags], h.1.symm⟩
      | text | cdata | comment | doctype | instruction => simp [canonical] at h
    · obtain ⟨tag, ht, hn⟩ := ih h
      exact ⟨tag, by simp [Node.tagsAll, ht], hn⟩

/-- No content of a legible document is a fragment. -/
theorem unwrap_canonicalAll {document : Document} (h : ∀ tag ∈ Node.tagsAll document, Legible tag) :
    unwrap (canonicalAll document) = canonicalAll document := by
  unfold unwrap
  split
  · rename_i name attributes children hc
    obtain ⟨tag, ht, hn⟩ := exists_tag_of_mem_canonicalAll (hc ▸ List.mem_singleton_self _)
    have hne := (isWritable_iff.1 (h tag ht).name).1
    rw [if_neg (hn ▸ hne), hc]
  · rfl

theorem decode_eq (text : String) : decode text = (contents? text).map unwrap := by
  rw [decode, contents?]
  cases readPieces? text.toList with
  | none => rfl
  | some ps => cases h : assemble [] [] ps <;> simp [h]

/-- A text that is read as pieces says what comes of nesting them. -/
theorem contents?_of_pieces {text : String} {ps : List Piece}
    (hp : readPieces? text.toList = some ps) : contents? text = assemble [] [] ps := by
  rw [contents?, hp]
  rfl

theorem readPieces?_nil : readPieces? [] = some [] := by
  rw [readPieces?, if_pos rfl]

/-- A document that needs no fragment is read as its pieces. -/
theorem readPieces?_document {document : Document}
    (h : ∀ tag ∈ Node.tagsAll document, Legible tag) :
    readPieces? (writtenAll document).toList = some (piecesAll document) := by
  have hp := readPieces?_writtenAll [] document h
  rwa [List.append_nil, readPieces?_nil, Option.map_some, List.append_nil] at hp

theorem readPiece?_fragment (rest : List Char) :
    readPiece? (['<', '>'] ++ rest) = some (.opening "" [], rest) := by
  have hn := @readName_append "" '>' (by simp) (by decide) rest
  have ha : readAttributes? ('>' :: rest) = some ([], '>' :: rest) := by
    rw [readAttributes?]
    rfl
  simp only [String.toList_empty, List.nil_append] at hn
  rw [List.cons_append, List.singleton_append, readPiece?, readTag?, hn]
  · simp only [ha]
    rfl
  · simp

/-- A fragment is read as a tag without a name around the pieces of the document. -/
theorem readPieces?_fragment {document : Document}
    (h : ∀ tag ∈ Node.tagsAll document, Legible tag) :
    readPieces? ("<>" ++ writtenAll document ++ "</>").toList =
      some (.opening "" [] :: piecesAll document ++ [.closing ""]) := by
  have ht : ("<>" ++ writtenAll document ++ "</>").toList =
      ['<', '>'] ++ ((writtenAll document).toList ++ (['<', '/', '>'] ++ [])) := by
    simp
  have hclose : readPiece? (['<', '/', '>'] ++ []) = some (.closing "", []) := rfl
  rw [ht, readPieces?_cons (readPiece?_fragment _) (by simp), readPieces?_writtenAll _ _ h,
    readPieces?_cons hclose (by simp), readPieces?_nil]
  rfl

/-- The contents of a legible document that is written are what it has to say, in a fragment
unless it is written as one part. -/
theorem contents?_wrap {document : Document} (h : ∀ tag ∈ Node.tagsAll document, Legible tag) :
    contents? (wrap (writtenParts none document)) =
      some (if (writtenParts none document).length = 1 then canonicalAll document
        else [.element "" [] (canonicalAll document)]) := by
  unfold wrap
  split
  · rename_i text hs
    have ht := join_writtenParts document
    rw [hs, String.join_cons, String.join_nil, String.append_empty] at ht
    have ha := assemble_piecesAll [] [] [] document
    rw [List.append_nil, List.append_nil, assemble, List.isEmpty_nil, if_pos rfl,
      List.reverse_reverse] at ha
    rw [ht, contents?_of_pieces (readPieces?_document h), ha, hs]
    rfl
  · rename_i hs
    have ha : assemble [] [] (.opening "" [] :: piecesAll document ++ [.closing ""]) =
        some [.element "" [] (canonicalAll document)] := by
      rw [List.cons_append, assemble, assemble_piecesAll]
      simp [assemble]
    have hn : (writtenParts none document).length ≠ 1 := fun hl =>
      hs _ (List.length_eq_one_iff.1 hl).choose_spec
    rw [join_writtenParts, contents?_of_pieces (readPieces?_fragment h), ha, if_neg hn]

/-- A legible document that is written is read back as what it has to say. -/
theorem decode_wrap {document : Document} (h : ∀ tag ∈ Node.tagsAll document, Legible tag) :
    decode (wrap (writtenParts none document)) = some (canonicalAll document) := by
  rw [decode_eq, contents?_wrap h, Option.map_some]
  split_ifs
  · rw [unwrap_canonicalAll h]
  · rfl

theorem decode_text_of_render {document : Document} {rendered : Rendered}
    (hn : ∀ tag ∈ Node.tagsAll document, isWritable tag.name = true)
    (h : render document none = .ok rendered) :
    decode rendered.text = some (canonicalAll document) := by
  obtain ⟨hf, ht⟩ := of_render_eq_ok h
  rw [ht]
  exact decode_wrap fun tag hm => legible_of_tagFault? (hn tag hm) (hf tag hm)

/-- A rendered text says what its document says, so documents with different things to say are
never rendered as the same text. -/
theorem decode_render {document : Document} {rendered : Rendered}
    (hn : ∀ tag ∈ Node.tagsAll document, isWritable tag.name = true)
    (h : render document none = .ok rendered) :
    decode rendered.text = some (canonicalAll document) ∧
      ∀ (other : Document) (rendered' : Rendered),
        (∀ tag ∈ Node.tagsAll other, isWritable tag.name = true) →
        render other none = .ok rendered' → canonicalAll other ≠ canonicalAll document →
        rendered'.text ≠ rendered.text := by
  have hd := decode_text_of_render hn h
  refine ⟨hd, fun other rendered' hn' h' hne ht => hne ?_⟩
  have hd' := decode_text_of_render hn' h'
  rw [ht, hd] at hd'
  exact (Option.some.inj hd').symm

/-- A document whose values hold what ends a comment, a string and an expression. -/
def awkwardDocument : Document :=
  [.comment {} "a*/b", .doctype {} "svg",
    .element {} ⟨"g", .ofPairs [("x", "\"\\"), ("y", "&"), ("style", "fill:red")]⟩
      [.text {} "\x7b/* ", .element {} ⟨"a", .empty⟩ [.instruction {} "p" "q"]]]

theorem decode_render_awkward :
    ∃ rendered, render awkwardDocument none = .ok rendered ∧
      decode rendered.text = some (canonicalAll awkwardDocument) := by
  have h : render awkwardDocument none =
      .ok ⟨"<>\x7b/* a* /b */\x7d<g x=\x7b\"\\\"\\\\\"\x7d y=\"&\" " ++
        "style=\x7b\x7b\"fill\":\"red\"\x7d\x7d>\x7b\"\x7b/* \"\x7d<a></a></g></>", []⟩ := by
    with_unfolding_all rfl
  exact ⟨_, h, (decode_render (by decide) h).1⟩

end SvgComponent.Jsx
