import SvgComponent.Proofs.Jsx.Decoding
import SvgComponent.Proofs.Jsx.Faults
import SvgComponent.Text.Identifier

/-!
# Names of attributes in JSX

A name of an attribute is an identifier in which hyphens may stand, or two of them with a colon
between them (`IsAttributeName`). No such name is refused (`isWritable_of_isAttributeName`), but
others are not refused, either : what is looked for are blanks and delimiters, and a name without
them can start with a digit, hold a mark that no identifier has, or have its colons in wrong places
(`isAttributeName_iff`).

`attributeNames?` reads the names of all attributes off a text. For a document that can be told from
its text they are its own (`attributeNames?_wrap`).
-/

namespace SvgComponent.Jsx

open Text Node

/-! ## The grammar of names -/

/-- An identifier, in which hyphens may stand. -/
def IsIdentifier (cs : List Char) : Prop :=
  ∃ c rest, cs = c :: rest ∧ isIdentifierStart c = true ∧
    ∀ d ∈ rest, isIdentifierPart d = true ∨ d = '-'

/-- A name that an attribute can have in JSX. -/
def IsAttributeName (name : String) : Prop :=
  IsIdentifier name.toList ∨
    ∃ space rest, name.toList = space ++ ':' :: rest ∧ IsIdentifier space ∧ IsIdentifier rest

/-- What else can be wrong with a name. -/
inductive IsMalformed (name : String) : Prop
  | start {c : Char} {rest : List Char} (h : name.toList = c :: rest)
      (hc : isIdentifierStart c = false)
  | part {c d : Char} {rest : List Char} (h : name.toList = c :: rest) (hd : d ∈ rest)
      (hp : isIdentifierPart d = false) (hh : d ≠ '-') (hcolon : d ≠ ':')
  | colons {space middle rest : List Char}
      (h : name.toList = space ++ ':' :: (middle ++ ':' :: rest))
  | behindColon {space rest : List Char} (h : name.toList = space ++ ':' :: rest)
      (hc : ∀ c ∈ rest.head?, isIdentifierStart c = false)

/-- Blanks and delimiters have no place in identifiers. -/
theorem isNameChar_of_isIdentifierPart {c : Char} (h : isIdentifierPart c = true) :
    isNameChar c = true := by
  have hblank : ∀ n ∈ [9, 10, 11, 12, 13, 0x20, 0x85, 0xA0, 0x1680, 0x2000, 0x2001, 0x2002, 0x2003,
      0x2004, 0x2005, 0x2006, 0x2007, 0x2008, 0x2009, 0x200A, 0x2028, 0x2029, 0x202F, 0x205F,
      0x3000], isIdentifierPart (Char.ofNat n) = false := by decide +kernel
  have hdelimiter : ['"', '\'', '=', '<', '>', '/', '{', '}'].any isIdentifierPart = false := by
    decide +kernel
  rw [isNameChar, Bool.and_eq_true, Bool.not_eq_true', Bool.not_eq_true', ← Bool.not_eq_true,
    ← Bool.not_eq_true]
  constructor
  · intro hb
    have hpart := hblank c.toNat (by
      simp only [isBlank, Bool.or_eq_true, Bool.and_eq_true, decide_eq_true_eq] at hb
      simp only [List.mem_cons, List.not_mem_nil, or_false]
      omega)
    rw [Char.ofNat_toNat, h] at hpart
    cases hpart
  · intro hd
    exact List.any_eq_false.1 hdelimiter c (isDelimiter_iff.1 hd) h

theorem IsIdentifier.of_all {cs : List Char} (hs : cs.head?.any isIdentifierStart = true)
    (hp : cs.all isIdentifierPart = true) : IsIdentifier cs := by
  cases cs with
  | nil => cases hs
  | cons c rest =>
    rw [List.all_cons, Bool.and_eq_true] at hp
    exact ⟨c, rest, rfl, hs, fun d hd => .inl (List.all_eq_true.1 hp.2 d hd)⟩

/-- An identifier may go on with hyphens and what is part of one. -/
theorem IsIdentifier.append {cs ds : List Char} (h : IsIdentifier cs)
    (hd : ∀ d ∈ ds, isIdentifierPart d = true ∨ d = '-') : IsIdentifier (cs ++ ds) := by
  obtain ⟨c, rest, rfl, hc, hrest⟩ := h
  refine ⟨c, rest ++ ds, rfl, hc, fun d hm => ?_⟩
  exact (List.mem_append.1 hm).elim (hrest d) (hd d)

/-- An identifier is of characters that end no name. -/
theorem IsIdentifier.isNameChar {cs : List Char} (h : IsIdentifier cs) :
    ∀ c ∈ cs, isNameChar c = true := by
  obtain ⟨c, rest, rfl, hc, hrest⟩ := h
  rw [List.forall_mem_cons]
  refine ⟨isNameChar_of_isIdentifierPart (isIdentifierPart_of_start hc), fun d hd => ?_⟩
  obtain hp | rfl := hrest d hd
  · exact isNameChar_of_isIdentifierPart hp
  · decide

theorem IsIdentifier.ne_nil {cs : List Char} (h : IsIdentifier cs) : cs ≠ [] := by
  obtain ⟨c, rest, rfl, -⟩ := h
  exact List.cons_ne_nil c rest

/-- No identifier has a colon. -/
theorem IsIdentifier.colon_not_mem {cs : List Char} (h : IsIdentifier cs) : ':' ∉ cs := by
  obtain ⟨c, rest, rfl, hc, hrest⟩ := h
  rw [List.mem_cons, not_or]
  constructor
  · rintro rfl
    revert hc
    decide
  · intro hm
    obtain hp | he := hrest ':' hm
    · revert hp
      decide +kernel
    · revert he
      decide

/-- No name that JSX has for attributes is refused. -/
theorem isWritable_of_isAttributeName {name : String} (h : IsAttributeName name) :
    isWritable name = true := by
  rw [isWritable_iff, ne_eq, ← String.toList_eq_nil_iff]
  obtain hi | ⟨space, rest, he, hs, hr⟩ := h
  · exact ⟨hi.ne_nil, hi.isNameChar⟩
  · rw [he]
    refine ⟨by simp, fun c hc => ?_⟩
    obtain hc | rfl | hc : c ∈ space ∨ c = ':' ∨ c ∈ rest := by simpa using hc
    · exact hs.isNameChar c hc
    · decide
    · exact hr.isNameChar c hc

/-- An identifier is a name. -/
theorem not_isMalformed_of_isIdentifier {name : String} (h : IsIdentifier name.toList) :
    ¬ IsMalformed name := by
  have hcolon := h.colon_not_mem
  obtain ⟨c, rest, he, hc, hrest⟩ := h
  intro hm
  cases hm with
  | start hs hn =>
    cases he.symm.trans hs
    exact absurd (hc.symm.trans hn) nofun
  | part hs hd hp hh hne =>
    cases he.symm.trans hs
    obtain hpart | heq := hrest _ hd
    · exact absurd (hpart.symm.trans hp) nofun
    · exact hh heq
  | colons hs => exact hcolon (by simp [hs])
  | behindColon hs hn => exact hcolon (by simp [hs])

/-- Two identifiers with a colon between them are a name. -/
theorem not_isMalformed_of_colon {name : String} {space rest : List Char}
    (he : name.toList = space ++ ':' :: rest) (hs : IsIdentifier space) (hr : IsIdentifier rest) :
    ¬ IsMalformed name := by
  -- there is one colon only, so wherever the name is cut at one it is cut here
  have hcut {space' rest' : List Char} (h : name.toList = space' ++ ':' :: rest') : rest = rest' :=
    ((List.append_cons_inj_of_notMem hs.colon_not_mem hr.colon_not_mem).1 (he.symm.trans h)).2.2
  obtain ⟨c, inner, rfl, hc, hinner⟩ := hs
  obtain ⟨d, outer, rfl, hd, houter⟩ := hr
  have hpart : ∀ e ∈ inner ++ ':' :: d :: outer, e ≠ ':' → isIdentifierPart e = true ∨ e = '-' := by
    intro e he hne
    obtain hi | rfl | rfl | ho : e ∈ inner ∨ e = ':' ∨ e = d ∨ e ∈ outer := by simpa using he
    · exact hinner e hi
    · exact absurd rfl hne
    · exact .inl (isIdentifierPart_of_start hd)
    · exact houter e ho
  intro hm
  cases hm with
  | start h hn =>
    cases he.symm.trans h
    exact absurd (hc.symm.trans hn) nofun
  | part h hm hp hh hne =>
    cases he.symm.trans h
    obtain hpart' | heq := hpart _ hm hne
    · exact absurd (hpart'.symm.trans hp) nofun
    · exact hh heq
  | @colons _ middle rest h =>
    have hcolon : ':' ∈ d :: outer := by
      rw [hcut h]
      simp
    exact IsIdentifier.colon_not_mem ⟨d, outer, rfl, hd, houter⟩ hcolon
  | behindColon h hn =>
    rw [← hcut h] at hn
    exact absurd (hd.symm.trans (hn d rfl)) nofun

/-- A name without a blank or a delimiter is one that JSX has unless it is malformed. -/
theorem isAttributeName_iff {name : String} (hw : isWritable name = true) :
    IsAttributeName name ↔ ¬ IsMalformed name := by
  constructor
  · rintro (h | ⟨space, rest, he, hs, hr⟩)
    · exact not_isMalformed_of_isIdentifier h
    · exact not_isMalformed_of_colon he hs hr
  · intro hm
    obtain ⟨c, cs, hcs⟩ := List.exists_cons_of_ne_nil
      (show name.toList ≠ [] by simpa using (isWritable_iff.1 hw).1)
    have hstart : isIdentifierStart c = true :=
      Bool.not_eq_false _ ▸ fun hn => hm (.start hcs hn)
    have hpart : ∀ d ∈ cs, d ≠ ':' → isIdentifierPart d = true ∨ d = '-' := by
      intro d hd hne
      by_contra hn
      rw [not_or, Bool.not_eq_true] at hn
      exact hm (.part hcs hd hn.1 hn.2 hne)
    by_cases hcolon : ':' ∈ name.toList
    · obtain ⟨space, rest, he, hspace⟩ := List.eq_append_cons_of_mem hcolon
      obtain ⟨inner, rfl, rfl⟩ : ∃ inner, space = c :: inner ∧ cs = inner ++ ':' :: rest := by
        cases space with
        | nil =>
          cases hcs.symm.trans he
          exact absurd hstart (by decide)
        | cons b inner =>
          cases hcs.symm.trans he
          exact ⟨inner, rfl, rfl⟩
      have hrest : ':' ∉ rest := by
        intro hmem
        obtain ⟨middle, more, rfl⟩ := List.append_of_mem hmem
        exact hm (.colons he)
      refine .inr ⟨c :: inner, rest, he, ⟨c, inner, rfl, hstart, fun d hd => ?_⟩, ?_⟩
      · exact hpart d (by simp [hd]) fun h => hspace (List.mem_cons_of_mem c (h ▸ hd))
      · cases rest with
        | nil => exact absurd (.behindColon he fun d hd => by cases hd) hm
        | cons b more =>
          refine ⟨b, more, rfl, Bool.not_eq_false _ ▸ fun hn => hm (.behindColon he ?_), ?_⟩
          · rintro d ⟨⟩
            exact hn
          · intro d hd
            exact hpart d (by simp [hd]) fun h => hrest (List.mem_cons_of_mem b (h ▸ hd))
    · rw [hcs, List.mem_cons, not_or] at hcolon
      exact .inl ⟨c, cs, hcs, hstart, fun d hd => hpart d hd fun he => hcolon.2 (he ▸ hd)⟩

/-! ## The names of a document -/

/-- The names of the attributes of a document, in document order. -/
def attributeNames (document : Document) : List String :=
  (tagsAll document).flatMap fun tag => tag.attributes.keys

/-- The names of the attributes of a piece. -/
def Piece.attributeNames : Piece → List String
  | .opening _ attributes => attributes.map Prod.fst
  | .empty _ attributes => attributes.map Prod.fst
  | _ => []

/-- The names of all attributes in a text, in order. -/
def attributeNames? (text : String) : Option (List String) :=
  (readPieces? text.toList).map fun ps => ps.flatMap Piece.attributeNames

theorem keys_valuesOf (attributes : Attributes) :
    (valuesOf attributes).map Prod.fst = attributes.keys := by
  rw [valuesOf, List.map_map]
  rfl

mutual

/-- The pieces of a node have the names of its attributes. -/
theorem attributeNames_pieces : (node : Node) → (pieces node).flatMap Piece.attributeNames =
    node.tags.flatMap fun tag => tag.attributes.keys
  | .element _ tag [] => by
    simp [pieces, tags, tagsAll, Piece.attributeNames, keys_valuesOf]
  | .element _ tag (child :: nodes) => by
    have hchild := attributeNames_pieces child
    have hnodes := attributeNames_piecesAll nodes
    simp [pieces, tags, tagsAll, Piece.attributeNames, keys_valuesOf, hchild, hnodes]
  | .text .. | .cdata .. | .comment .. | .doctype .. | .instruction .. => rfl

/-- The pieces of nodes side by side have the names of their attributes. -/
theorem attributeNames_piecesAll : (nodes : List Node) →
    (piecesAll nodes).flatMap Piece.attributeNames =
      (tagsAll nodes).flatMap fun tag => tag.attributes.keys
  | [] => rfl
  | node :: nodes => by
    rw [piecesAll, tagsAll, List.flatMap_append, List.flatMap_append, attributeNames_pieces node,
      attributeNames_piecesAll nodes]

end

/-- The names in the text of a legible document are its own. -/
theorem attributeNames?_wrap {document : Document} (h : ∀ tag ∈ tagsAll document, Legible tag) :
    attributeNames? (wrap (writtenParts none document)) = some (attributeNames document) := by
  have hnames := attributeNames_piecesAll document
  unfold wrap
  split
  · rename_i text hs
    have ht := join_writtenParts document
    rw [hs, String.join_cons, String.join_nil, String.append_empty] at ht
    rw [ht, attributeNames?, readPieces?_document h, Option.map_some, hnames]
    rfl
  · rw [join_writtenParts, attributeNames?, readPieces?_fragment h, Option.map_some,
      List.flatMap_append, List.flatMap_cons, hnames]
    simp [Piece.attributeNames, attributeNames]

end SvgComponent.Jsx
