import SvgComponent.Proofs.Markup.Reference
import SvgComponent.Proofs.Markup.Tag
import SvgComponent.Proofs.Markup.Whole
import SvgComponent.Proofs.Text.Runs

/-!
# Writing a document

`Writes` says how nodes are written as a text, in the usual way : names as they are, values
escaped and in double quotes, an element without children with or without a closing tag.
`WritableAll` are the conditions on names and contents under which the text says nothing else.

What follows is about one token at a time : a written tag has the name and the attributes that it
was written for (`tagName_tagText`, `attributesOf_tagText`, `soundTag_tagText`), and each kind
of token is read back whole.
-/

namespace SvgComponent.Markup

open Text

/-! ## Names -/

def isNameStart (c : Char) : Bool :=
  c.isAlpha || c = '_'

def isNamePart (c : Char) : Bool :=
  c.isAlphanum || c = '-' || c = '_' || c = '.' || c = ':'

/-- A name of ASCII letters, digits and four signs, with a letter or `_` in front. -/
def IsName (name : String) : Prop :=
  name.toList.head?.any isNameStart = true ∧ name.toList.all isNamePart = true

instance (name : String) : Decidable (IsName name) :=
  inferInstanceAs (Decidable (_ ∧ _))

theorem ne_of_isNamePart {c d : Char} (hc : isNamePart c = true) (hd : isNamePart d = false) :
    c ≠ d := by
  rintro rfl
  rw [hc] at hd
  cases hd

theorem not_mem_of_isNamePart {cs : List Char} {d : Char}
    (h : ∀ c ∈ cs, isNamePart c = true) (hd : isNamePart d = false) : d ∉ cs :=
  fun hm => ne_of_isNamePart (h d hm) hd rfl

theorem isGap_of_isNamePart {c : Char} (h : isNamePart c = true) : isGap c = false := by
  have hne : ∀ d, isNamePart d = false → c ≠ d := fun d hd => ne_of_isNamePart h hd
  simp [isGap, hne ' ' (by decide), hne '\t' (by decide), hne '\r' (by decide),
    hne '\n' (by decide)]

theorem IsName.ne_nil {name : String} (h : IsName name) : name.toList ≠ [] := by
  intro he
  have hstart := h.1
  rw [he] at hstart
  cases hstart

theorem IsName.isNamePart {name : String} (h : IsName name) :
    ∀ c ∈ name.toList, isNamePart c = true :=
  List.all_eq_true.1 h.2

section Fronts

variable {name : String} {rest : List Char} (h : IsName name)
variable (hr : ∀ c ∈ rest.head?, isGap c = true)

include h hr

/-- A name is cut off where a gap starts. -/
theorem IsName.nameOf_append : nameOf (name.toList ++ rest) = name.toList :=
  takeWhile_run (fun c hc => by simp [isGap_of_isNamePart (h.isNamePart c hc)])
    fun c hc => by simp [hr c hc]

theorem IsName.afterName_append : afterName (name.toList ++ rest) = rest :=
  dropWhile_run (fun c hc => by simp [isGap_of_isNamePart (h.isNamePart c hc)])
    fun c hc => by simp [hr c hc]

end Fronts

/-! ## Nodes and the text they are written as -/

/-- Attributes, each with a blank in front. -/
def attributesText : List (String × String) → List Char
  | [] => []
  | (key, value) :: rest =>
    ' ' :: (key.toList ++ '=' :: '"' :: (escaped value.toList ++ '"' :: attributesText rest))

/-- What stands in an opening or empty tag. -/
def tagText (tag : Tag) : List Char :=
  tag.name.toList ++ attributesText tag.attributes.entries

/-- The text that nodes are written as. -/
inductive Writes : List Node → List Char → Prop
  | nil : Writes [] []
  | element {span : Span} {tag : Tag} {children rest : List Node} {inner cs : List Char}
    (hc : Writes children inner) (hr : Writes rest cs) :
    Writes (.element span tag children :: rest)
      ('<' :: tagText tag ++ '>' :: inner ++ '<' :: '/' :: tag.name.toList ++ '>' :: cs)
  | short {span : Span} {tag : Tag} {rest : List Node} {cs : List Char} (hr : Writes rest cs) :
    Writes (.element span tag [] :: rest) ('<' :: tagText tag ++ '/' :: '>' :: cs)
  | text {span : Span} {value : String} {rest : List Node} {cs : List Char}
    (hr : Writes rest cs) : Writes (.text span value :: rest) (escaped value.toList ++ cs)
  | cdata {span : Span} {value : String} {rest : List Node} {cs : List Char}
    (hr : Writes rest cs) :
    Writes (.cdata span value :: rest) ("<![CDATA[".toList ++ value.toList ++ "]]>".toList ++ cs)
  | comment {span : Span} {value : String} {rest : List Node} {cs : List Char}
    (hr : Writes rest cs) :
    Writes (.comment span value :: rest) ("<!-- ".toList ++ value.toList ++ " -->".toList ++ cs)
  | instruction {span : Span} {name value : String} {rest : List Node} {cs : List Char}
    (hr : Writes rest cs) :
    Writes (.instruction span name value :: rest)
      ("<?".toList ++ name.toList ++ ' ' :: value.toList ++ "?>".toList ++ cs)

mutual

/-- A node that can be written inside open elements of these names : its names are names, and
its content does not hold the mark that ends it, nor blanks that would be trimmed. -/
def Writable (opened : List String) : Node → Prop
  | .element _ tag children =>
    IsName tag.name ∧ (∀ p ∈ tag.attributes.entries, IsName p.1) ∧
      WritableAll (tag.name :: opened) children
  | .text _ value =>
    value.toList ≠ [] ∧ (keepsBlanks opened = false → trim value.toList = value.toList)
  | .cdata _ value => ¬ Token.cdataEnd <:+: value.toList
  | .comment _ value => trim value.toList = value.toList ∧ ¬ Token.commentEnd <:+: value.toList
  | .doctype .. => False
  | .instruction _ name value =>
    (IsName name ∧ name ≠ "xml") ∧ trim value.toList = value.toList ∧
      ¬ Token.instructionEnd <:+: value.toList

/-- Nodes that can all be written inside open elements of these names. -/
def WritableAll (opened : List String) : List Node → Prop
  | [] => True
  | node :: rest => Writable opened node ∧ WritableAll opened rest

end

/-! ## Attributes -/

namespace RawAttribute

theorem readFrom_nil (before : List RawAttribute) (pos : Nat) :
    readFrom true before pos [] = ([], none) := by
  rw [readFrom]
  rfl

/-- Attributes are read one after the other. -/
theorem readFrom_of_readOne {before : List RawAttribute} {pos next : Nat}
    {cs r rest : List Char} {first : Char} {a : RawAttribute} (hs : skipGap cs = first :: r)
    (hr : readOne (previous? before) (pos + width (cs.takeWhile isGap)) first r =
      .ok (a, next, rest)) :
    readFrom true before pos cs =
      (a :: (readFrom true (before ++ [a]) next rest).1,
        (readFrom true (before ++ [a]) next rest).2) := by
  rw [readFrom]
  split
  · simp_all
  · rename_i first' r' hs'
    rw [hs, List.cons.injEq] at hs'
    obtain ⟨rfl, rfl⟩ := hs'
    have hread : readOne (fun key => if true = true then previous? before key else none)
        (pos + width (cs.takeWhile isGap)) first r = .ok (a, next, rest) := hr
    simp only
    split
    · rename_i hr'
      rw [hread] at hr'
      cases hr'
    · rename_i hr'
      rw [hread] at hr'
      cases hr'
      rfl

/-- An attribute is read as it was written, if its key is not taken. -/
theorem readOne_written {taken : List Char → Option Nat} {first : Char} {key value : List Char}
    (pos : Nat) (rest : List Char) (hk : ∀ c ∈ key, isNamePart c = true) (hv : '"' ∉ value)
    (ht : taken (first :: key) = none) :
    ∃ next, readOne taken pos first (key ++ '=' :: '"' :: (value ++ '"' :: rest)) =
      .ok (⟨pos, first :: key, value⟩, next, rest) := by
  have hkey : ∀ c ∈ key, (!(decide (c = '=') || isGap c)) = true := by
    intro c hc
    simp [ne_of_isNamePart (hk c hc) (show isNamePart '=' = false by decide),
      isGap_of_isNamePart (hk c hc)]
  have hvalue : ∀ c ∈ value, decide (c ≠ '"') = true := by
    intro c hc
    rw [decide_eq_true_eq]
    rintro rfl
    exact hv hc
  have hendKey : ∀ c ∈ ('=' :: '"' :: (value ++ '"' :: rest)).head?,
      (!(decide (c = '=') || isGap c)) = false := by simp
  have hendValue : ∀ c ∈ ('"' :: rest).head?, decide (c ≠ '"') = false := by simp
  have hequals : ∀ p, readEquals p ('=' :: '"' :: (value ++ '"' :: rest)) =
      .ok (p + 1, '"' :: (value ++ '"' :: rest)) := fun p => rfl
  have hread : ∀ p, readValue p ('"' :: (value ++ '"' :: rest)) =
      .ok (value, p + 2 + width value, rest) := by
    intro p
    have hskip : skipGap ('"' :: (value ++ '"' :: rest)) = '"' :: (value ++ '"' :: rest) := rfl
    rw [readValue, hskip]
    simp only [true_or, if_true, takeWhile_run hvalue hendValue, dropWhile_run hvalue hendValue]
    rfl
  refine ⟨pos + width (first :: key) + 1 + 2 + width value, ?_⟩
  simp only [readOne, takeWhile_run hkey hendKey, dropWhile_run hkey hendKey, hequals, hread, ht,
    bind, Except.bind, pure, Except.pure]

/-- Written attributes with new keys are read in order, without a fault. -/
theorem readFrom_written {ps : List (String × String)} {before : List RawAttribute} (pos : Nat)
    (hk : ∀ p ∈ ps, IsName p.1) (hd : (ps.map Prod.fst).Nodup)
    (hb : ∀ p ∈ ps, p.1.toList ∉ before.map RawAttribute.key) :
    (readFrom true before pos (attributesText ps)).2 = none ∧
      (readFrom true before pos (attributesText ps)).1.map (fun a => (a.key, a.value)) =
        ps.map fun p => (p.1.toList, escaped p.2.toList) := by
  induction ps generalizing before pos with
  | nil =>
    rw [attributesText, readFrom_nil]
    exact ⟨rfl, rfl⟩
  | cons p ps ih =>
    obtain ⟨name, value⟩ := p
    rw [List.map_cons, List.nodup_cons] at hd
    have hname : IsName name := hk (name, value) List.mem_cons_self
    have hnew : name.toList ∉ before.map RawAttribute.key := hb (name, value) List.mem_cons_self
    obtain ⟨first, key, he⟩ := List.exists_cons_of_ne_nil hname.ne_nil
    have hparts : ∀ c ∈ first :: key, isNamePart c = true := he ▸ hname.isNamePart
    have hskip : skipGap (attributesText ((name, value) :: ps)) =
        first :: (key ++ '=' :: '"' :: (escaped value.toList ++ '"' :: attributesText ps)) := by
      have hfirst : ¬ isGap first = true := by
        simp [isGap_of_isNamePart (hparts first List.mem_cons_self)]
      rw [attributesText, he, skipGap, List.dropWhile_cons_of_pos (by decide), List.cons_append,
        List.dropWhile_cons_of_neg hfirst]
    obtain ⟨next, hr⟩ := readOne_written
      (pos + width ((attributesText ((name, value) :: ps)).takeWhile isGap)) (attributesText ps)
      (fun c hc => hparts c (List.mem_cons_of_mem first hc))
      (not_mem_escaped (.inr (.inr rfl)) value.toList)
      (previous?_eq_none_iff.2 (he ▸ hnew))
    have hnext : ∀ start : Nat, ∀ q ∈ ps, q.1.toList ∉
        (before ++ [RawAttribute.mk start (first :: key) (escaped value.toList)]).map
          RawAttribute.key := by
      intro start q hq hm
      rw [List.map_append, List.mem_append] at hm
      rcases hm with hm | hm
      · exact hb q (List.mem_cons_of_mem _ hq) hm
      · rw [List.map_singleton, List.mem_singleton, ← he] at hm
        have hkey : q.1 = name := String.toList_inj.1 hm
        have hmem : q.1 ∈ ps.map Prod.fst := List.mem_map_of_mem hq
        exact hd.1 (hkey ▸ hmem)
    have hrest := fun start =>
      ih next (fun q hq => hk q (List.mem_cons_of_mem _ hq)) hd.2 (hnext start)
    rw [readFrom_of_readOne hskip hr]
    refine ⟨(hrest _).1, ?_⟩
    rw [List.map_cons, List.map_cons, (hrest _).2, he]

end RawAttribute

/-! ## Tags -/

section Tags

variable {tag : Tag}

/-- The attributes start with a gap, if there are any. -/
theorem head?_attributesText (ps : List (String × String)) :
    ∀ c ∈ (attributesText ps).head?, isGap c = true := by
  cases ps with
  | nil => simp [attributesText]
  | cons p ps => simp [attributesText, isGap]

theorem tagName_tagText (h : IsName tag.name) : Token.tagName (tagText tag) = tag.name := by
  rw [Token.tagName, tagText, h.nameOf_append (head?_attributesText _), String.ofList_toList]

/-- A written tag is read without a fault, and each attribute as its name and its escaped value. -/
theorem rawAttributes_tagText (h : IsName tag.name)
    (ha : ∀ p ∈ tag.attributes.entries, IsName p.1) :
    (rawAttributes (tagText tag)).2 = none ∧
      (rawAttributes (tagText tag)).1.map (fun a => (a.key, a.value)) =
        tag.attributes.entries.map fun p => (p.1.toList, escaped p.2.toList) := by
  rw [rawAttributes, tagText, h.afterName_append (head?_attributesText _)]
  exact RawAttribute.readFrom_written _ ha tag.attributes.nodup (by simp)

/-- A written tag has its attributes. -/
theorem attributesOf_tagText (h : IsName tag.name)
    (ha : ∀ p ∈ tag.attributes.entries, IsName p.1) :
    attributesOf (tagText tag) = tag.attributes.entries := by
  have hraw := congrArg (List.map fun q => (String.ofList q.1, String.ofList (expanded q.2)))
    (rawAttributes_tagText h ha).2
  rw [List.map_map, List.map_map] at hraw
  have hid : ((fun q => (String.ofList q.1, String.ofList (expanded q.2))) ∘
      fun p : String × String => (p.1.toList, escaped p.2.toList)) = id := by
    funext p
    simp [expanded_of_expand (expand_escaped _)]
  rw [hid, List.map_id] at hraw
  exact hraw

/-- There is nothing wrong with a written tag. -/
theorem soundTag_tagText (h : IsName tag.name)
    (ha : ∀ p ∈ tag.attributes.entries, IsName p.1) : Token.SoundTag (tagText tag) := by
  obtain ⟨hf, hm⟩ := rawAttributes_tagText h ha
  refine ⟨hf, fun a hmem => ?_⟩
  have hpair : (a.key, a.value) ∈ (rawAttributes (tagText tag)).1.map fun a => (a.key, a.value) :=
    List.mem_map_of_mem hmem
  rw [hm] at hpair
  obtain ⟨p, -, hp⟩ := List.mem_map.1 hpair
  exact ⟨p.2.toList, (Prod.mk.inj hp).2 ▸ expand_escaped _⟩

end Tags

/-! ## Tokens of written nodes -/

namespace Token

theorem passes_name {name : String} (h : IsName name) : Passes none name.toList none :=
  passes_plain fun c hc => ⟨ne_of_isNamePart (h.isNamePart c hc) (by decide),
    ne_of_isNamePart (h.isNamePart c hc) (by decide),
    ne_of_isNamePart (h.isNamePart c hc) (by decide)⟩

/-- Attributes close the quotes they open. -/
theorem passes_attributesText {ps : List (String × String)} (hk : ∀ p ∈ ps, IsName p.1) :
    Passes none (attributesText ps) none := by
  induction ps with
  | nil => exact .nil none
  | cons p ps ih =>
    obtain ⟨key, value⟩ := p
    have hkey : Passes none key.toList none := passes_name (hk (key, value) List.mem_cons_self)
    have hvalue : Passes (some '"') (escaped value.toList) (some '"') :=
      passes_quoted (not_mem_escaped (.inr (.inr rfl)) value.toList)
    have hrest := ih fun q hq => hk q (List.mem_cons_of_mem _ hq)
    rw [attributesText]
    refine .cons (by simp) (hkey.append ?_)
    refine .cons (by simp) (.cons (by simp) (hvalue.append ?_))
    exact .cons (by simp) hrest

section Tags

variable {tag : Tag} (h : IsName tag.name) (ha : ∀ p ∈ tag.attributes.entries, IsName p.1)

include h

include ha in
theorem passes_tagText : Passes none (tagText tag) none :=
  (passes_name h).append (passes_attributesText ha)

/-- What stands in a tag starts with no mark of another token. -/
theorem head?_tagText : ∀ c ∈ (tagText tag).head?, c ≠ '!' ∧ c ≠ '?' ∧ c ≠ '/' := by
  intro c hc
  rw [tagText, List.head?_append_of_ne_nil _ h.ne_nil] at hc
  have hpart := h.isNamePart c (List.mem_of_head? hc)
  exact ⟨ne_of_isNamePart hpart (by decide), ne_of_isNamePart hpart (by decide),
    ne_of_isNamePart hpart (by decide)⟩

omit h in
theorem getLast?_attributesText {ps : List (String × String)} (hne : ps ≠ []) :
    (attributesText ps).getLast? = some '"' := by
  induction ps with
  | nil => exact absurd rfl hne
  | cons p ps ih =>
    cases ps with
    | nil => simp [attributesText, List.getLast?_cons, List.getLast?_append]
    | cons q ps =>
      have hrest := ih (by simp)
      rw [attributesText]
      simp [List.getLast?_cons, List.getLast?_append, hrest]

/-- What stands in a tag does not end like an empty tag. -/
theorem getLast?_tagText : (tagText tag).getLast? ≠ some '/' := by
  rw [tagText]
  by_cases hp : tag.attributes.entries = []
  · rw [hp, attributesText, List.append_nil]
    intro hl
    exact ne_of_isNamePart (h.isNamePart '/' (List.mem_of_getLast? hl))
      (show isNamePart '/' = false by decide) rfl
  · rw [List.getLast?_append, getLast?_attributesText hp]
    simp

include ha in
theorem whole_opening_tagText : (opening (tagText tag)).Whole :=
  whole_opening (passes_tagText h ha) (head?_tagText h) (getLast?_tagText h)

include ha in
theorem whole_empty_tagText : (empty (tagText tag)).Whole :=
  whole_empty (passes_tagText h ha) (List.append_ne_nil_of_left_ne_nil h.ne_nil _)
    (head?_tagText h)

end Tags

theorem whole_closing_name {name : String} (h : IsName name) : (closing name.toList).Whole :=
  whole_closing (passes_name h)

/-- A closing tag has its name. -/
theorem endName_name {name : String} (h : IsName name) : endName name.toList = name := by
  obtain ⟨c, cs, hc⟩ := List.exists_cons_of_ne_nil (List.reverse_ne_nil_iff.2 h.ne_nil)
  have hmem : c ∈ name.toList := by
    rw [← List.mem_reverse, hc]
    exact List.mem_cons_self
  have hgap : isGap c = false := isGap_of_isNamePart (h.isNamePart c hmem)
  have hall : ¬ name.toList.all isGap = true := by
    rw [List.all_eq_true]
    intro hg
    rw [hg c hmem] at hgap
    cases hgap
  rw [endName, closingName, if_neg hall, hc, List.dropWhile_cons_of_neg (by simp [hgap]), ← hc,
    List.reverse_reverse, String.ofList_toList]

/-- The blanks around the content of a comment do not end it. -/
theorem whole_comment_spaced {value : List Char} (h : ¬ commentEnd <:+: value) :
    (comment (' ' :: (value ++ [' ']))).Whole := by
  refine whole_comment (@not_infix_append '-' ['-', '>'] [' '] _ (by decide) ?_)
  exact @not_infix_concat '>' ' ' ['-', '-'] _ (by decide) h

/-- The name of an instruction does not end it. -/
theorem whole_instruction_named {name : String} {value : List Char} (hn : IsName name)
    (h : ¬ instructionEnd <:+: value) : (instruction (name.toList ++ ' ' :: value)).Whole := by
  have hname : '?' ∉ name.toList ++ [' '] := by
    rw [List.mem_append, not_or]
    exact ⟨not_mem_of_isNamePart hn.isNamePart (by decide), by decide⟩
  refine whole_instruction ?_ ?_
  · have hfree := @not_infix_append '?' ['>'] _ value hname h
    rwa [List.append_assoc, List.singleton_append] at hfree
  · rw [List.head?_append_of_ne_nil _ hn.ne_nil]
    intro hh
    exact ne_of_isNamePart (hn.isNamePart '>' (List.mem_of_head? hh))
      (show isNamePart '>' = false by decide) rfl

theorem nameOf_of_isDeclaration {content : List Char} (h : isDeclaration content = true) :
    nameOf content = ['x', 'm', 'l'] := by
  unfold isDeclaration at h
  split at h
  · rename_i hs
    rw [eq_append_of_stripMark? hs]
    rfl
  · rename_i c r hs
    rw [nameOf, eq_append_of_stripMark? hs]
    exact takeWhile_run (by simp [isGap]) (by simp [h])
  · cases h

/-- An instruction with a name of its own is no declaration, and has the name and value it was
written for. -/
theorem instructionEvent_named {name : String} (value : List Char) (hn : IsName name)
    (hx : name ≠ "xml") : instructionEvent (name.toList ++ ' ' :: value) =
      .instruction name (String.ofList (trim value)) := by
  have hgap : ∀ c ∈ (' ' :: value).head?, isGap c = true := by simp [isGap]
  have hname := hn.nameOf_append hgap
  have hdeclaration : ¬ isDeclaration (name.toList ++ ' ' :: value) = true := fun hd =>
    hx (String.toList_inj.1 (hname.symm.trans (nameOf_of_isDeclaration hd)))
  rw [instructionEvent, if_neg hdeclaration, tagName, hname, hn.afterName_append hgap,
    trim_cons_of_isBlank (by decide), String.ofList_toList]

end Token

end SvgComponent.Markup
