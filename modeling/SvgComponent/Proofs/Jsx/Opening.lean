import SvgComponent.Proofs.Jsx.Overrides

/-!
# The tags that a JSX text opens

`opened` reads the names of the opening tags off a text. It knows of the language only where no tag
can open : in strings, in the quoted values of attributes, which have no escapes, and in comments.

A reader that passes over a text opens some tags and ends somewhere (`Passes`). What the writers of
`render` write is passed over from code to code; this composes (`Passes.append`), up to the whole
text, which opens the tags of the document in order (`opened_wrap`). Overrides are written as they
are, so that they have to be inert where they are not strings (`IsInert`); of other overrides it can
only be said what is opened outside of them (`exists_woven_opened`).
-/

namespace SvgComponent.Jsx

open Text

/-! ## Reading tags -/

/-- Where a reader of a text is; `before` is in front of a character that it passes over. -/
inductive Place where
  | code
  | string
  | quoted
  | comment
  | before (next : Place)
  deriving DecidableEq, Repr

/-- Where a reader is behind a character, the text behind that being known. -/
def Place.next : Place → Char → List Char → Place
  | code, c, rest =>
    if c = '"' then string
    else if c = '=' ∧ rest.head? = some '"' then before quoted
    else if c = '/' ∧ rest.head? = some '*' then before comment
    else code
  | string, c, _ => if c = '"' then code else if c = '\\' then before string else string
  | quoted, c, _ => if c = '"' then code else quoted
  | comment, c, rest => if c = '*' ∧ rest.head? = some '/' then before code else comment
  | before next, _, _ => next

/-- The name of the tag that a character opens, if it opens one. -/
def Place.opens? (place : Place) (c : Char) (rest : List Char) : Option String :=
  if place = code ∧ c = '<' ∧ (readName rest).1 ≠ "" then some (readName rest).1 else none

/-- The names of the tags that are opened from a place on. -/
def openedFrom : Place → List Char → List String
  | _, [] => []
  | place, c :: rest => (place.opens? c rest).toList ++ openedFrom (place.next c rest) rest

/-- The names of the tags that a text opens, in order. -/
def opened (text : String) : List String :=
  openedFrom .code text.toList

/-! ## Passing over a text -/

/-- From one place, a reader opens these tags in a text and is then at another place, whatever is
behind the text. -/
def Passes (start : Place) (cs : List Char) (names : List String) (stop : Place) : Prop :=
  ∀ rest, openedFrom start (cs ++ rest) = names ++ openedFrom stop rest

namespace Passes

variable {start middle stop : Place} {cs ds : List Char} {names more : List String} {c : Char}

theorem nil : Passes start [] [] start := fun _ => rfl

/-- Texts that are passed over one after the other open their tags in order. -/
theorem append (h : Passes start cs names middle) (h' : Passes middle ds more stop) :
    Passes start (cs ++ ds) (names ++ more) stop := fun rest => by
  rw [List.append_assoc, h, h', List.append_assoc]

/-- The next character opens nothing, whatever is behind it. -/
theorem cons (h : ∀ rest, start.opens? c (cs ++ rest) = none)
    (hn : ∀ rest, start.next c (cs ++ rest) = middle) (hs : Passes middle cs names stop) :
    Passes start (c :: cs) names stop := fun rest => by
  rw [List.cons_append, openedFrom, h, hn, hs]
  rfl

/-- Away from code no tag is opened. -/
theorem cons_of_ne_code (h : start ≠ .code) (hn : ∀ rest, start.next c (cs ++ rest) = middle)
    (hs : Passes middle cs names stop) : Passes start (c :: cs) names stop :=
  cons (fun _ => if_neg fun ho => h ho.1) hn hs

/-- A character is passed over as often as it leaves the reader in its place. -/
theorem of_forall (h : ∀ c ∈ cs, Passes start [c] [] start) : Passes start cs [] start := by
  induction cs with
  | nil => exact nil
  | cons c cs ih =>
    rw [List.forall_mem_cons] at h
    exact h.1.append (ih h.2)

end Passes

/-! ## Code -/

/-- Whether a character neither opens a tag nor starts a string or a comment. -/
def isInert (c : Char) : Bool :=
  c ≠ '"' && c ≠ '=' && c ≠ '/' && c ≠ '<'

/-- A character that starts nothing is passed over in code. -/
theorem passes_inert {c : Char} (h : isInert c = true) {cs : List Char} {names : List String}
    {stop : Place} (hs : Passes .code cs names stop) : Passes .code (c :: cs) names stop := by
  simp only [isInert, Bool.and_eq_true, decide_eq_true_eq] at h
  obtain ⟨⟨⟨hq, he⟩, hl⟩, ho⟩ := h
  refine .cons (fun _ => if_neg fun hc => ho hc.2.1) (fun _ => ?_) hs
  rw [Place.next, if_neg hq, if_neg fun hc => he hc.1, if_neg fun hc => hl hc.1]

/-- Characters that start nothing are passed over in code. -/
theorem passes_of_isInert {cs : List Char} (h : cs.all isInert = true) :
    Passes .code cs [] .code :=
  .of_forall fun c hc => passes_inert (List.all_eq_true.1 h c hc) .nil

theorem passes_brace : Passes .code ['}'] [] .code :=
  passes_inert (by decide) .nil

theorem passes_angle : Passes .code ['>'] [] .code :=
  passes_inert (by decide) .nil

theorem isInert_of_isNameChar {c : Char} (h : isNameChar c = true) : isInert c = true := by
  simp only [isNameChar, isDelimiter, Bool.and_eq_true, Bool.not_eq_true', Bool.or_eq_false_iff,
    decide_eq_false_iff_not] at h
  simp [isInert, h]

theorem passes_name {name : String} (h : isWritable name = true) :
    Passes .code name.toList [] .code :=
  passes_of_isInert (List.all_eq_true.2 fun c hc =>
    isInert_of_isNameChar ((isWritable_iff.1 h).2 c hc))

/-- A slash that starts no comment. -/
theorem passes_slash {c : Char} (hc : c ≠ '*') {cs : List Char} {names : List String} {stop : Place}
    (h : Passes .code (c :: cs) names stop) : Passes .code ('/' :: c :: cs) names stop := by
  refine .cons (fun _ => if_neg (by simp)) (fun rest => ?_) h
  simp [Place.next, hc]

/-! ## Strings -/

theorem hexDigit_ne (n : Nat) : Json.hexDigit n ≠ '"' ∧ Json.hexDigit n ≠ '\\' := by
  have h : ∀ d < 16, Nat.digitChar d ≠ '"' ∧ Nat.digitChar d ≠ '\\' := by decide
  exact h _ (Nat.mod_lt _ (by decide))

theorem passes_string_cons {c : Char} (hq : c ≠ '"') (hb : c ≠ '\\') {cs : List Char}
    (h : Passes .string cs [] .string) : Passes .string (c :: cs) [] .string :=
  .cons_of_ne_code (by decide) (fun _ => by rw [Place.next, if_neg hq, if_neg hb]) h

theorem passes_string_escape (c : Char) {cs : List Char} (h : Passes .string cs [] .string) :
    Passes .string ('\\' :: c :: cs) [] .string :=
  .cons_of_ne_code (by decide) (fun _ => rfl) (.cons_of_ne_code (by decide) (fun _ => rfl) h)

/-- No form of a character ends the string that it stands in. -/
theorem passes_escape (c : Char) : Passes .string (Json.escape c) [] .string := by
  unfold Json.escape
  split_ifs with hq hb
  on_goal 8 =>
    have hplain {cs : List Char} (n : Nat) (h : Passes .string cs [] .string) :=
      passes_string_cons (hexDigit_ne n).1 (hexDigit_ne n).2 h
    exact passes_string_escape _ (passes_string_cons (by decide) (by decide)
      (passes_string_cons (by decide) (by decide) (hplain _ (hplain _ .nil))))
  on_goal 8 => exact passes_string_cons hq hb .nil
  all_goals exact passes_string_escape _ .nil

/-- A quoted string opens no tag, whatever it says. -/
theorem passes_quote (cs : List Char) : Passes .code (Json.quote cs) [] .code := by
  have hopen : Passes .code ['"'] [] .string :=
    .cons (fun _ => if_neg (by simp)) (fun _ => rfl) .nil
  have hclose : Passes .string ['"'] [] .code := .cons_of_ne_code (by decide) (fun _ => rfl) .nil
  have hinner : Passes .string (cs.flatMap Json.escape) [] .string := by
    induction cs with
    | nil => exact .nil
    | cons c cs ih => exact (passes_escape c).append ih
  exact hopen.append (hinner.append hclose)

/-- A string that stands in quotes as it is, as the value of an attribute. -/
theorem passes_quoted {cs : List Char} (h : Json.isPlain cs = true) :
    Passes .code ('=' :: Json.quote cs) [] .code := by
  have hopen : Passes .code ['=', '"'] [] .quoted :=
    .cons (fun _ => if_neg (by simp)) (fun _ => rfl)
      (.cons_of_ne_code (by decide) (fun _ => rfl) .nil)
  have hinner : Passes .quoted cs [] .quoted := by
    refine .of_forall fun c hc => .cons_of_ne_code (by decide) (fun _ => if_neg ?_) .nil
    rintro rfl
    have hplain := List.all_eq_true.1 h _ hc
    revert hplain
    decide
  have hclose : Passes .quoted ['"'] [] .code := .cons_of_ne_code (by decide) (fun _ => rfl) .nil
  rw [Json.quote, Json.flatMap_escape_of_isPlain h]
  exact hopen.append (hinner.append hclose)

/-! ## Attributes -/

/-- A value that is no string in quotes. -/
theorem passes_value {c : Char} (hc : c ≠ '"') {cs : List Char} {names : List String} {stop : Place}
    (h : Passes .code (c :: cs) names stop) : Passes .code ('=' :: c :: cs) names stop := by
  refine .cons (fun _ => if_neg (by simp)) (fun rest => ?_) h
  simp [Place.next, hc]

theorem passes_expression {cs : List Char} (h : Passes .code cs [] .code) :
    Passes .code ('=' :: '{' :: cs ++ ['}']) [] .code :=
  passes_value (by decide) (passes_inert (by decide) (h.append passes_brace))

/-- The object of a style opens no tag. -/
theorem passes_object (entries : List (String × String)) :
    Passes .code (Style.separated [','] (entries.map fun p => Style.entry p.1 p.2)) [] .code := by
  have hentry (p : String × String) : Passes .code (Style.entry p.1 p.2) [] .code :=
    (passes_quote _).append (passes_inert (by decide) (passes_quote _))
  induction entries with
  | nil => exact .nil
  | cons p entries ih =>
    cases entries with
    | nil => exact hentry p
    | cons q entries => exact ((hentry p).append (passes_inert (by decide) .nil)).append ih

/-- A value opens no tag, however it is written. -/
theorem passes_literal_text (value : String) :
    Passes .code (Emission.literal value).text.toList [] .code := by
  rw [Emission.literal]
  split_ifs with hp
  · simpa [Emission.text] using passes_quoted hp
  · simpa [Emission.text] using passes_expression (passes_quote value.toList)

/-- The value of an attribute opens no tag. -/
theorem passes_ofAttribute (name value : String) :
    Passes .code (Emission.ofAttribute name value).text.toList [] .code := by
  rw [Emission.ofAttribute]
  split_ifs
  · have ho := (passes_object (Style.object value.toList).entries).append passes_brace
    simpa [Emission.text, Style.expression] using passes_expression (passes_inert (by decide) ho)
  · exact passes_literal_text value

/-- An attribute with a name that can be written opens no tag. -/
theorem passes_attribute {name value : String} (h : isWritable name = true) :
    Passes .code (Props.text [(name, Emission.ofAttribute name value)]).toList [] .code := by
  have htext := passes_inert (c := ' ') (by decide)
    ((passes_name h).append (passes_ofAttribute name value))
  simpa [Props.text] using htext

/-- An override that is inert unless it is a string, which can say anything. -/
structure IsInert (entry : String × Option String) : Prop where
  name : entry.1.toList.all isInert = true
  value : ∀ text ∈ entry.2, text.toList.head? = some '{' → text.toList.all isInert = true

/-- An inert override opens no tag. -/
theorem passes_override {entry : String × Option String} (h : IsInert entry) :
    Passes .code (overrideText entry) [] .code := by
  have hvalue : Passes .code (Emission.ofOverride entry.2).text.toList [] .code := by
    cases hv : entry.2 with
    | none => exact .nil
    | some text =>
      rw [Emission.ofOverride]
      split_ifs with hb
      · obtain ⟨cs, hcs⟩ := List.head?_eq_some_iff.1 hb
        have htext := passes_of_isInert (h.value text (Option.mem_def.2 hv) hb)
        rw [hcs] at htext
        simpa [Emission.text, hcs] using passes_value (by decide) htext
      · exact passes_literal_text text
  have htext := passes_inert (c := ' ') (by decide) ((passes_of_isInert h.name).append hvalue)
  simpa [overrideText, Props.text] using htext

/-- Attributes open no tag if none of them does. -/
theorem passes_props {props : Props}
    (h : ∀ p ∈ props, Passes .code (Props.text [p]).toList [] .code) :
    Passes .code (Props.text props).toList [] .code := by
  induction props with
  | nil => exact .nil
  | cons p props ih =>
    rw [List.forall_mem_cons] at h
    rw [← List.singleton_append, text_append]
    exact h.1.append (ih h.2)

/-! ## Nodes -/

/-- A tag whose name can be told from the text around it. -/
structure Openable (tag : Tag) : Prop extends Legible tag where
  head : tag.name.toList.head? ≠ some '*'

section Nodes

variable {overrides : Option Overrides}
  (ho : ∀ entry ∈ (overrides.getD .empty).entries, IsInert entry)

include ho in
/-- Attributes with inert overrides open no tag. -/
theorem passes_compose {attributes : Attributes}
    (h : ∀ name ∈ attributes.keys, isWritable name = true) :
    Passes .code (Props.compose attributes overrides).text.toList [] .code := by
  rw [compose_eq]
  refine passes_props fun p hp => ?_
  rcases List.mem_append.1 hp with hp | hp
  · obtain ⟨entry, he, rfl⟩ := List.mem_map.1 hp
    exact passes_attribute (h _ (List.mem_map_of_mem (List.mem_filter.1 he).1))
  · obtain ⟨entry, he, rfl⟩ := List.mem_map.1 hp
    exact passes_override (ho entry he)

/-- A `<` and a name open a tag, if the name ends there. -/
theorem passes_opening {name : String} (h : isWritable name = true) {d : Char} {cs : List Char}
    (hd : isNameChar d = false) {names : List String} {stop : Place}
    (hs : Passes .code (d :: cs) names stop) :
    Passes .code ('<' :: (name.toList ++ d :: cs)) (name :: names) stop := fun rest => by
  obtain ⟨hne, hc⟩ := isWritable_iff.1 h
  have hread := readName_append hc hd (cs ++ rest)
  have hopens : Place.code.opens? '<' (name.toList ++ d :: (cs ++ rest)) = some name := by
    rw [Place.opens?, hread, if_pos ⟨rfl, rfl, hne⟩]
  rw [List.cons_append, List.append_assoc, List.cons_append, openedFrom, hopens]
  have hpass := ((passes_name h).append hs) rest
  rw [List.append_assoc] at hpass
  exact congrArg (name :: ·) hpass

/-- A closing tag opens nothing. -/
theorem passes_closing {tag : Tag} (h : Openable tag) :
    Passes .code ('<' :: '/' :: (tag.name.toList ++ ['>'])) [] .code := by
  have hne := (isWritable_iff.1 h.name).1
  have hname := (passes_name h.name).append passes_angle
  obtain ⟨c, cs, hcs⟩ := List.exists_cons_of_ne_nil (show tag.name.toList ≠ [] by simpa using hne)
  have hhead := h.head
  rw [hcs] at hname hhead ⊢
  refine .cons (fun rest => if_neg fun hn => hn.2.2 ?_) (fun _ => rfl)
    (passes_slash (by simpa using hhead) hname)
  rw [List.cons_append, readName, List.takeWhile_cons_of_neg (by decide)]

include ho in
/-- The front of an element opens its tag. -/
theorem passes_front {tag : Tag} (h : Openable tag) {d : Char} {cs : List Char}
    (hd : isNameChar d = false) {names : List String} {stop : Place}
    (hs : Passes .code (d :: cs) names stop) :
    Passes .code ((front overrides tag).toList ++ d :: cs) (tag.name :: names) stop := by
  have hprops := (passes_compose ho h.attributes).append hs
  have htext : (front overrides tag).toList ++ d :: cs = '<' :: (tag.name.toList ++
      ((Props.compose tag.attributes overrides).text.toList ++ d :: cs)) := by
    simp [front]
  rw [htext]
  cases hp : Props.compose tag.attributes overrides with
  | nil =>
    rw [hp] at hprops
    exact passes_opening h.name hd hprops
  | cons p props =>
    rw [hp, toList_text_cons] at hprops
    rw [toList_text_cons]
    exact passes_opening h.name (by decide) hprops

theorem passes_literal (value : String) : Passes .code (literal value).toList [] .code := by
  have h := passes_inert (c := '{') (by decide) ((passes_quote value.toList).append passes_brace)
  simpa [literal] using h

/-- A comment is passed over up to its end, if nothing in it is one. -/
theorem passes_commentEnd {cs : List Char} (h : ¬ scriptCommentEnd <:+: cs) :
    Passes .comment (cs ++ scriptCommentEnd) [] .code := by
  induction cs with
  | nil =>
    exact .cons_of_ne_code (by decide) (fun _ => rfl)
      (.cons_of_ne_code (by decide) (fun _ => rfl) .nil)
  | cons c cs ih =>
    rw [List.infix_cons_iff, not_or] at h
    refine .cons_of_ne_code (by decide) (fun rest => if_neg ?_) (ih h.2)
    rintro ⟨rfl, hhead⟩
    cases cs with
    | nil => cases hhead
    | cons d cs =>
      cases Option.some.inj hhead
      exact h.1 (List.prefix_append ['*', '/'] cs)

/-- A comment opens no tag, for it does not end early. -/
theorem passes_comment (value : String) : Passes .code (comment value).toList [] .code := by
  have hinner := (passes_commentEnd (not_infix_commentText value)).append passes_brace
  rw [toList_comment]
  exact passes_inert (by decide) (.cons (fun _ => if_neg (by simp)) (fun _ => rfl)
    (.cons_of_ne_code (by decide) (fun _ => rfl) hinner))

mutual

/-- The text of a node opens its tags, in order. -/
theorem passes_written : (node : Node) → (∀ tag ∈ node.tags, Openable tag) →
    {overrides : Option Overrides} →
    (∀ entry ∈ (overrides.getD .empty).entries, IsInert entry) →
    Passes .code (written overrides node).toList (node.tags.map Tag.name) .code
  | .element span tag [], h, _, ho => by
    have htag := h tag (by simp [Node.tags])
    have hend := passes_front ho htag (d := ' ') (by decide)
      (passes_inert (by decide) (passes_slash (by decide) passes_angle))
    simpa [written, Node.tags, Node.tagsAll] using hend
  | .element span tag (child :: rest), h, _, ho => by
    simp only [Node.tags, Node.tagsAll, List.mem_cons, List.mem_append, forall_eq_or_imp] at h
    have hchild : Passes .code (written none child).toList (child.tags.map Tag.name) .code :=
      passes_written child (fun t ht => h.2 t (.inl ht)) fun _ he => by cases he
    have hrest := passes_writtenAll rest fun t ht => h.2 t (.inr ht)
    have hinner := (hchild.append hrest).append (passes_closing h.1)
    have helement := passes_front ho h.1 (d := '>') (by decide) (passes_inert (by decide) hinner)
    simpa [written, Node.tags, Node.tagsAll] using helement
  | .text .., _, _, _ | .cdata .., _, _, _ => passes_literal _
  | .comment .., _, _, _ => passes_comment _
  | .doctype .., _, _, _ | .instruction .., _, _, _ => .nil

/-- Nodes side by side open the tags that are in them, in order. -/
theorem passes_writtenAll : (nodes : List Node) → (∀ tag ∈ Node.tagsAll nodes, Openable tag) →
    Passes .code (writtenAll nodes).toList ((Node.tagsAll nodes).map Tag.name) .code
  | [], _ => .nil
  | node :: rest, h => by
    simp only [Node.tagsAll, List.mem_append] at h
    rw [writtenAll, String.toList_append, Node.tagsAll, List.map_append]
    exact (passes_written node (fun t ht => h t (.inl ht)) fun _ he => by cases he).append
      (passes_writtenAll rest fun t ht => h t (.inr ht))

end

end Nodes

/-! ## The whole text -/

/-- The parts of a document open its tags in order. -/
theorem passes_join {overrides : Option Overrides}
    (ho : ∀ entry ∈ (overrides.getD .empty).entries, IsInert entry) {document : Document}
    (h : ∀ tag ∈ Node.tagsAll document, Openable tag) :
    Passes .code (String.join (writtenParts overrides document)).toList
      ((Node.tagsAll document).map Tag.name) .code := by
  induction document with
  | nil => exact .nil
  | cons node rest ih =>
    simp only [Node.tagsAll, List.mem_append] at h
    rw [join_writtenParts_cons, String.toList_append, Node.tagsAll, List.map_append]
    exact (passes_written node (fun t ht => h t (.inl ht)) ho).append
      (ih fun t ht => h t (.inr ht))

/-- A document whose tags can be told from the text around them is written as a text that opens
them, in order. -/
theorem opened_wrap {overrides : Option Overrides}
    (ho : ∀ entry ∈ (overrides.getD .empty).entries, IsInert entry) {document : Document}
    (h : ∀ tag ∈ Node.tagsAll document, Openable tag) :
    opened (wrap (writtenParts overrides document)) = (Node.tagsAll document).map Tag.name := by
  have hjoin := passes_join ho h
  have hwrap : Passes .code (wrap (writtenParts overrides document)).toList
      ((Node.tagsAll document).map Tag.name) .code := by
    unfold wrap
    split
    · rename_i text hs
      simpa [hs] using hjoin
    · have hopen : Passes .code ['<', '>'] [] .code :=
        .cons (fun _ => rfl) (fun _ => rfl) passes_angle
      have hclose : Passes .code ['<', '/', '>'] [] .code :=
        .cons (fun _ => rfl) (fun _ => rfl) (passes_slash (by decide) passes_angle)
      simpa using (hopen.append hjoin).append hclose
  have hopened := hwrap []
  rwa [List.append_nil, openedFrom, List.append_nil] at hopened

theorem openable_withoutReplaced (overrides : Overrides) {node : Node}
    (h : ∀ tag ∈ node.tags, Openable tag) :
    ∀ tag ∈ (withoutReplaced overrides node).tags, Openable tag := by
  cases node with
  | element span tag children =>
    rw [Node.tags, List.forall_mem_cons] at h
    rw [withoutReplaced, Node.tags, List.forall_mem_cons]
    exact ⟨⟨⟨h.1.name, fun name hn => h.1.attributes name
      ((List.filter_sublist.map Prod.fst).mem hn)⟩, h.1.head⟩, h.2⟩
  | text | cdata | comment | doctype | instruction => exact h

/-- Dropping the attributes that are overridden leaves the names of all tags. -/
theorem tagsAll_withoutReplaced (overrides : Overrides) {document : Document}
    (h : ∀ tag ∈ Node.tagsAll document, Openable tag) :
    (∀ tag ∈ Node.tagsAll (document.map (withoutReplaced overrides)), Openable tag) ∧
      (Node.tagsAll (document.map (withoutReplaced overrides))).map Tag.name =
        (Node.tagsAll document).map Tag.name := by
  induction document with
  | nil => exact ⟨h, rfl⟩
  | cons node rest ih =>
    simp only [Node.tagsAll, List.mem_append, or_imp, forall_and] at h
    obtain ⟨hrest, hnames⟩ := ih h.2
    have hnode : (withoutReplaced overrides node).tags.map Tag.name = node.tags.map Tag.name := by
      cases node <;> rfl
    rw [List.map_cons, Node.tagsAll, List.map_append, hnode, hnames, Node.tagsAll, List.map_append]
    refine ⟨fun tag ht => ?_, rfl⟩
    exact (List.mem_append.1 ht).elim (openable_withoutReplaced overrides h.1 tag) (hrest tag)

/-- Whatever the overrides are, the text outside of them opens the tags of the document. -/
theorem exists_woven_opened (overrides : Option Overrides) {document : Document}
    (h : ∀ tag ∈ Node.tagsAll document, Openable tag) :
    ∃ own : String, Woven (overrides.getD .empty) own.toList
        (wrap (writtenParts overrides document)).toList ∧
      opened own = (Node.tagsAll document).map Tag.name := by
  obtain ⟨hopenable, hnames⟩ := tagsAll_withoutReplaced (overrides.getD .empty) h
  refine ⟨_, woven_wrap overrides document, ?_⟩
  rw [opened_wrap (fun _ he => by cases he) hopenable, hnames]

end SvgComponent.Jsx
