import SvgComponent.Proofs.Script.Operands

/-!
# Values as literals of scripts

A text of a plain value is an expression of a script, the literal of the value (`readsLiteral`),
and the literal gives the value back (`toJson_literal`). So a module that exports the text by
default gives the value as its configuration (`exportedConfig_exported`).

The entries of a container are read by a loop, for lists and for objects alike : what a step of it
does is `StepsOver`, and what the whole loop does `exists_parses_entries`. Each container takes a
level of the grammar; a text has more levels to go than characters, so they never run out.
-/

namespace SvgComponent.Script

open Json Text Script.Parser

variable {limit : Nat} {cs rest : List Char}

/-! ## Literals -/

mutual

/-- The expression that a text of a value is. -/
def literal : Json → Expression
  | .null => .null
  | .bool b => .bool b
  | .number _ => .other
  | .string s => .string (some s)
  | .array items => .array (literalItems items)
  | .object members => .object (literalMembers members)

def literalItems : List Json → List Element
  | [] => []
  | v :: rest => .value (literal v) :: literalItems rest

def literalMembers : List (String × Json) → List Member
  | [] => []
  | (key, v) :: rest => .pair (some key) (literal v) :: literalMembers rest

end

theorem literalItems_eq_map (items : List Json) :
    literalItems items = items.map fun v => .value (literal v) := by
  induction items with
  | nil => rfl
  | cons v rest ih => rw [literalItems, ih, List.map_cons]

theorem literalMembers_eq_map (members : List (String × Json)) :
    literalMembers members = members.map fun p => .pair (some p.1) (literal p.2) := by
  induction members with
  | nil => rfl
  | cons p rest ih => rw [literalMembers, ih, List.map_cons]

/-- Literals need no brackets where an operand is asked for. -/
theorem isOperand_literal (v : Json) : (literal v).IsOperand := by
  cases v <;> simp [literal, Expression.IsOperand]

/-- A member with a new key comes last. -/
theorem setMember_of_not_mem {key : String} {done : List (String × Json)}
    (h : key ∉ done.map Prod.fst) (value : Json) :
    Json.setMember key value done = done ++ [(key, value)] := by
  induction done with
  | nil => rfl
  | cons p rest ih =>
    obtain ⟨k, v⟩ := p
    rw [List.map_cons, List.mem_cons, not_or] at h
    rw [Json.setMember, if_neg (Ne.symm h.1), ih h.2, List.cons_append]

/-- The literals of items give the items back. -/
theorem itemsToJson_literalItems {items : List Json}
    (h : ∀ v ∈ items, (literal v).toJson = .ok v) :
    Expression.itemsToJson (literalItems items) = .ok items := by
  induction items with
  | nil => rfl
  | cons v rest ih =>
    rw [literalItems, Expression.itemsToJson, h v List.mem_cons_self,
      ih fun w hw => h w (List.mem_cons_of_mem v hw)]
    rfl

/-- The literals of members with different keys give the members back. -/
theorem membersToJson_literalMembers {members done : List (String × Json)}
    (hn : (done.map Prod.fst ++ members.map Prod.fst).Nodup)
    (h : ∀ p ∈ members, (literal p.2).toJson = .ok p.2) :
    Expression.membersToJson done (literalMembers members) = .ok (done ++ members) := by
  induction members generalizing done with
  | nil => rw [literalMembers, Expression.membersToJson, List.append_nil]
  | cons p rest ih =>
    obtain ⟨key, v⟩ := p
    have hkey : key ∉ done.map Prod.fst := by
      intro hmem
      exact (List.nodup_append.1 hn).2.2 key hmem key List.mem_cons_self rfl
    have hset := setMember_of_not_mem hkey v
    rw [literalMembers, Expression.membersToJson, h (key, v) List.mem_cons_self]
    show Expression.membersToJson (Json.setMember key v done) (literalMembers rest) = _
    rw [hset, ih _ fun q hq => h q (List.mem_cons_of_mem _ hq), List.append_assoc]
    · rfl
    · simpa using hn

/-- A literal gives the value that it is of. -/
theorem toJson_literal {v : Json} (hp : Plain v) : (literal v).toJson = .ok v := by
  induction v using nested_induction with
  | null => rfl
  | bool b => rfl
  | number n => exact hp.elim
  | string s => rfl
  | array items ih =>
    rw [literal, Expression.toJson,
      itemsToJson_literalItems fun v hv => ih v hv (plain_of_mem_items hp hv)]
    rfl
  | object members ih =>
    rw [literal, Expression.toJson, membersToJson_literalMembers (by simpa using hp.1)
      fun p hm => ih p hm (plain_of_mem_members hp.2 hm)]
    rfl

/-! ## Entries of containers -/

section entries

variable {ι β : Type} {text : ι → List Char → Prop} {close : String} {mark : Char}
  {step : List β → Parser (List β)} {f : ι → β}

/-- The mark that a container is closed by. -/
def Closes (mark : Char) (close : String) : Prop :=
  mark = ']' ∧ close = "]" ∨ mark = '}' ∧ close = "\x7d"

/-- An entry of a container is in front of its texts, and a step of a loop reads it with the
comma behind it, if there is one. -/
structure StepsOver (limit : Nat) (text : ι → List Char → Prop) (close : String)
    (step : List β → Parser (List β)) (f : ι → β) (i : ι) : Prop where
  atToken {cs : List Char} (tail : List Char) : text i cs → AtToken (cs ++ tail)
  before {cs gap rest : List Char} : text i cs → IsGap gap → Ends rest →
    Parses limit (before close) (cs ++ (gap ++ rest)) true (cs ++ (gap ++ rest))
  step {cs gap rest rest' : List Char} (read : List β) : text i cs → IsGap gap → Ends rest →
    (cs ++ (gap ++ rest)).length ≤ limit → Parses limit (comma close) rest () rest' →
      Parses limit (step read) (cs ++ (gap ++ rest)) (f i :: read) rest'

theorem Closes.ends (h : Closes mark close) (rest : List Char) : Ends (mark :: rest) := by
  rcases h with ⟨rfl, -⟩ | ⟨rfl, -⟩ <;> exact ends_cons (by decide) rest

theorem Closes.before (h : Closes mark close) (rest : List Char) :
    Parses limit (before close) (mark :: rest) false (mark :: rest) := by
  rcases h with ⟨rfl, rfl⟩ | ⟨rfl, rfl⟩ <;> exact fun newline => ⟨newline, rfl⟩

theorem Closes.comma (h : Closes mark close) (rest : List Char) :
    Parses limit (comma close) (mark :: rest) () (mark :: rest) := by
  rcases h with ⟨rfl, rfl⟩ | ⟨rfl, rfl⟩ <;> exact fun newline => ⟨newline, rfl⟩

/-- A comma is passed over with the gap behind it. -/
theorem Closes.comma_cons (h : Closes mark close) {gap : List Char} (hg : IsGap gap)
    (hr : AtToken rest) : Parses limit (Parser.comma close) (',' :: (gap ++ rest)) () rest := by
  have hexpect : Parses limit (expect ",") (',' :: (gap ++ rest)) () rest :=
    .expect_mark rfl hg hr
  rcases h with ⟨rfl, rfl⟩ | ⟨rfl, rfl⟩ <;>
  exact (Parses.at? _ _).andThen hexpect

/-- Entries are read to the closing mark, one step for each; by induction on those that are left. -/
theorem parses_entries {entries : List ι} {first : ι} {steps : Nat} {s : List β}
    {entry behind : List Char} (hc : Closes mark close)
    (hs : ∀ i ∈ first :: entries, StepsOver limit text close step f i) (he : text first entry)
    (hb : Sequence text false entries behind) (hn : entries.length + 1 < steps)
    (hl : (entry ++ (behind ++ mark :: rest)).length ≤ limit) :
    Parses limit (whileIn (before close) step steps s) (entry ++ (behind ++ mark :: rest))
      (((first :: entries).map f).reverse ++ s) (mark :: rest) := by
  -- on the entries behind the first one, as a step takes an entry with the comma behind it
  induction entries generalizing first steps s entry behind with
  | nil =>
    obtain ⟨n, rfl⟩ : ∃ n, steps = n + 2 := ⟨steps - 2, by rw [List.length_nil] at hn; omega⟩
    have hfirst := hs first List.mem_cons_self
    refine (hfirst.before he hb (hc.ends rest)).andThen ?_
    refine (hfirst.step s he hb (hc.ends rest) hl (hc.comma rest)).andThen ?_
    exact .otherwise (hc.before rest) (.pure _ _)
  | cons second entries ih =>
    obtain ⟨n, rfl⟩ := Nat.exists_eq_succ_of_ne_zero (Nat.ne_zero_of_lt hn)
    obtain ⟨-, entry', behind', ⟨before, after, hbefore, hafter, rfl⟩, he', hr, rfl⟩ := hb
    have hfirst := hs first List.mem_cons_self
    have hrest : ∀ i ∈ second :: entries, StepsOver limit text close step f i :=
      fun i hi => hs i (List.mem_cons_of_mem first hi)
    simp only [List.append_assoc, List.cons_append] at hl ⊢
    have hends := ends_cons (c := ',') (by decide) (after ++ (entry' ++ (behind' ++ mark :: rest)))
    have hcomma : Parses limit (comma close)
        (',' :: (after ++ (entry' ++ (behind' ++ mark :: rest)))) ()
        (entry' ++ (behind' ++ mark :: rest)) :=
      hc.comma_cons hafter ((hrest second List.mem_cons_self).atToken _ he')
    refine (hfirst.before he hbefore hends).andThen ?_
    refine (hfirst.step s he hbefore hends hl hcomma).andThen ?_
    rw [List.map_cons, List.reverse_cons, List.append_assoc]
    refine ih hrest he' hr (Nat.lt_of_succ_lt_succ hn) ?_
    simp only [List.length_append, List.length_cons] at hl ⊢
    omega

/-- The entries of a container are read one after the other, from the first to the mark behind
the last. -/
theorem exists_parses_entries {entries : List ι} {inner : List Char} (hc : Closes mark close)
    (hs : ∀ i ∈ entries, StepsOver limit text close step f i)
    (h : Sequence text true entries inner) (hn : entries.length ≤ inner.length)
    (hl : (inner ++ mark :: rest).length ≤ limit) :
    ∃ gap start, inner ++ mark :: rest = gap ++ start ∧ IsGap gap ∧ AtToken start ∧
      Parses limit (whileHolds (before close) step []) start (entries.map f).reverse
        (mark :: rest) := by
  cases entries with
  | nil => exact ⟨inner, mark :: rest, rfl, h, (hc.ends rest).atToken,
      .whileHolds_of_not [] (hc.before rest)⟩
  | cons first entries =>
    obtain ⟨front, entry, behind, hf, he, hb, rfl⟩ := h
    have hfirst := hs first List.mem_cons_self
    rw [List.append_assoc, List.append_assoc] at hl ⊢
    refine ⟨front, _, rfl, hf, hfirst.atToken _ he, .whileHolds ?_⟩
    simp only [List.length_append, List.length_cons] at hn hl
    have hsteps : entries.length + 1 < limit + 1 := by omega
    have hlength : (entry ++ (behind ++ mark :: rest)).length ≤ limit := by
      simp only [List.length_append, List.length_cons]
      omega
    have hentries := parses_entries (s := []) hc hs he hb hsteps hlength
    rwa [List.append_nil] at hentries

end entries

/-! ## Values -/

namespace Grammar

variable {g : Grammar} {gap : List Char}

/-- A text of a value is an expression : the literal of the value. -/
def ReadsLiteral (limit : Nat) (g : Grammar) (v : Json) : Prop :=
  ∀ ⦃cs gap rest⦄, Spells v cs → IsGap gap → Ends rest → (cs ++ (gap ++ rest)).length ≤ limit →
    Parses limit (g.assignment {}) (cs ++ (gap ++ rest)) (literal v) rest

theorem parses_atStop (hn : (Token.scan cs).1 ≠ .stop) : Parses limit atStop cs false cs := by
  refine (Parses.token cs).andThen ?_
  split
  · exact absurd ‹_› hn
  · exact .pure false cs

theorem parses_before {close : String} {texts : List String}
    (ho : (Token.scan cs).1.Only texts) (hn : (Token.scan cs).1 ≠ .stop) (hc : close ∉ texts) :
    Parses limit (before close) cs true cs :=
  (Parses.at?_of_only ho hc).andThen ((parses_atStop hn).andThen (.pure true cs))

/-- An item is read as its literal. -/
theorem stepsOver_item {v : Json} (hp : Plain v) (hv : ReadsLiteral limit g v) :
    StepsOver limit Spells "]"
      (fun items => do
        if ← eat "," then return .hole :: items
        else
          let item ← g.entry {}
          comma "]"
          return item :: items)
      (fun v => .value (literal v)) v where
  atToken tail h := atToken_of_spells hp h tail
  before h hg hr := by
    obtain ⟨ho, hn⟩ := scan_spells hp h hg hr
    exact parses_before ho hn (by decide)
  step read h hg hr hl hcomma := by
    obtain ⟨ho, -⟩ := scan_spells hp h hg hr
    have hentry : Parses limit (g.entry {}) _ (.value (literal v)) _ :=
      .otherwise (.eat_of_only ho (by decide)) ((hv h hg hr hl).andThen (.pure _ _))
    exact .otherwise (.eat_of_only ho (by decide))
      (hentry.andThen (hcomma.andThen (.pure _ _)))

/-- A text of a list is read as its literal. -/
theorem parses_array {items : List Json} (hp : PlainItems items)
    (hv : ∀ v ∈ items, ReadsLiteral limit g v) (h : Spells (.array items) cs) (hg : IsGap gap)
    (hr : Ends rest) (hl : (cs ++ (gap ++ rest)).length ≤ limit) :
    Parses limit (g.array {}) (cs ++ (gap ++ rest)) (literal (.array items)) rest := by
  obtain ⟨inner, hi, rfl⟩ := h
  have hlength := length_le_of_spellsItems hp hi
  rw [List.cons_append, List.append_assoc, List.singleton_append] at hl ⊢
  obtain ⟨front, start, htext, hf, hstart, hitems⟩ := exists_parses_entries (.inl ⟨rfl, rfl⟩)
    (fun v hv' => stepsOver_item (plain_of_mem_items hp hv') (hv v hv'))
    (sequence_of_spellsItems hi) hlength (Nat.le_of_succ_le hl)
  rw [htext]
  refine (Parses.expect_mark rfl hf hstart).andThen (hitems.andThen ?_)
  refine (Parses.expect_mark rfl hg hr.atToken).andThen ?_
  rw [List.reverse_reverse, ← literalItems_eq_map]
  exact .pure _ rest

/-- A key is read as the name of a property. -/
theorem parses_propertyName {key : String} (hk : SpellsString key cs) (hg : IsGap gap)
    (hr : AtToken rest) :
    Parses limit (g.propertyName {}) (cs ++ (gap ++ rest)) ⟨some key, false⟩ rest := by
  have hscan := scan_spellsString hk (gap ++ rest)
  refine (Parses.token _).andThen ?_
  rw [hscan]
  exact (Parses.bump hscan hg hr).andThen (.pure _ rest)

/-- A member is read as a pair of its key and the literal of its value. -/
theorem parses_member {p : String × Json} (hp : Plain p.2) (hv : ReadsLiteral limit g p.2)
    (h : SpellsMember p cs) (hg : IsGap gap) (hr : Ends rest)
    (hl : (cs ++ (gap ++ rest)).length ≤ limit) :
    Parses limit (g.member {}) (cs ++ (gap ++ rest)) (.pair (some p.1) (literal p.2)) rest := by
  obtain ⟨name, colon, item, hk, ⟨before, after, hb, ha, rfl⟩, hi, rfl⟩ := h
  simp only [List.append_assoc, List.cons_append] at hl ⊢
  have ho : (Token.scan (name ++ (before ++ ':' :: (after ++ (item ++ (gap ++ rest)))))).1.Only
      [] := by
    rw [scan_spellsString hk]
    exact only_string _
  have hcolon : AtToken (':' :: (after ++ (item ++ (gap ++ rest)))) := by
    intro newline
    cases newline <;> rfl
  have hlength : (item ++ (gap ++ rest)).length ≤ limit := by
    simp only [List.length_append, List.length_cons] at hl ⊢
    omega
  refine .otherwise (.eat_of_only ho (by decide)) ?_
  refine .otherwise (.eat_of_only ho (by decide)) ?_
  refine (parses_propertyName hk hb hcolon).andThen ?_
  have heat : Parses limit (eat ":") (':' :: (after ++ (item ++ (gap ++ rest)))) true
      (item ++ (gap ++ rest)) :=
    .eat_mark rfl ha (atToken_of_spells hp hi _)
  exact heat.andThen ((hv hi hg hr hlength).andThen (.pure _ rest))

/-- A member is one step of the loop. -/
theorem stepsOver_member {p : String × Json} (hp : Plain p.2) (hv : ReadsLiteral limit g p.2) :
    StepsOver limit SpellsMember "\x7d"
      (fun members => do
        let first ← g.member {}
        comma "\x7d"
        return first :: members)
      (fun p => .pair (some p.1) (literal p.2)) p where
  atToken tail h := by
    obtain ⟨_, colon, item, ⟨inner, -, rfl⟩, -, -, rfl⟩ := h
    intro newline
    cases newline <;> rfl
  before {_ gap rest} h hg hr := by
    obtain ⟨name, colon, item, hk, -, -, rfl⟩ := h
    rw [List.append_assoc]
    have hscan := scan_spellsString hk (colon ++ item ++ (gap ++ rest))
    exact parses_before (hscan ▸ only_string _) (hscan ▸ nofun) List.not_mem_nil
  step read h hg hr hl hcomma :=
    (parses_member hp hv h hg hr hl).andThen (hcomma.andThen (.pure _ _))

/-- A text of an object is read as its literal. -/
theorem parses_object {members : List (String × Json)} (hp : PlainMembers members)
    (hv : ∀ p ∈ members, ReadsLiteral limit g p.2) (h : Spells (.object members) cs)
    (hg : IsGap gap) (hr : Ends rest) (hl : (cs ++ (gap ++ rest)).length ≤ limit) :
    Parses limit (g.object {}) (cs ++ (gap ++ rest)) (literal (.object members)) rest := by
  obtain ⟨inner, hi, rfl⟩ := h
  have hlength := length_le_of_spellsMembers hi
  rw [List.cons_append, List.append_assoc, List.singleton_append] at hl ⊢
  obtain ⟨front, start, htext, hf, hstart, hmembers⟩ := exists_parses_entries (.inr ⟨rfl, rfl⟩)
    (fun p hm => stepsOver_member (plain_of_mem_members hp hm) (hv p hm))
    (sequence_of_spellsMembers hi) hlength (Nat.le_of_succ_le hl)
  have hseparated : Parses limit (separated "\x7d" (g.member {})) start
      (literalMembers members) rest := by
    refine hmembers.andThen ?_
    refine (Parses.expect_mark rfl hg hr.atToken).andThen ?_
    rw [List.reverse_reverse, ← literalMembers_eq_map]
    exact .pure _ rest
  rw [htext]
  refine (Parses.expect_mark rfl hf hstart).andThen ?_
  exact hseparated.andThen (.pure _ rest)

/-- A word that is an operand by itself is read so. -/
theorem parses_word {text : String} {parent : Parser Expression} {arrowFits : Bool}
    {e : Expression} (hs : Token.scan cs = (.word text, gap ++ rest)) (hg : IsGap gap)
    (hr : Ends rest)
    (he : g.wordOperand parent {} arrowFits text = do bump; return e) :
    Parses limit (g.primary parent {} arrowFits) cs e rest := by
  refine (Parses.token cs).andThen ?_
  rw [hs]
  show Parses limit (g.wordOperand parent {} arrowFits text) cs e rest
  rw [he]
  exact (Parses.bump hs hg hr.atToken).andThen (.pure e rest)

/-- Each container takes a level of the grammar. -/
theorem readsLiteral {v : Json} {n : Nat} (hp : Plain v) (hd : depth v < n) :
    ReadsLiteral limit (ofDepth n) v := by
  -- on the level and not on the value, as what is in a container is read one level down
  induction n generalizing v with
  | zero => exact absurd hd (Nat.not_lt_zero _)
  | succ n ih =>
    intro cs gap rest h hg hr hl
    have htail := hr.head?_append hg
    refine parses_assignmentRule (isOperand_literal v) (scan_spells hp h hg hr).1 hr.only ?_
    cases v with
    | null =>
      cases h
      exact parses_word (scan_word (by decide) (by decide) htail) hg hr rfl
    | bool b =>
      cases b <;> cases h <;>
      exact parses_word (scan_word (by decide) (by decide) htail) hg hr rfl
    | number n => exact hp.elim
    | string s =>
      have hscan := scan_spellsString h (gap ++ rest)
      refine (Parses.token _).andThen ?_
      rw [hscan]
      exact (Parses.bump hscan hg hr.atToken).andThen (.pure _ rest)
    | array items =>
      have hitems : ∀ v ∈ items, ReadsLiteral limit (ofDepth n) v := by
        intro v hv
        have := depth_le_of_mem_items hv
        rw [depth] at hd
        exact ih (plain_of_mem_items hp hv) (by omega)
      have harray := parses_array hp hitems h hg hr hl
      obtain ⟨inner, -, rfl⟩ := h
      exact (Parses.token _).andThen harray
    | object members =>
      have hmembers : ∀ p ∈ members, ReadsLiteral limit (ofDepth n) p.2 := by
        intro p hm
        have := depth_le_of_mem_members hm
        rw [depth] at hd
        exact ih (plain_of_mem_members hp.2 hm) (by omega)
      have hobject := parses_object hp.2 hmembers h hg hr hl
      obtain ⟨inner, -, rfl⟩ := h
      exact (Parses.token _).andThen hobject

end Grammar

/-! ## Modules -/

/-- The words in front of what a module exports by default. -/
def exportWord : List Char := ['e', 'x', 'p', 'o', 'r', 't']

def defaultWord : List Char := ['d', 'e', 'f', 'a', 'u', 'l', 't']

/-- A text with both words in front. -/
def exported (text : List Char) : List Char :=
  exportWord ++ ' ' :: (defaultWord ++ ' ' :: text)

/-- A word is one token, up to a blank. -/
theorem scan_spaced {c : Char} {word : List Char} (hc : isIdentifierStart c = true)
    (hw : (c :: word).all (fun d => isIdentifierPart d && d ≠ '\\') = true) (rest : List Char) :
    Token.scan (c :: word ++ ' ' :: rest) = (.word (String.ofList (c :: word)), ' ' :: rest) := by
  refine scan_word hc hw fun d hd => ?_
  cases hd
  decide

theorem scan_exportWord (rest : List Char) :
    Token.scan (exportWord ++ ' ' :: rest) = (.word "export", ' ' :: rest) :=
  scan_spaced (by decide) (by decide) rest

theorem scan_defaultWord (rest : List Char) :
    Token.scan (defaultWord ++ ' ' :: rest) = (.word "default", ' ' :: rest) :=
  scan_spaced (by decide) (by decide) rest

namespace Grammar

variable {g : Grammar}

/-- What is exported by default is read as an expression, up to the end of the module. -/
theorem parses_defaultExport {v : Json} {after : List Char} (hp : Plain v)
    (hv : ReadsLiteral limit g v) (h : Spells v cs) (ha : IsGap after)
    (hl : (cs ++ after).length ≤ limit) :
    Parses limit (g.defaultExport {}) (cs ++ after) (some (literal v)) [] := by
  rw [← List.append_nil after] at hl ⊢
  obtain ⟨ho, -⟩ := scan_spells hp h ha ends_nil
  have hasync : Parses limit atAsyncFunction (cs ++ (after ++ [])) false (cs ++ (after ++ [])) := by
    refine fun newline => ⟨newline, ?_⟩
    show EStateM.Result.ok ((Token.scan (cs ++ (after ++ []))).1.is "async" && _ && _) _ = _
    rw [ho.is_eq_false (by decide), Bool.false_and, Bool.false_and]
  have hend : Parses limit expectEnd [] () [] := fun newline => ⟨newline, rfl⟩
  refine .otherwise (.at?_of_only ho (by decide)) ?_
  refine .otherwise hasync ?_
  refine .otherwise (.at?_of_only ho (by decide)) ?_
  exact (hv h ha ends_nil hl).andThen (hend.andThen (.pure _ _))

/-- An item that exports a text of a value by default gives its literal. -/
theorem parses_exportItem {v : Json} {before after : List Char} (hp : Plain v)
    (hv : ReadsLiteral limit g v) (hb : IsGap before) (h : Spells v cs) (ha : IsGap after)
    (hl : (cs ++ after).length ≤ limit) :
    Parses limit (g.exportItem {}) (exported (before ++ (cs ++ after))) (some (literal v)) [] := by
  have hspace : IsGap [' '] := by simp [IsGap, isGap]
  have hblanks : IsGap (' ' :: before) := List.forall_mem_cons.2 ⟨by decide, hb⟩
  have hword : AtToken (defaultWord ++ ' ' :: (before ++ (cs ++ after))) := by
    intro newline
    cases newline <;> rfl
  have hexport : Parses limit (expect "export") (exported (before ++ (cs ++ after))) ()
      (defaultWord ++ ' ' :: (before ++ (cs ++ after))) :=
    .expect (scan_exportWord _) hspace hword rfl
  have hdefault : Parses limit (eat "default") (defaultWord ++ ' ' :: (before ++ (cs ++ after)))
      true (cs ++ after) :=
    .eat (scan_defaultWord _) hblanks (atToken_of_spells hp h after) rfl
  have honly : (Token.scan (defaultWord ++ ' ' :: (before ++ (cs ++ after)))).1.Only
      ["default"] := by
    rw [scan_defaultWord]
    exact only_word _
  refine hexport.andThen (.otherwise (.eat_of_only honly (by decide)) ?_)
  exact hdefault.andThen (parses_defaultExport hp hv h ha hl)

/-- A module that holds nothing else exports that literal. -/
theorem parses_items {v : Json} {before after : List Char} (hp : Plain v)
    (hv : ReadsLiteral limit g v) (hb : IsGap before) (h : Spells v cs) (ha : IsGap after)
    (hl : (exported (before ++ (cs ++ after))).length ≤ limit) :
    Parses limit g.items (exported (before ++ (cs ++ after))) (some (literal v)) [] := by
  have hlength : 1 + (cs ++ after).length ≤ limit := by
    simp only [exported, exportWord, List.length_append, List.length_cons] at hl ⊢
    omega
  obtain ⟨n, rfl⟩ : ∃ n, limit = n + 1 := ⟨limit - 1, by omega⟩
  have hstart : Parses (n + 1) (do return !(← atStop)) (exported (before ++ (cs ++ after))) true
      (exported (before ++ (cs ++ after))) := by
    refine (parses_atStop ?_).andThen (.pure true _)
    rw [exported, scan_exportWord]
    exact nofun
  have hstop : Parses (n + 1) (do return !(← atStop)) [] false [] :=
    fun newline => ⟨newline, rfl⟩
  have hitem : Parses (n + 1) (g.item {}) (exported (before ++ (cs ++ after)))
      (some (literal v)) [] := by
    refine (Parses.at? "export" _).andThen ?_
    rw [exported, scan_exportWord]
    exact parses_exportItem hp hv hb h ha (by omega)
  refine .whileHolds (hstart.andThen ((hitem.andThen (.pure _ _)).andThen ?_))
  exact .otherwise hstop (.pure _ [])

end Grammar

/-- A module that exports a value by default is read as one, and gives the value. -/
theorem exportedConfig_exported {v : Json} {text : List Char} (hp : Plain v)
    (h : IsTextOf v text) : exportedConfig (exported text) = .ok v := by
  obtain ⟨before, cs, after, hb, hcs, ha, rfl⟩ := h
  have hdepth := depth_le_length hcs
  have hlength : cs.length ≤ (exported (before ++ (cs ++ after))).length := by
    simp only [exported, List.length_append, List.length_cons]
    omega
  have hv : Grammar.ReadsLiteral (exported (before ++ (cs ++ after))).length
      (.ofDepth (2 * (exported (before ++ (cs ++ after))).length + 4)) v :=
    Grammar.readsLiteral hp (by omega)
  obtain ⟨newline, hitems⟩ := Grammar.parses_items hp hv hb hcs ha (Nat.le_refl _) true
  have hstart : Cursor.start (exported (before ++ (cs ++ after))) =
      .ofText (exported (before ++ (cs ++ after))).length (exported (before ++ (cs ++ after)))
        true := rfl
  rw [exportedConfig, exportOf?, hstart, hitems]
  exact toJson_literal hp

end SvgComponent.Script
