import SvgComponent.Proofs.Tree.Fates

/-!
# Searching a tree

The tags of a document are listed in document order, so a search of the list finds what the element
with the least address has to offer, of those that offer anything (`isFirst_tagsAll`). That is how
it is told where in a document a search ends, and that it ends for nothing else
(`findSome?_tagsAll_eq_some_iff`).
-/

namespace SvgComponent.Node

variable {α : Type}

/-- The tag of the element at an address. -/
def tagAt? (document : Document) (address : Address) : Option Tag :=
  (at? document address).bind tag?

/-! ## The least address -/

/-- The outcome of a search : what is offered at the least address at which anything is. -/
def IsFirst (offers : Address → Option α) : Option α → Prop
  | some a => ∃ address, offers address = some a ∧ ∀ earlier < address, offers earlier = none
  | none => ∀ address, offers address = none

/-- There is one first offer at most. -/
theorem IsFirst.unique {offers : Address → Option α} {a b : Option α} (ha : IsFirst offers a)
    (hb : IsFirst offers b) : a = b := by
  cases a with
  | none =>
    cases b with
    | none => rfl
    | some b =>
      obtain ⟨address, h, -⟩ := hb
      exact (ha address).symm.trans h
  | some a =>
    cases b with
    | none =>
      obtain ⟨address, h, -⟩ := ha
      exact h.symm.trans (hb address)
    | some b =>
      obtain ⟨first, hf, hfirst⟩ := ha
      obtain ⟨second, hs, hsecond⟩ := hb
      rcases lt_trichotomy first second with hlt | rfl | hlt
      · exact absurd ((hsecond first hlt).symm.trans hf) nofun
      · exact hf.symm.trans hs
      · exact absurd ((hfirst second hlt).symm.trans hs) nofun

/-- Of two nodes side by side the second is searched when there is nothing in the first. -/
theorem IsFirst.or {offers first second : Address → Option α} {a b : Option α}
    (hnil : offers [] = none) (hsecond : second [] = none)
    (hzero : ∀ below, offers (0 :: below) = first below)
    (hlater : ∀ behind, behind ≠ [] → offers (later behind) = second behind)
    (ha : IsFirst first a) (hb : IsFirst second b) : IsFirst offers (a.or b) := by
  cases a with
  | some a =>
    obtain ⟨below, h, hmin⟩ := ha
    refine ⟨0 :: below, (hzero below).trans h, fun earlier hlt => ?_⟩
    match earlier, hlt with
    | [], _ => exact hnil
    | i :: inner, hlt =>
      obtain hi | ⟨rfl, hinner⟩ := List.cons_lt_cons_iff.1 hlt
      · exact absurd hi (Nat.not_lt_zero i)
      · exact (hzero inner).trans (hmin inner hinner)
  | none =>
    have hnone : ∀ earlier, (∀ behind, behind ≠ [] → earlier = later behind →
        second behind = none) → offers earlier = none := by
      intro earlier h
      by_cases he : earlier = []
      · rw [he, hnil]
      · obtain ⟨below, rfl⟩ | ⟨behind, hne, rfl⟩ := exists_zero_or_later he
        · exact (hzero below).trans (ha below)
        · exact (hlater behind hne).trans (h behind hne rfl)
    cases b with
    | none => exact fun address => hnone address fun behind _ _ => hb behind
    | some b =>
      obtain ⟨behind, h, hmin⟩ := hb
      have hne : behind ≠ [] := by
        rintro rfl
        exact absurd (hsecond.symm.trans h) nofun
      refine ⟨later behind, (hlater behind hne).trans h, fun earlier hlt => hnone earlier ?_⟩
      rintro inner - rfl
      exact hmin inner (later_lt_later_iff.1 hlt)

/-- What is around something else comes before it. -/
theorem IsFirst.above {offers inside : Address → Option α} {a : Option α}
    (hinside : inside [] = none) (hbelow : ∀ below, below ≠ [] → offers below = inside below)
    (ha : IsFirst inside a) : IsFirst offers ((offers []).or a) := by
  cases htop : offers [] with
  | some top => exact ⟨[], htop, fun earlier hlt => absurd hlt (List.not_lt_nil _)⟩
  | none =>
    have hsame : offers = inside := by
      funext below
      by_cases hb : below = []
      · rw [hb, htop, hinside]
      · exact hbelow below hb
    rw [hsame]
    exact ha

/-! ## Searching tags -/

variable (f : Tag → Option α)

/-- In a leaf nothing is found. -/
theorem isFirst_leaf {node : Node} (hl : node.isElement = false) :
    IsFirst (fun below => (tagAt? [node] (0 :: below)).bind f) (node.tags.findSome? f) := by
  have hnone (below : Address) : tagAt? [node] (0 :: below) = none := by
    by_cases hb : below = []
    · cases node with
      | element => cases hl
      | text | cdata | comment | doctype | instruction => rw [hb]; rfl
    · rw [tagAt?, at?_below hb, children_of_leaf hl]
      obtain ⟨i, further, rfl⟩ := List.exists_cons_of_ne_nil hb
      rfl
  have htags : node.tags = [] := by
    cases node with
    | element => cases hl
    | text | cdata | comment | doctype | instruction => rfl
  rw [htags]
  exact fun below => by simp only [hnone, Option.bind_none]

mutual

/-- Searching the tags of a node finds the first one; by recursion on the node. -/
theorem isFirst_tags : (node : Node) →
    IsFirst (fun below => (tagAt? [node] (0 :: below)).bind f) (node.tags.findSome? f)
  | .element span tag children => by
    have h : IsFirst (fun below => (tagAt? [.element span tag children] (0 :: below)).bind f)
        (((tagAt? [.element span tag children] [0]).bind f).or ((tagsAll children).findSome? f)) :=
      .above rfl (fun below hb => by simp only [tagAt?, at?_below hb]; rfl)
        (isFirst_tagsAll children)
    rw [tags, List.findSome?_cons]
    cases hf : f tag <;> simpa [tagAt?, at?, trail?, tag?, hf] using h
  | .text .. | .cdata .. | .comment .. | .doctype .. | .instruction .. => isFirst_leaf f rfl

/-- Searching the tags of a document finds the first one. -/
theorem isFirst_tagsAll : (nodes : List Node) →
    IsFirst (fun address => (tagAt? nodes address).bind f) ((tagsAll nodes).findSome? f)
  | [] => fun address => by cases address <;> rfl
  | node :: rest => by
    rw [tagsAll, List.findSome?_append]
    exact .or rfl rfl (fun _ => rfl) (fun behind _ => by simp only [tagAt?, at?_later])
      (isFirst_tags node) (isFirst_tagsAll rest)

end

/-- The outcome of a search of the tags of a document is told by addresses. -/
theorem findSome?_tagsAll_eq_iff {document : Document} {found : Option α} :
    (tagsAll document).findSome? f = found ↔
      IsFirst (fun address => (tagAt? document address).bind f) found :=
  ⟨fun h => h ▸ isFirst_tagsAll f document, fun h => (isFirst_tagsAll f document).unique h⟩

/-- What is found is at the least address at which there is something. -/
theorem findSome?_tagsAll_eq_some_iff {document : Document} {a : α} :
    (tagsAll document).findSome? f = some a ↔
      ∃ address tag, tagAt? document address = some tag ∧ f tag = some a ∧
        ∀ earlier < address, ∀ other, tagAt? document earlier = some other → f other = none := by
  simp only [findSome?_tagsAll_eq_iff, IsFirst, Option.bind_eq_some_iff, Option.bind_eq_none_iff,
    ← exists_and_right, and_assoc]

/-- Nothing is found if there is nothing at any address. -/
theorem findSome?_tagsAll_eq_none_iff {document : Document} :
    (tagsAll document).findSome? f = none ↔
      ∀ address tag, tagAt? document address = some tag → f tag = none := by
  simp only [findSome?_tagsAll_eq_iff, IsFirst, Option.bind_eq_none_iff]

end SvgComponent.Node
