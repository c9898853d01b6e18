import SvgComponent.Proofs.Pairs.Repeated
import SvgComponent.Proofs.Target.Elements

/-!
# The attributes of a target

A target gives attributes new names and drops those that it has no name for. Where several get one
name they are merged : the name stands in the place of the first of them and has the value of the
last (`Merged`, `merged_renameAttributes`). Only Preact drops attributes
(`attributeName?_eq_none_iff`), and no new name has a colon (`colon_not_mem_attributeName?`).

`stage_merges` says this of all elements that a target leaves.
-/

namespace SvgComponent

/-! ## Capitals -/

namespace Text

theorem toNat_ofNat (n : Nat) : (Char.ofNat n).toNat = n ∨ (Char.ofNat n).toNat = 0 := by
  rw [Char.ofNat]
  by_cases hv : n.isValidChar
  · rw [dif_pos hv]
    exact .inl rfl
  · rw [dif_neg hv]
    exact .inr rfl

/-- A shift leads to a code that no range is shifted to only from that code. -/
theorem eq_of_shift_eq {shifts : List Shift} {n m : Nat} (hm : 0 < m)
    (hs : ∀ s ∈ shifts, (m : Int) < s.first + s.amount ∨ s.last + s.amount < (m : Int))
    (h : shift n shifts = m) : n = m := by
  induction shifts with
  | nil => exact h
  | cons s rest ih =>
    rw [List.forall_mem_cons] at hs
    rw [shift] at h
    split_ifs at h with hf hl
    · exact h
    · omega
    · exact ih hs.2 h

theorem mem_of_lookup {α β : Type} [BEq α] [LawfulBEq α] {a : α} {b : β} {l : List (α × β)}
    (h : l.lookup a = some b) : (a, b) ∈ l := by
  obtain ⟨before, after, rfl, -⟩ := List.lookup_eq_some_iff.1 h
  simp

/-- Capitals of other characters have no colon. -/
theorem colon_not_mem_toUpper {c : Char} (hc : c ≠ ':') : ':' ∉ toUpper c := by
  rw [toUpper]
  cases hl : upperSequences.lookup c.toNat with
  | some codes =>
    have hall : ∀ p ∈ upperSequences, ':' ∉ p.2.map Char.ofNat := by decide +kernel
    exact hall _ (mem_of_lookup hl)
  | none =>
    have hall : ∀ s ∈ upperShifts,
        (':'.toNat : Int) < s.first + s.amount ∨ s.last + s.amount < (':'.toNat : Int) := by
      decide +kernel
    intro hm
    have hcode := congrArg Char.toNat (List.mem_singleton.1 hm)
    rcases toNat_ofNat (shift c.toNat upperShifts) with hs | hs
    · have hn := eq_of_shift_eq (by decide) hall (hs.symm.trans hcode.symm)
      exact hc (Char.toNat_inj.1 hn)
    · exact absurd (hcode.trans hs) (by decide)

end Text

namespace Target

open Node

/-! ## New names -/

/-- The name that a target gives to an attribute, if it has one. -/
def attributeName? : Target → String → Option String
  | reactDom, name => some (reactAttribute name)
  | preact, name => preactAttribute? name
  | reactNative, name => some (reactAttribute name)
  | custom, name => some name

/-- Only Preact drops attributes, those with a colon but for links. -/
theorem attributeName?_eq_none_iff {target : Target} {name : String} :
    target.attributeName? name = none ↔
      target = preact ∧ ':' ∈ name.toList ∧ name ≠ "xlink:href" := by
  cases target with
  | reactDom | reactNative | custom => simp [attributeName?]
  | preact =>
    rw [attributeName?, preactAttribute?]
    split_ifs with hl hc
    · simp [hl]
    · simp [hl, List.contains_iff_mem.1 hc]
    · simp [mt List.contains_iff_mem.2 hc]

theorem colon_not_mem_foldColons (raise : Bool) (cs : List Char) : ':' ∉ foldColons raise cs := by
  induction cs generalizing raise with
  | nil => exact List.not_mem_nil
  | cons c cs ih =>
    rw [foldColons]
    split_ifs with hc hr
    · exact ih true
    · rw [List.mem_append, not_or]
      exact ⟨Text.colon_not_mem_toUpper hc, ih false⟩
    · rw [List.mem_append, not_or, List.mem_singleton]
      exact ⟨Ne.symm hc, ih false⟩

/-- The names of React have no colon. -/
theorem colon_not_mem_reactAttribute (name : String) : ':' ∉ (reactAttribute name).toList := by
  rw [reactAttribute]
  cases hl : reactAttributes.lookup name with
  | some renamed =>
    have hall : ∀ p ∈ reactAttributes, ':' ∉ p.2.toList := by decide +kernel
    exact hall _ (Text.mem_of_lookup hl)
  | none =>
    rw [String.toList_ofList]
    exact colon_not_mem_foldColons false name.toList

/-- No new name has a colon. -/
theorem colon_not_mem_attributeName? {target : Target} (ht : target ≠ custom)
    {name renamed : String} (h : target.attributeName? name = some renamed) :
    ':' ∉ renamed.toList := by
  cases target with
  | custom => exact absurd rfl ht
  | reactDom | reactNative =>
    cases h
    exact colon_not_mem_reactAttribute name
  | preact =>
    rw [attributeName?, preactAttribute?] at h
    split_ifs at h with hl hc
    · cases h
      decide
    · cases h
      exact mt List.contains_iff_mem.2 hc

/-! ## Merging -/

/-- Attributes that have got new names : each new name once, in the place of the first attribute
that gets it, with the value of the last one; those without a new name are not there. -/
structure Merged (rename : String → Option String) (old new : Attributes) : Prop where
  names : new.keys = (old.keys.filterMap rename).eraseDups
  values : ∀ name value, (name, value) ∈ new.entries ↔
    ∃ before source after, old.entries = before ++ (source, value) :: after ∧
      rename source = some name ∧ ∀ p ∈ after, rename p.1 ≠ some name

/-- Attributes that get one name are merged. -/
theorem merged_renameAttributes (rename : String → Option String) (old : Attributes) :
    Merged rename old (renameAttributes rename old) where
  names := by
    rw [renameAttributes, OrderedMap.keys_ofPairs, OrderedMap.keys, List.map_filterMap,
      List.filterMap_map]
    simp only [Option.map_map, Function.comp_def, Option.map_id']
  values name value := by
    rw [renameAttributes, OrderedMap.mem_entries_ofPairs_iff]
    constructor
    · rintro ⟨before, after, he, hn⟩
      obtain ⟨front, back, hold, -, hback⟩ := List.filterMap_eq_append_iff.1 he
      obtain ⟨skipped, ⟨source, v⟩, rest, rfl, -, hs, rfl⟩ := List.filterMap_eq_cons_iff.1 hback
      obtain ⟨_, hr, hp⟩ := Option.map_eq_some_iff.1 hs
      cases hp
      refine ⟨front ++ skipped, source, rest, by rw [hold, List.append_assoc], hr, ?_⟩
      intro p hp hpr
      refine hn (List.mem_map.2 ⟨(name, p.2), List.mem_filterMap.2 ⟨p, hp, ?_⟩, rfl⟩)
      rw [hpr, Option.map_some]
    · rintro ⟨before, source, after, he, hr, hn⟩
      let renamed (p : String × String) := (rename p.1).map fun name => (name, p.2)
      refine ⟨before.filterMap renamed, after.filterMap renamed, ?_, ?_⟩
      · have hsource : renamed (source, value) = some (name, value) :=
          congrArg (Option.map fun name => (name, value)) hr
        rw [he, List.filterMap_append, List.filterMap_cons_some hsource]
      · intro hm
        obtain ⟨q, hq, rfl⟩ := List.mem_map.1 hm
        obtain ⟨p, hp, hpq⟩ := List.mem_filterMap.1 hq
        obtain ⟨_, hpr, rfl⟩ := Option.map_eq_some_iff.1 hpq
        exact hn p hp hpr

/-- A target merges the attributes of a tag by its own names. -/
theorem merged_of_adaptTag {target : Target} (ht : target ≠ custom) {tag tag' : Tag}
    (h : target.adaptTag tag = some tag') :
    Merged target.attributeName? tag.attributes tag'.attributes := by
  cases target with
  | custom => exact absurd rfl ht
  | reactDom | preact =>
    cases h
    exact merged_renameAttributes _ _
  | reactNative =>
    obtain ⟨_, -, rfl⟩ := Option.map_eq_some_iff.1 h
    exact merged_renameAttributes _ _

/-! ## Stages -/

/-- An element whose attributes have got the names of a target, or a leaf as it was. -/
inductive Adapted (target : Target) : Node → Node → Prop
  | element {span : Span} {tag tag' : Tag} {children children' : List Node}
    (h : Merged target.attributeName? tag.attributes tag'.attributes) :
    Adapted target (.element span tag children) (.element span tag' children')
  | leaf {node : Node} (h : node.isElement = false) : Adapted target node node

/-- A target leaves a node, if need be because it has components for all elements around it. -/
def Leaves (target : Target) (document : Document) (address : Address) : Prop :=
  target = reactNative → HasComponents document address

/-- What a target leaves of a node has the names of the target. -/
theorem adapted_of_sift {target : Target} (ht : target ≠ custom) {node node' : Node}
    (hn : sift target.adaptTag (fun _ => true) node = some node') :
    Adapted target node node' := by
  cases node with
  | element span tag children =>
    rw [sift, Option.map_eq_some_iff] at hn
    obtain ⟨tag', htag, rfl⟩ := hn
    exact .element (merged_of_adaptTag ht htag)
  | text | cdata | comment | doctype | instruction =>
    cases hn
    exact .leaf rfl

/-- A target leaves a node if it leaves all those around it. -/
theorem leaves_iff {target : Target} {document : Document} {address : Address}
    {trail : List Node} (h : trail? document address = some trail) :
    target.Leaves document address ↔
      ∀ node ∈ trail, isLeft target.adaptTag (fun _ => true) node = true := by
  by_cases ht : target = reactNative
  · subst ht
    rw [Leaves, ← hasComponents_iff h]
    exact forall_prop_of_true rfl
  · refine iff_of_true (fun hn => absurd hn ht) fun node _ => ?_
    cases node with
    | element span tag children =>
      rw [isLeft, sift, Option.isSome_map]
      cases target with
      | reactNative => exact absurd rfl ht
      | reactDom | preact | custom => rfl
    | text | cdata | comment | doctype | instruction => rfl

/-- Each element that React, Preact or React Native leaves has its attributes merged under their new
names, of which none has a colon. Only Preact has no name for some, which are dropped : those with a
colon other than a link. -/
theorem stage_merges (context : Context) (document : Document) {target : Target}
    (ht : target ≠ custom) :
    (∃ after moved, target.stage.apply context document = .ok after ∧
      Remains (Adapted target) document after (target.Leaves document) moved ∧
      ∀ tag ∈ tagsAll after, ∀ name ∈ tag.attributes.keys, ':' ∉ name.toList) ∧
    ∀ name, target.attributeName? name = none ↔
      target = preact ∧ ':' ∈ name.toList ∧ name ≠ "xlink:href" := by
  refine ⟨⟨target.adapt document, moved (isLeft target.adaptTag fun _ => true) document, rfl, ?_,
    ?_⟩, fun _ => attributeName?_eq_none_iff⟩
  · rw [adapt_eq_siftAll ht]
    exact remains_siftAll (fun _ _ => leaves_iff) fun _ _ => adapted_of_sift ht
  · intro tag htag name hname
    rw [adapt_eq_siftAll ht] at htag
    obtain ⟨old, -, hold⟩ := exists_of_mem_tagsAll_siftAll document htag
    rw [(merged_of_adaptTag ht hold).names, List.mem_eraseDups] at hname
    obtain ⟨source, -, hs⟩ := List.mem_filterMap.1 hname
    exact colon_not_mem_attributeName? ht hs

/-- An element with two links and a namespace between them. -/
def linkedTwice : Document :=
  [.element {} ⟨"use", .ofPairs [("href", "#a"), ("xmlns:x", "u"), ("xlink:href", "#b")]⟩ []]

theorem stage_merges_linkedTwice :
    preact ≠ custom ∧ ∃ after moved, preact.stage.apply {} linkedTwice = .ok after ∧
      Remains (Adapted preact) linkedTwice after (preact.Leaves linkedTwice) moved ∧
      (tagsAll after).map (fun tag => tag.attributes.entries) = [[("href", "#b")]] := by
  obtain ⟨⟨after, moved, hs, hr, -⟩, -⟩ := @stage_merges {} linkedTwice preact (by decide)
  refine ⟨by decide, after, moved, hs, hr, ?_⟩
  cases hs
  decide

end Target

end SvgComponent
