import SvgComponent.Proofs.Text.Replacing
import SvgComponent.Proofs.Tree.Visiting
import SvgComponent.Stage.Builtin

/-!
# Prefixed ids and the references to them

An attribute refers to an id as the whole of a link, behind a `#`, or inside any other value in
one of the forms of a `url(…)` (`RefersTo`). It points to the elements that have that id
(`PointsTo`), which are told by their places in document order.

`prefixIds` rewrites ids, links and the form without quotes :

* `attributeAt_prefixAllIds_iff` : each attribute stays in its place, with its value prefixed;
* `refersTo_prefixValue_iff` : a value refers to a prefixed id exactly if it referred to the id;
* `keepsReferences_prefixIds` : so each attribute points to what it pointed to.

References in the forms with quotes are not rewritten and lose what they point to
(`not_forall_keepsReferences`).
-/

namespace SvgComponent

open Text

/-! ## References -/

/-- A way to write a reference inside a value : what stands in front of the id and behind it. -/
structure UrlForm where
  opening : List Char
  closing : List Char

namespace UrlForm

def plain : UrlForm := ⟨"url(#".toList, ")".toList⟩

def singleQuoted : UrlForm := ⟨"url('#".toList, "')".toList⟩

def doubleQuoted : UrlForm := ⟨"url(\"#".toList, "\")".toList⟩

/-- All forms that stand for a reference. -/
def all : List UrlForm := [plain, singleQuoted, doubleQuoted]

end UrlForm

/-- Whether the value of an attribute refers to an id. -/
def RefersTo (forms : List UrlForm) (name value id : String) : Prop :=
  if name = "href" ∨ name = "xlink:href" then value = "#" ++ id
  else name ≠ "id" ∧
    ∃ form ∈ forms, form.opening ++ (id.toList ++ form.closing) <:+: value.toList

instance (forms : List UrlForm) (name value id : String) :
    Decidable (RefersTo forms name value id) :=
  inferInstanceAs (Decidable (if name = "href" ∨ name = "xlink:href" then value = "#" ++ id
    else name ≠ "id" ∧
      ∃ form ∈ forms, form.opening ++ (id.toList ++ form.closing) <:+: value.toList))

/-- The element at a place, counted in document order, has an attribute. -/
def AttributeAt (document : Document) (i : Nat) (name value : String) : Prop :=
  ∃ tag, (Node.tagsAll document)[i]? = some tag ∧ (name, value) ∈ tag.attributes.entries

/-- An attribute of the element at a place refers to an id. -/
def RefersAt (forms : List UrlForm) (document : Document) (i : Nat) (name id : String) : Prop :=
  ∃ value, AttributeAt document i name value ∧ RefersTo forms name value id

/-- An attribute of the element at a place points to the element at another. -/
def PointsTo (forms : List UrlForm) (document : Document) (i : Nat) (name : String) (j : Nat) :
    Prop :=
  ∃ id, RefersAt forms document i name id ∧ AttributeAt document j "id" id

/-- A document with all values of attributes made empty. -/
def withoutValues (document : Document) : Document :=
  Node.mapTags
    (fun tag => some { tag with attributes := tag.attributes.mapValues fun _ _ => "" }) document

/-- A document is changed in values only, and all references point where they pointed. -/
structure KeepsReferences (forms : List UrlForm) (before after : Document) : Prop where
  shape : withoutValues after = withoutValues before
  points : ∀ i name j, PointsTo forms after i name j ↔ PointsTo forms before i name j

namespace Builtin

/-! ## Prefixed values -/

section Values

variable {front : String}

/-- A prefix without the mark of references brings none about. -/
theorem fenced_idPrefix {base path : Option String}
    (h : ¬ urlMark <:+: (idPrefix base path).toList) :
    Fenced urlMark (idPrefix base path).toList := by
  refine ⟨h, ?_⟩
  obtain ⟨text, ht⟩ : ∃ text : String, idPrefix base path = text ++ "__" := ⟨_, rfl⟩
  exact ⟨text.toList ++ ['_'], '_', by simp [ht], by decide⟩

theorem fenced_closing {id : String} (h : ¬ urlMark <:+: id.toList) :
    Fenced urlMark (id.toList ++ [')']) :=
  ⟨not_infix_append_cons (by decide) h (by decide), id.toList, ')', rfl, by decide⟩

/-- A link refers to an id with the prefix if it did so without. -/
theorem refersTo_link_iff (front name value id : String)
    (hn : name = "href" ∨ name = "xlink:href") :
    prefixValue front name value = "#" ++ (front ++ id) ↔ value = "#" ++ id := by
  have hid : name ≠ "id" := by
    rintro rfl
    revert hn
    decide
  have hvalue : value = "#" ++ id ↔ value.toList = '#' :: id.toList := by
    rw [← String.toList_inj, String.toList_append]
    rfl
  rw [prefixValue, if_neg hid, hvalue]
  split_ifs with hlink
  · obtain ⟨rest, hrest⟩ := List.head?_eq_some_iff.1 hlink.2
    rw [String.append_assoc, String.append_right_inj, String.append_right_inj, hrest,
      List.tail_cons, List.cons_inj_right, ← String.toList_inj, String.toList_ofList]
  · have hhead : value.toList.head? ≠ some '#' := fun h => hlink ⟨hn, h⟩
    refine iff_of_false (fun h => hhead ?_) fun h => hhead (by rw [h]; rfl)
    have hl : (replaceAll urlMark (urlMark ++ front.toList) value.toList).head? = some '#' := by
      rw [← @String.toList_ofList (replaceAll _ _ _), h, String.toList_append]
      rfl
    exact (@head?_replaceAll "url(".toList '#' (by decide) front.toList value.toList).symm.trans hl

/-- A prefixed value refers to a prefixed id exactly if the value referred to the id. -/
theorem refersTo_prefixValue_iff (hf : Fenced urlMark front.toList) {id : String}
    (hid : ¬ urlMark <:+: id.toList) (name value : String) :
    RefersTo [.plain] name (prefixValue front name value) (front ++ id) ↔
      RefersTo [.plain] name value id := by
  unfold RefersTo
  split_ifs with hlink
  · exact refersTo_link_iff front name value id hlink
  · refine and_congr_right fun hn => ?_
    have hv : (prefixValue front name value).toList =
        replaceAll urlMark (urlMark ++ front.toList) value.toList := by
      rw [prefixValue, if_neg hn, if_neg fun h => hlink h.1, String.toList_ofList]
    have h := @infix_replaceAll_iff "url(".toList '#' (by decide) _ _ hf (fenced_closing hid)
      value.toList
    simp only [List.mem_singleton, exists_eq_left, hv, String.toList_append, List.append_assoc]
    exact h

end Values

/-! ## Documents -/

/-- A tag with its values prefixed. -/
def prefixTag (front : String) (tag : Tag) : Tag :=
  { tag with attributes := tag.attributes.mapValues (prefixValue front) }

/-- Prefixes are put in tag by tag. -/
theorem prefixAllIds_eq (front : String) (document : Document) :
    prefixAllIds front document = Node.mapTags (fun tag => some (prefixTag front tag)) document :=
  rfl

/-- Nothing but values changes. -/
theorem withoutValues_prefixAllIds (front : String) (document : Document) :
    withoutValues (prefixAllIds front document) = withoutValues document := by
  rw [withoutValues, prefixAllIds_eq, Node.mapTags_mapTags, withoutValues]
  simp [prefixTag, OrderedMap.mapValues, Function.comp_def]

/-- Each attribute stays in its place, with its value prefixed. -/
theorem attributeAt_prefixAllIds_iff {front name value : String} {document : Document} {i : Nat} :
    AttributeAt (prefixAllIds front document) i name value ↔
      ∃ old, AttributeAt document i name old ∧ value = prefixValue front name old := by
  rw [AttributeAt, prefixAllIds_eq, Node.tagsAll_mapTags_some, List.getElem?_map]
  constructor
  · rintro ⟨_, hmap, hm⟩
    obtain ⟨tag, ht, rfl⟩ := Option.map_eq_some_iff.1 hmap
    obtain ⟨p, hp, he⟩ := List.mem_map.1 hm
    cases he
    exact ⟨p.2, ⟨tag, ht, hp⟩, rfl⟩
  · rintro ⟨old, ⟨tag, ht, hm⟩, rfl⟩
    exact ⟨prefixTag front tag, by rw [ht]; rfl, List.mem_map.2 ⟨(name, old), hm, rfl⟩⟩

/-- The ids are those of before, with the prefix in front. -/
theorem idAt_prefixAllIds_iff {front id : String} {document : Document} {j : Nat} :
    AttributeAt (prefixAllIds front document) j "id" id ↔
      ∃ old, AttributeAt document j "id" old ∧ id = front ++ old := by
  rw [attributeAt_prefixAllIds_iff]
  simp only [prefixValue, if_true]

/-- A reference leads to an id with the prefix if it led to the id before. -/
theorem refersAt_prefixAllIds_iff {front : String} (hf : Fenced urlMark front.toList) {id : String}
    (hid : ¬ urlMark <:+: id.toList) {document : Document} {i : Nat} {name : String} :
    RefersAt [.plain] (prefixAllIds front document) i name (front ++ id) ↔
      RefersAt [.plain] document i name id := by
  constructor
  · rintro ⟨_, hv, hr⟩
    obtain ⟨old, ho, rfl⟩ := attributeAt_prefixAllIds_iff.1 hv
    exact ⟨old, ho, (refersTo_prefixValue_iff hf hid name old).1 hr⟩
  · rintro ⟨old, ho, hr⟩
    exact ⟨_, attributeAt_prefixAllIds_iff.2 ⟨old, ho, rfl⟩,
      (refersTo_prefixValue_iff hf hid name old).2 hr⟩

/-- Where references point is decided by the ids, which are prefixed as the references are. -/
theorem pointsTo_prefixAllIds_iff {front : String} (hf : Fenced urlMark front.toList)
    {document : Document} (hids : ∀ j id, AttributeAt document j "id" id → ¬ urlMark <:+: id.toList)
    (i : Nat) (name : String) (j : Nat) :
    PointsTo [.plain] (prefixAllIds front document) i name j ↔
      PointsTo [.plain] document i name j := by
  constructor
  · rintro ⟨_, hr, hi⟩
    obtain ⟨id, hid, rfl⟩ := idAt_prefixAllIds_iff.1 hi
    exact ⟨id, (refersAt_prefixAllIds_iff hf (hids j id hid)).1 hr, hid⟩
  · rintro ⟨id, hr, hid⟩
    exact ⟨front ++ id, (refersAt_prefixAllIds_iff hf (hids j id hid)).2 hr,
      idAt_prefixAllIds_iff.2 ⟨id, hid, rfl⟩⟩

/-- Links and references without quotes point where they pointed, each to the same id, and
nothing but values is changed. Neither the prefix nor an id may look like a reference. -/
theorem keepsReferences_prefixIds (base : Option String) (context : Context) (document : Document)
    (hfront : ¬ urlMark <:+: (idPrefix base context.path).toList)
    (hids : ∀ tag ∈ Node.tagsAll document, ∀ p ∈ tag.attributes.entries,
      p.1 = "id" → ¬ urlMark <:+: p.2.toList) :
    KeepsReferences [.plain] document ((prefixIds base).apply context document) ∧
      ∀ i name id, ¬ urlMark <:+: id.toList →
        (RefersAt [.plain] ((prefixIds base).apply context document) i name
            (idPrefix base context.path ++ id) ↔
          RefersAt [.plain] document i name id) := by
  have hf := fenced_idPrefix hfront
  have hids' : ∀ j id, AttributeAt document j "id" id → ¬ urlMark <:+: id.toList := by
    rintro j id ⟨tag, ht, hm⟩
    exact hids tag (List.mem_of_getElem? ht) _ hm rfl
  refine ⟨⟨withoutValues_prefixAllIds _ document, ?_⟩, fun i name id hid => ?_⟩
  · exact pointsTo_prefixAllIds_iff hf hids'
  · exact refersAt_prefixAllIds_iff hf hid

/-- A document in which the fill of one element refers to another. -/
def gradientDocument (fill : String) : Document :=
  [.element {} ⟨"linearGradient", .ofPairs [("id", "a")]⟩ [],
    .element {} ⟨"rect", .ofPairs [("fill", fill)]⟩ []]

theorem keepsReferences_prefixIds_gradient :
    KeepsReferences [.plain] (gradientDocument "url(#a)")
      ((prefixIds (some "cog")).apply {} (gradientDocument "url(#a)")) :=
  (keepsReferences_prefixIds (some "cog") {} (gradientDocument "url(#a)") (by decide)
    (by decide)).1

/-- A reference in quotes is not rewritten, though the id is. -/
theorem not_forall_keepsReferences :
    ¬ ∀ (base : Option String) (context : Context) (document : Document),
      KeepsReferences UrlForm.all document ((prefixIds base).apply context document) := by
  intro h
  have hbefore : PointsTo UrlForm.all (gradientDocument "url('#a')") 1 "fill" 0 := by
    refine ⟨"a", ⟨"url('#a')", ⟨_, rfl, by decide⟩, ?_⟩, ⟨_, rfl, by decide⟩⟩
    exact ⟨by decide, .singleQuoted, by simp [UrlForm.all], by decide⟩
  have hafter : (prefixIds (some "cog")).apply {} (gradientDocument "url('#a')") =
      [.element {} ⟨"linearGradient", .ofPairs [("id", "cog__a")]⟩ [],
        .element {} ⟨"rect", .ofPairs [("fill", "url('#a')")]⟩ []] := by
    rfl
  have hpoints := ((h (some "cog") {} _).points 1 "fill" 0).2 hbefore
  rw [hafter] at hpoints
  obtain ⟨id, ⟨value, ⟨tag, ht, hm⟩, hr⟩, ⟨target, ht', hm'⟩⟩ := hpoints
  cases ht
  cases ht'
  replace hm : ("fill", value) ∈ [("fill", "url('#a')")] := hm
  replace hm' : ("id", id) ∈ [("id", "cog__a")] := hm'
  cases List.mem_singleton.1 hm
  cases List.mem_singleton.1 hm'
  revert hr
  decide

end Builtin

end SvgComponent
