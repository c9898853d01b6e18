import SvgComponent.Proofs.Conversion.Components
import SvgComponent.Proofs.Jsx.Names
import SvgComponent.Proofs.Target.Attributes

/-!
# The names of attributes in a conversion

Each attribute in the text of a conversion has the name that the target has given to an attribute of
the document (`exists_of_mem_attributeNames_adapt`). The names that JSX has for attributes remain
such names, those of ASCII characters at least (`isAttributeName_of_attributeName?`), and a document
is refused if one of its names is empty or holds a blank or a delimiter. Nothing else is asked of a
name : one that is malformed in another way is written as it is, so that the names in the text are
those JSX has but for the malformed ones (`attributeNames_of_convert`).
-/

namespace SvgComponent

open Jsx Node

/-! ## Names that a target gives -/

namespace Target

/-- Capitals of the letters of ASCII are letters. -/
theorem isIdentifierPart_of_mem_toUpper {c d : Char} (hc : Text.isIdentifierStart c = true)
    (ha : c.toNat < 0x80) (hd : d ∈ Text.toUpper c) : Text.isIdentifierPart d = true := by
  have hall : ∀ n < 0x80, Text.isIdentifierStart (Char.ofNat n) = true →
      (Text.toUpper (Char.ofNat n)).all Text.isIdentifierPart = true := by decide +kernel
  have hn := hall c.toNat ha
  rw [Char.ofNat_toNat] at hn
  exact List.all_eq_true.1 (hn hc) d hd

/-- A name without colons is left as it is. -/
theorem foldColons_of_not_mem {cs : List Char} (h : ':' ∉ cs) : foldColons false cs = cs := by
  induction cs with
  | nil => rfl
  | cons c cs ih =>
    rw [List.mem_cons, not_or] at h
    rw [foldColons, if_neg (Ne.symm h.1), ih h.2]
    rfl

/-- The letter behind a colon is raised in its place. -/
theorem foldColons_colon {space : List Char} (hs : ':' ∉ space) {c : Char} (hc : c ≠ ':')
    {rest : List Char} (hr : ':' ∉ rest) :
    foldColons false (space ++ ':' :: c :: rest) = space ++ (Text.toUpper c ++ rest) := by
  induction space with
  | nil => simp [foldColons, hc, foldColons_of_not_mem hr]
  | cons d space ih =>
    rw [List.mem_cons, not_or] at hs
    rw [List.cons_append, foldColons, if_neg (Ne.symm hs.1), ih hs.2]
    rfl

/-- React has a name that JSX has for each one that JSX has, of ASCII characters. -/
theorem isAttributeName_reactAttribute {name : String} (h : IsAttributeName name)
    (ha : ∀ c ∈ name.toList, c.toNat < 0x80) : IsAttributeName (reactAttribute name) := by
  rw [reactAttribute]
  cases hl : reactAttributes.lookup name with
  | some renamed =>
    have hall : ∀ p ∈ reactAttributes, p.2.toList.head?.any Text.isIdentifierStart = true ∧
        p.2.toList.all Text.isIdentifierPart = true := by decide +kernel
    obtain ⟨hstart, hpart⟩ := hall _ (Text.mem_of_lookup hl)
    exact .inl (.of_all hstart hpart)
  | none =>
    left
    rw [String.toList_ofList]
    obtain hi | ⟨space, rest, he, hs, hr⟩ := h
    · rwa [foldColons_of_not_mem hi.colon_not_mem]
    · have hrest := hr.colon_not_mem
      obtain ⟨d, outer, rfl, hd, houter⟩ := hr
      rw [List.mem_cons, not_or] at hrest
      rw [he, foldColons_colon hs.colon_not_mem (Ne.symm hrest.1) hrest.2]
      refine hs.append fun e hm => ?_
      rcases List.mem_append.1 hm with hm | hm
      · exact .inl (isIdentifierPart_of_mem_toUpper hd (ha d (by simp [he])) hm)
      · exact houter e hm

/-- A name that JSX has gets one that JSX has. -/
theorem isAttributeName_of_attributeName? {target : Target} {name renamed : String}
    (h : IsAttributeName name) (ha : ∀ c ∈ name.toList, c.toNat < 0x80)
    (hr : target.attributeName? name = some renamed) : IsAttributeName renamed := by
  cases target with
  | reactDom | reactNative =>
    cases hr
    exact isAttributeName_reactAttribute h ha
  | preact =>
    rw [attributeName?, preactAttribute?] at hr
    split_ifs at hr with hl
    · cases hr
      exact .inl (.of_all (by decide) (by decide))
    · cases hr
      exact h
  | custom =>
    cases hr
    exact h

/-- The names of attributes that a target leaves are those it has for the attributes there were. -/
theorem exists_of_mem_attributeNames_adapt {target : Target} {document : Document} {name : String}
    (h : name ∈ attributeNames (target.adapt document)) :
    ∃ old ∈ attributeNames document, target.attributeName? old = some name := by
  by_cases ht : target = custom
  · subst ht
    exact ⟨name, h, rfl⟩
  · obtain ⟨tag, htag, hname⟩ := List.mem_flatMap.1 h
    rw [adapt_eq_siftAll ht] at htag
    obtain ⟨old, hmem, hold⟩ := exists_of_mem_tagsAll_siftAll document htag
    rw [(merged_of_adaptTag ht hold).names, List.mem_eraseDups] at hname
    obtain ⟨source, hsource, hs⟩ := List.mem_filterMap.1 hname
    exact ⟨source, List.mem_flatMap.2 ⟨old, hmem, hsource⟩, hs⟩

end Target

/-! ## Conversions -/

/-- The attributes in the text of a conversion have the names that the target leaves, unless the
name of an element cannot be told from the text. None of them is empty or holds a blank or a
delimiter, and each is a name that JSX has unless it is malformed in another way; all are such names
if those of the document are, of ASCII characters. A name that is empty or holds a blank or a
delimiter makes the document be refused, for such a name or for an element without a name; a name
that JSX has does not. -/
theorem attributeNames_of_convert {request : ConversionRequest} {target : Target}
    (ht : Target.ofName? request.target = some target) (ho : request.overrides = none) :
    (∀ rendered, request.convert Optimizer.pipeline = .ok rendered →
      ∃ source document, Markup.parse request.svg.toList = .ok source ∧
        Stage.runAll ⟨some request.file⟩ request.stages source = .ok document ∧
        ((∀ tag ∈ tagsAll (target.adapt document), isWritable tag.name = true) →
          attributeNames? rendered.text = some (attributeNames (target.adapt document))) ∧
        (∀ name ∈ attributeNames (target.adapt document),
          ¬ IsUnwritable name ∧ (IsAttributeName name ↔ ¬ IsMalformed name)) ∧
        ((∀ name ∈ attributeNames document,
            IsAttributeName name ∧ ∀ c ∈ name.toList, c.toNat < 0x80) →
          ∀ name ∈ attributeNames (target.adapt document), IsAttributeName name)) ∧
    (∀ source document, Markup.parse request.svg.toList = .ok source →
      Stage.runAll ⟨some request.file⟩ request.stages source = .ok document →
      (∃ name ∈ attributeNames (target.adapt document), IsUnwritable name) →
        (∃ element name, name ∈ attributeNames (target.adapt document) ∧ IsUnwritable name ∧
          request.convert Optimizer.pipeline =
            .error (.render (.badAttribute element name) request.file)) ∨
        ((∃ tag ∈ tagsAll (target.adapt document), tag.name = "") ∧
          request.convert Optimizer.pipeline = .error (.render .emptyName request.file))) ∧
    ∀ name, IsAttributeName name → ¬ IsUnwritable name := by
  refine ⟨fun rendered h => ?_, fun source document hp hs ⟨name, hm, hw⟩ => ?_, fun name h => ?_⟩
  · obtain ⟨source, document, hp, hs, hr⟩ := (convert_eq_ok_iff ht).1 h
    rw [ho] at hr
    obtain ⟨hf, htext⟩ := of_render_eq_ok hr
    refine ⟨source, document, hp, hs, fun hn => ?_, fun name hm => ?_, fun hall name hm => ?_⟩
    · rw [htext]
      exact attributeNames?_wrap fun tag hm => legible_of_tagFault? (hn tag hm) (hf tag hm)
    · obtain ⟨tag, htag, hname⟩ := List.mem_flatMap.1 hm
      have hw := isWritable_of_mem_keys (hf tag htag) hname
      rw [← isWritable_eq_false_iff, hw]
      exact ⟨Bool.noConfusion, isAttributeName_iff hw⟩
    · obtain ⟨old, hold, hr⟩ := Target.exists_of_mem_attributeNames_adapt hm
      exact Target.isAttributeName_of_attributeName? (hall old hold).1 (hall old hold).2 hr
  · obtain ⟨tag, htag, hname⟩ := List.mem_flatMap.1 hm
    obtain ⟨fault, hr⟩ := exists_render_eq_error none htag (.inr ⟨name, hname, hw⟩)
    have hc : request.convert Optimizer.pipeline = .error (.render fault request.file) := by
      rw [convert_pipeline, ht]
      simp only [hp, hs, ho, hr]
    obtain ⟨other, hother, hfails⟩ := exists_of_render_eq_error hr
    cases hfails with
    | emptyName he => exact .inr ⟨⟨other, hother, he⟩, hc⟩
    | @badAttribute _ _ bad value _ he hbad _ =>
      refine .inl ⟨other.name, bad, List.mem_flatMap.2 ⟨other, hother, ?_⟩, hbad, hc⟩
      rw [OrderedMap.keys, he]
      simp
  · rw [← isWritable_eq_false_iff, isWritable_of_isAttributeName h]
    exact Bool.noConfusion

theorem attributeNames_of_convert_link :
    ∃ (request : ConversionRequest) (rendered : Rendered),
      Target.ofName? request.target = some .reactDom ∧ request.overrides = none ∧
      request.convert Optimizer.pipeline = .ok rendered ∧
      attributeNames? rendered.text = some ["xlinkHref", "data-1"] ∧
      ∀ name ∈ ["xlinkHref", "data-1"], IsAttributeName name := by
  have ht : Target.ofName? "react-dom" = some .reactDom := by decide
  have hp : Markup.parse "<use xlink:href='#' data-1=''/>".toList =
      .ok [.element ⟨0, 31⟩ ⟨"use", .ofPairs [("xlink:href", "#"), ("data-1", "")]⟩ []] := by
    with_unfolding_all rfl
  have hr : render (Target.reactDom.adapt
      [.element ⟨0, 31⟩ ⟨"use", .ofPairs [("xlink:href", "#"), ("data-1", "")]⟩ []]) none =
      .ok ⟨"<use xlinkHref=\"#\" data-1=\"\" />", []⟩ := by
    with_unfolding_all rfl
  have hc := convert_requestOf_eq_ok hp "a.svg" ht [] hr
  obtain ⟨source, document, hs, hd, hnames, -, hjsx⟩ := (attributeNames_of_convert ht rfl).1 _ hc
  cases (String.toList_ofList ▸ hs).symm.trans hp
  cases hd
  refine ⟨_, _, ht, rfl, hc, hnames (by decide), hjsx ?_⟩
  have hlink : IsAttributeName "xlink:href" :=
    .inr ⟨"xlink".toList, "href".toList, rfl, .of_all (by decide) (by decide),
      .of_all (by decide) (by decide)⟩
  have hparts : "ata-1".toList.all (fun d => Text.isIdentifierPart d || d = '-') = true := by decide
  have hdata : IsAttributeName "data-1" :=
    .inl ⟨'d', "ata-1".toList, rfl, by decide, fun d hd => by
      simpa using List.all_eq_true.1 hparts d hd⟩
  have hascii {name : String} (h : name.toList.all (·.toNat < 0x80) = true) :
      ∀ c ∈ name.toList, c.toNat < 0x80 := fun c hc => by simpa using List.all_eq_true.1 h c hc
  rintro name (⟨⟩ | ⟨-, ⟨⟩ | ⟨-, ⟨⟩⟩⟩)
  · exact ⟨hlink, hascii (by decide)⟩
  · exact ⟨hdata, hascii (by decide)⟩

/-- A name that starts with a mark is written as it is. -/
theorem not_forall_isAttributeName :
    ¬ ∀ (request : ConversionRequest) (target : Target) (rendered : Rendered),
      Target.ofName? request.target = some target → request.overrides = none →
      request.convert Optimizer.pipeline = .ok rendered →
        ∀ names, attributeNames? rendered.text = some names →
          ∀ name ∈ names, IsAttributeName name := by
  intro h
  have ht : Target.ofName? "react-dom" = some .reactDom := by decide
  have hp : Markup.parse "<svg @click=\"x\"/>".toList =
      .ok [.element ⟨0, 17⟩ ⟨"svg", .ofPairs [("@click", "x")]⟩ []] := by
    with_unfolding_all rfl
  have hr : render (Target.reactDom.adapt
      [.element ⟨0, 17⟩ ⟨"svg", .ofPairs [("@click", "x")]⟩ []]) none =
      .ok ⟨"<svg @click=\"x\" />", []⟩ := by
    with_unfolding_all rfl
  have hn : attributeNames? "<svg @click=\"x\" />" = some ["@click"] := by
    with_unfolding_all rfl
  have hc := convert_requestOf_eq_ok hp "a.svg" ht [] hr
  refine (isAttributeName_iff (by decide)).1 (h _ _ _ ht rfl hc _ hn "@click" (by simp)) ?_
  exact .start rfl (by decide)

end SvgComponent
