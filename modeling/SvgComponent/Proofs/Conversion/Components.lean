import SvgComponent.Proofs.Component.Filling
import SvgComponent.Proofs.Conversion.Reformatting
import SvgComponent.Proofs.Jsx.Opening
import SvgComponent.Proofs.Pairs.Repeated
import SvgComponent.Proofs.Target.Elements

/-!
# Components and the text that uses them

The components of a rendered document are the names in it that start with a capital, each once, in
the order of first use (`components_of_render`). On React Native all elements that are left have the
names of components, and these are the tags that the text opens (`components_match`). The overrides
of the caller are written as they are; a tag that one of them holds is no component of the document.
-/

namespace SvgComponent

open Jsx Node

/-! ## Components of a document -/

namespace Jsx

/-- Noting components one by one gives each of them once. -/
theorem foldl_noteComponent (names : List String) :
    names.foldl noteComponent [] = (names.filter isComponent).eraseDups := by
  induction names using List.reverseRecOn with
  | nil => rfl
  | append_singleton names name ih =>
    rw [List.foldl_append, List.foldl_cons, List.foldl_nil, ih, noteComponent, List.filter_append]
    cases hc : isComponent name with
    | false => simp [hc]
    | true =>
      rw [List.filter_cons_of_pos hc, List.filter_nil, eraseDups_concat]
      generalize names.filter isComponent = used
      by_cases hm : name ∈ used <;> simp [hm]

/-- The components of a rendered document are those of its tags, each once. -/
theorem components_of_render {document : Document} {overrides : Option Overrides}
    {rendered : Rendered} (h : render document overrides = .ok rendered) :
    rendered.components = (((tagsAll document).map Tag.name).filter isComponent).eraseDups := by
  rw [render_eq] at h
  cases ho : outcome [] (tagsAll document) (wrap (writtenParts overrides document)) with
  | error fault =>
    rw [ho] at h
    cases h
  | ok p =>
    rw [ho] at h
    obtain ⟨-, -, hc⟩ := outcome_eq_ok_iff.1 ho
    cases h
    exact hc.symm.trans (foldl_noteComponent _)

end Jsx

/-! ## Native components -/

namespace Target

/-- The name of a native component can be written, told from the text around it, and is listed. -/
theorem isComponent_of_native {name component : String} (h : (name, component) ∈ nativeElements) :
    isWritable component = true ∧ component.toList.head? ≠ some '*' ∧
      isComponent component = true := by
  have hall : ∀ p ∈ nativeElements, isWritable p.2 = true ∧ p.2.toList.head? ≠ some '*' ∧
      isComponent p.2 = true := by decide +kernel
  exact hall _ h

/-- All tags that are left for native targets are native components. -/
theorem exists_native_of_mem_adapt {document : Document} {tag : Tag}
    (h : tag ∈ tagsAll (reactNative.adapt document)) :
    ∃ name, (name, tag.name) ∈ nativeElements := by
  rw [adapt_eq_siftAll (by decide)] at h
  obtain ⟨old, -, ht⟩ := exists_of_mem_tagsAll_siftAll _ h
  obtain ⟨component, hc, rfl⟩ := Option.map_eq_some_iff.1 ht
  exact ⟨old.name, nativeElement?_eq_some_iff.1 hc⟩

end Target

/-! ## Conversions -/

/-- What is converted is the rendering of a document that the target has adapted. -/
theorem exists_render_of_convert {request : ConversionRequest} {target : Target}
    {rendered : Rendered} (ht : Target.ofName? request.target = some target)
    (h : request.convert Optimizer.pipeline = .ok rendered) :
    ∃ document, render (target.adapt document) request.overrides = .ok rendered := by
  obtain ⟨_, document, -, -, hr⟩ := (convert_eq_ok_iff ht).1 h
  exact ⟨document, hr⟩

/-- A document that is read and rendered is converted. -/
theorem convert_requestOf_eq_ok {source : List Char} {document : Document}
    (hp : Markup.parse source = .ok document) (file : String) {name : String} {target : Target}
    (ht : Target.ofName? name = some target) (stages : List Builtin) {overrides : Option Overrides}
    {rendered : Rendered}
    (hr : render (target.adapt (Builtin.applyAll stages ⟨some file⟩ document)) overrides =
      .ok rendered) :
    (requestOf source file name stages overrides).convert Optimizer.pipeline = .ok rendered := by
  rw [convert_requestOf hp, ht]
  simp only [hr]

/-- The components of a document are the names in it that start with a capital, each once, in the
order of first use. When a source is converted for React Native, they are the tags that the text
opens outside of the overrides, all are native components, and the default template imports them. -/
theorem components_match :
    (∀ (document : Document) (overrides : Option Overrides) (rendered : Rendered),
      render document overrides = .ok rendered →
        rendered.components =
          (((tagsAll document).map Tag.name).filter isComponent).eraseDups) ∧
    ∀ (request : ConversionRequest) (rendered : Rendered),
      Target.ofName? request.target = some .reactNative →
      request.convert Optimizer.pipeline = .ok rendered →
        (∃ own : String,
          Woven (request.overrides.getD .empty) own.toList rendered.text.toList ∧
          rendered.components = (opened own).eraseDups) ∧
        ((∀ entry ∈ (request.overrides.getD .empty).entries, IsInert entry) →
          rendered.components = (opened rendered.text).eraseDups) ∧
        (∀ name ∈ rendered.components, name ∈ Target.nativeElements.map Prod.snd) ∧
        ∀ content : Component.Content, content.target = .reactNative →
          content.jsx = rendered.text → content.components = rendered.components →
          content.text none =
            "// Generated from " ++ content.sourceFile ++ "\n\nimport \x7b" ++
              ", ".intercalate rendered.components ++
              "\x7d from 'react-native-svg'\n\nexport const " ++ content.componentName ++
              " = (props) => \x7b\n  return (\n    " ++ rendered.text ++ "\n  );\n\x7d\n" := by
  refine ⟨fun _ _ _ => components_of_render, fun request rendered ht h => ?_⟩
  obtain ⟨document, hr⟩ := exists_render_of_convert ht h
  obtain ⟨hf, htext⟩ := of_render_eq_ok hr
  have hnative {tag : Tag} (hm : tag ∈ tagsAll (Target.reactNative.adapt document)) :=
    Target.exists_native_of_mem_adapt hm
  have hopenable : ∀ tag ∈ tagsAll (Target.reactNative.adapt document), Openable tag := by
    intro tag hm
    obtain ⟨name, hn⟩ := hnative hm
    obtain ⟨hw, hhead, -⟩ := Target.isComponent_of_native hn
    exact ⟨legible_of_tagFault? hw (hf tag hm), hhead⟩
  have hcomponents : rendered.components =
      ((tagsAll (Target.reactNative.adapt document)).map Tag.name).eraseDups := by
    rw [components_of_render hr, List.filter_eq_self.2]
    intro name hm
    obtain ⟨tag, ht, rfl⟩ := List.mem_map.1 hm
    obtain ⟨old, hn⟩ := hnative ht
    exact (Target.isComponent_of_native hn).2.2
  refine ⟨?_, fun hinert => ?_, fun name hm => ?_, fun content hc hj hl => ?_⟩
  · obtain ⟨own, hwoven, hopened⟩ := exists_woven_opened request.overrides hopenable
    rw [htext, hcomponents]
    exact ⟨own, hwoven, by rw [hopened]⟩
  · rw [hcomponents, htext, opened_wrap hinert hopenable]
  · rw [hcomponents, List.mem_eraseDups, List.mem_map] at hm
    obtain ⟨tag, ht, rfl⟩ := hm
    obtain ⟨old, hn⟩ := hnative ht
    exact List.mem_map_of_mem hn
  · rw [Component.text_default_reactNative hc, hj, hl]

theorem components_match_spread :
    ∃ (request : ConversionRequest) (rendered : Rendered),
      Target.ofName? request.target = some .reactNative ∧
      request.convert Optimizer.pipeline = .ok rendered ∧
      rendered.text = "<Svg \x7b...props\x7d><Path /></Svg>" ∧
      rendered.components = ["Svg", "Path"] ∧
      rendered.components = (opened rendered.text).eraseDups := by
  have ht : Target.ofName? "react-native-svg" = some .reactNative := by decide
  have hp : Markup.parse "<svg><path/><a/></svg>".toList = .ok [.element ⟨0, 22⟩ ⟨"svg", .empty⟩
      [.element ⟨5, 12⟩ ⟨"path", .empty⟩ [], .element ⟨12, 16⟩ ⟨"a", .empty⟩ []]] := by
    with_unfolding_all rfl
  have hr : render (Target.reactNative.adapt [.element ⟨0, 22⟩ ⟨"svg", .empty⟩
      [.element ⟨5, 12⟩ ⟨"path", .empty⟩ [], .element ⟨12, 16⟩ ⟨"a", .empty⟩ []]])
      (some ⟨[("\x7b...props\x7d", none)], by decide⟩) =
      .ok ⟨"<Svg \x7b...props\x7d><Path /></Svg>", ["Svg", "Path"]⟩ := by
    with_unfolding_all rfl
  have hc := convert_requestOf_eq_ok hp "a.svg" ht [] hr
  refine ⟨_, _, ht, hc, rfl, rfl, (components_match.2 _ _ ht hc).2.1 ?_⟩
  intro entry he
  cases List.mem_singleton.1 he
  exact ⟨by decide, fun _ h => by cases h⟩

/-- An override can hold a tag of its own. -/
theorem not_forall_opened_mem_components :
    ¬ ∀ (request : ConversionRequest) (rendered : Rendered),
      Target.ofName? request.target = some .reactNative →
      request.convert Optimizer.pipeline = .ok rendered →
        ∀ name ∈ opened rendered.text, name ∈ rendered.components := by
  intro h
  have ht : Target.ofName? "react-native-svg" = some .reactNative := by decide
  have hp : Markup.parse "<svg/>".toList = .ok [.element ⟨0, 6⟩ ⟨"svg", .empty⟩ []] := by
    with_unfolding_all rfl
  have hr : render (Target.reactNative.adapt [.element ⟨0, 6⟩ ⟨"svg", .empty⟩ []])
      (some ⟨[("children", some "\x7b<Circle />\x7d")], by decide⟩) =
      .ok ⟨"<Svg children=\x7b<Circle />\x7d />", ["Svg"]⟩ := by
    with_unfolding_all rfl
  have hopened : opened "<Svg children=\x7b<Circle />\x7d />" = ["Svg", "Circle"] := by
    with_unfolding_all rfl
  have hc := convert_requestOf_eq_ok hp "a.svg" ht [] hr
  have hcircle := h _ _ ht hc "Circle" (by simp [hopened])
  simp at hcircle

end SvgComponent
