import SvgComponent.Proofs.Conversion.Pipeline
import SvgComponent.Proofs.Markup.Reformatting
import SvgComponent.Proofs.Tree.Spans

/-!
# Converting a reformatted source

A conversion depends on the document that its source is read as, and there on everything but
the spans (`convert_eq_of_bareAll`). So gaps that are put between the tokens of a source do not
change what it is converted to (`convert_reformatted`).
-/

namespace SvgComponent

open Markup

/-! ## What a conversion depends on -/

/-- What built-in stages make of a document, one after the other. -/
def Builtin.applyAll (stages : List Builtin) (context : Context) (document : Document) :
    Document :=
  stages.foldl (fun document stage => stage.apply context document) document

/-- Built-in stages do not fail. -/
theorem Stage.runAll_toStage (stages : List Builtin) (context : Context) (document : Document) :
    Stage.runAll context (stages.map Builtin.toStage) document =
      .ok (Builtin.applyAll stages context document) := by
  induction stages generalizing document with
  | nil => rfl
  | cons stage rest ih => exact ih (stage.apply context document)

theorem Builtin.applyAll_bareAll (stages : List Builtin) (context : Context)
    (document : Document) :
    applyAll stages context (bareAll document) = bareAll (applyAll stages context document) := by
  induction stages generalizing document with
  | nil => rfl
  | cons stage rest ih =>
    have hstage := apply_bareAll stage context document
    exact (congrArg (applyAll rest context) hstage).trans (ih (stage.apply context document))

/-- The request to convert a source with built-in stages. -/
def requestOf (source : List Char) (file target : String) (stages : List Builtin)
    (overrides : Option Jsx.Overrides) : ConversionRequest where
  file := file
  svg := String.ofList source
  target := target
  overrides := overrides
  stages := stages.map Builtin.toStage

/-- A source that can be read is converted to what its document is rendered as. -/
theorem convert_requestOf {source : List Char} {document : Document}
    (hp : parse source = .ok document) (file name : String) (stages : List Builtin)
    (overrides : Option Jsx.Overrides) :
    (requestOf source file name stages overrides).convert Optimizer.pipeline =
      match Target.ofName? name with
      | none => .error (.unknownTarget name)
      | some target =>
        match Jsx.render (target.adapt (Builtin.applyAll stages ⟨some file⟩ document))
            overrides with
        | .ok rendered => .ok rendered
        | .error fault => .error (.render fault file) := by
  have hread : parse (String.ofList source).toList = .ok document := by
    rwa [String.toList_ofList]
  rw [convert_pipeline]
  cases ht : Target.ofName? name with
  | none => simp only [requestOf, ht]
  | some target =>
    cases hr : Jsx.render (target.adapt (Builtin.applyAll stages ⟨some file⟩ document))
        overrides with
    | error fault => simp only [requestOf, ht, hread, Stage.runAll_toStage, hr]
    | ok rendered => simp only [requestOf, ht, hread, Stage.runAll_toStage, hr]

/-- Sources with the same document, apart from spans, are converted to the same. -/
theorem convert_eq_of_bareAll {source other : List Char} {document reread : Document}
    (hp : parse source = .ok document) (hp' : parse other = .ok reread)
    (h : bareAll reread = bareAll document) (file name : String) (stages : List Builtin)
    (overrides : Option Jsx.Overrides) :
    (requestOf other file name stages overrides).convert Optimizer.pipeline =
      (requestOf source file name stages overrides).convert Optimizer.pipeline := by
  have hrender : ∀ target : Target,
      Jsx.render (target.adapt (Builtin.applyAll stages ⟨some file⟩ reread)) overrides =
        Jsx.render (target.adapt (Builtin.applyAll stages ⟨some file⟩ document)) overrides := by
    intro target
    rw [← Jsx.render_bareAll, ← Target.adapt_bareAll, ← Builtin.applyAll_bareAll, h,
      Builtin.applyAll_bareAll, Target.adapt_bareAll, Jsx.render_bareAll]
  rw [convert_requestOf hp, convert_requestOf hp']
  simp only [hrender]

/-! ## Reformatting -/

/-- Gaps between the tokens of a source, where no open element keeps its blanks, change
neither the document that is read, apart from spans, nor what it is converted to. -/
theorem convert_reformatted {source other : List Char} {document : Document}
    (hm : source.head? ≠ some byteOrderMark) (hp : parse source = .ok document)
    (h : Spaced [] (tokensOf source) other) :
    (∃ reread, parse other = .ok reread ∧ bareAll reread = bareAll document) ∧
      ∀ (file target : String) (stages : List Builtin) (overrides : Option Jsx.Overrides),
        (requestOf other file target stages overrides).convert Optimizer.pipeline =
          (requestOf source file target stages overrides).convert Optimizer.pipeline := by
  obtain ⟨reread, hp', hb⟩ := parse_spaced hm hp h
  exact ⟨⟨reread, hp', hb⟩, convert_eq_of_bareAll hp hp' hb⟩

/-- Gaps beside a text, around an element that keeps its blanks, and behind the last token. -/
theorem convert_reformatted_around_text :
    (∃ reread, parse "<g>\na <text> </text>\t</g>\r\n".toList = .ok reread ∧
      bareAll reread = [.element {} ⟨"g", .empty⟩
        [.text {} "a", .element {} ⟨"text", .empty⟩ [.text {} " "]]]) ∧
      ∀ stages,
        (requestOf "<g>\na <text> </text>\t</g>\r\n".toList "a.svg" "react-native-svg" stages
          none).convert Optimizer.pipeline =
        (requestOf "<g>a<text> </text></g>".toList "a.svg" "react-native-svg" stages
          none).convert Optimizer.pipeline := by
  have hp : parse "<g>a<text> </text></g>".toList = .ok [.element ⟨0, 22⟩ ⟨"g", .empty⟩
      [.text ⟨3, 4⟩ "a", .element ⟨4, 18⟩ ⟨"text", .empty⟩ [.text ⟨10, 11⟩ " "]]] := by
    with_unfolding_all rfl
  have ht : tokensOf "<g>a<text> </text></g>".toList = [.opening ['g'], .text ['a'],
      .opening "text".toList, .text [' '], .closing "text".toList, .closing ['g']] := by
    with_unfolding_all rfl
  have hs : Spaced [] [.opening ['g'], .text ['a'], .opening "text".toList, .text [' '],
      .closing "text".toList, .closing ['g']] ([] ++ (_ ++ (['\n'] ++ (_ ++ ([' '] ++ (_ ++ ([] ++
        (_ ++ ([] ++ (_ ++ (['\t'] ++ (_ ++ ['\r', '\n'])))))))))))) :=
    .cons (by decide) (.cons (by decide) (.cons (by decide) (.cons (by decide)
      (.cons (by decide) (.cons (by decide) (.nil (by decide)))))))
  obtain ⟨⟨reread, hr, hb⟩, hc⟩ := convert_reformatted (by decide) hp (ht ▸ hs)
  exact ⟨⟨reread, hr, hb⟩, fun stages => hc "a.svg" "react-native-svg" stages none⟩

end SvgComponent
