import SvgComponent.Component.Naming
import SvgComponent.Proofs.Path.Joining

/-!
# Stems and the files named after them

The stem of a file name starts it, so that it is a name as well (`isName_stem`). The file that
a component is written to is the stem with the extension : it is a name if the extension holds no
slash (`isName_outputFile`), and two files of one extension have the same name exactly if the
stems are the same (`outputFile_inj`).
-/

namespace SvgComponent

namespace Path

/-- A stem is the start of its name, and not empty unless that is. -/
theorem splitExtension_starts (name : String) :
    (splitExtension name).1.toList <+: name.toList ∧
      (name ≠ "" → (splitExtension name).1 ≠ "") := by
  rw [splitExtension]
  split_ifs with hdots
  · exact ⟨List.prefix_refl _, id⟩
  dsimp only
  split
  · rename_i c before hd
    split_ifs with hb
    · exact ⟨List.prefix_refl _, id⟩
    · have hcut := List.takeWhile_append_dropWhile (p := (· ≠ '.')) (l := name.toList.reverse)
      rw [hd] at hcut
      have hname := congrArg List.reverse hcut
      rw [List.reverse_reverse, List.reverse_append, List.reverse_cons, List.append_assoc] at hname
      refine ⟨⟨_, by rw [String.toList_ofList]; exact hname⟩, fun _ he => hb ?_⟩
      rw [← String.toList_inj, String.toList_ofList] at he
      exact List.reverse_eq_nil_iff.1 he
  · exact ⟨List.prefix_refl _, id⟩

/-- A name is its own last part. -/
theorem eq_of_fileName {name file : String} (h : IsName name) (hf : fileName name = some file) :
    file = name := by
  have hcomponents : components name =
      if name.toList = ['.'] then [.current] else (partComponent? name.toList).toList := by
    rw [components, splitSlashes_of_no_slash h.no_slash]
    dsimp only
    rw [if_neg h.not_isAbsolute, List.filterMap_nil, List.append_nil]
  rw [fileName, hcomponents] at hf
  split_ifs at hf with hdot
  · cases hf
  · rw [partComponent?] at hf
    split_ifs at hf with hidle hdots
    · cases hf
    · cases hf
    · cases hf
      exact String.ofList_toList

/-- The stem of a name starts it, and is a name. -/
theorem stem_of_isName {name : String} (h : IsName name) :
    (stem name).toList <+: name.toList ∧ stem name ≠ "" := by
  rw [stem]
  cases hf : fileName name with
  | none => exact ⟨List.prefix_refl _, h.ne_empty⟩
  | some file =>
    obtain ⟨hstarts, hne⟩ := splitExtension_starts name
    rw [eq_of_fileName h hf]
    exact ⟨hstarts, hne h.ne_empty⟩

/-- The stem of a name is a name. -/
theorem isName_stem {name : String} (h : IsName name) : IsName (stem name) :=
  ⟨(stem_of_isName h).2, fun hs => h.no_slash ((stem_of_isName h).1.subset hs)⟩

end Path

namespace Component

open SvgComponent.Path

/-- A component has the stem of its file and the extension. -/
theorem toList_outputFile (file extension : String) :
    (outputFile file extension).toList = (stem file).toList ++ '.' :: extension.toList := by
  rw [outputFile, String.toList_append, String.toList_append, List.append_assoc]
  rfl

/-- The file of a component is a name if the extension holds no slash. -/
theorem isName_outputFile {file extension : String} (h : IsName file)
    (he : '/' ∉ extension.toList) : IsName (outputFile file extension) := by
  refine ⟨fun hempty => ?_, fun hs => ?_⟩
  · have hl := toList_outputFile file extension
    rw [hempty] at hl
    simp at hl
  · rw [toList_outputFile, List.mem_append, List.mem_cons] at hs
    rcases hs with hs | hs | hs
    · exact (isName_stem h).no_slash hs
    · exact absurd hs (by decide)
    · exact he hs

/-- The file of a component does not start at the root, whatever its extension. -/
theorem not_isAbsolute_outputFile {file : String} (h : IsName file) (extension : String) :
    ¬ isAbsolute (outputFile file extension) = true := by
  have hs := isName_stem h
  rw [isAbsolute, toList_outputFile, List.head?_append_of_ne_nil _ hs.toList_ne_nil]
  exact hs.not_isAbsolute

/-- Files of one extension have the same name exactly if the stems are the same. -/
theorem outputFile_inj {file other extension : String} :
    outputFile file extension = outputFile other extension ↔ stem file = stem other := by
  refine ⟨fun h => ?_, fun h => by rw [outputFile, outputFile, h]⟩
  rw [← String.toList_inj, toList_outputFile, toList_outputFile] at h
  exact String.toList_inj.1 (List.append_cancel_right h)

end Component

end SvgComponent
