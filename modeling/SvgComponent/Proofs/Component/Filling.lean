import SvgComponent.Component.Template
import SvgComponent.OrderedMap
import SvgComponent.Proofs.Text.Marks

/-!
# Filling in a template

A template is filled in from its front : a placeholder gives its value and filling goes on behind it
(`fill_placeholder`); any other character stays (`fill_other`). That the nearest closing brace is
looked for finds every placeholder, as names hold no braces (`front?_eq_some_iff`). A text without
an opening brace stays as it is (`fill_of_not_mem`). This tells what the default templates say
(`text_default_reactNative`).
-/

namespace SvgComponent.Component

open Text

namespace Template

/-- A name in braces. -/
def placeholder (name : List Char) : List Char :=
  '{' :: (name ++ ['}'])

/-- Values of names without braces, each name there once. -/
structure IsTable (values : List (List Char × List Char)) : Prop where
  opening : ∀ p ∈ values, '{' ∉ p.1
  closing : ∀ p ∈ values, '}' ∉ p.1
  nodup : (values.map Prod.fst).Nodup

section Table

variable {values : List (List Char × List Char)} {name value cs : List Char} {c : Char}

theorem placeholder_append (name rest : List Char) :
    placeholder name ++ rest = '{' :: (name ++ '}' :: rest) := by
  rw [placeholder, List.cons_append, List.append_assoc, List.singleton_append]

/-- A name has the value that stands with it in the table. -/
theorem lookup_eq_some_iff (h : IsTable values) :
    values.lookup name = some value ↔ (name, value) ∈ values := by
  have hequal : (List.instBEq : BEq (List Char)) = instBEqOfDecidableEq :=
    lawful_beq_subsingleton _ _
  rw [hequal]
  exact OrderedMap.lookup_eq_some_iff_mem h.nodup

/-- The placeholders that a text can start with are those of the names with values. -/
theorem front?_eq_some_iff (h : IsTable values) :
    front? values cs = some (name, value) ↔
      (name, value) ∈ values ∧ placeholder name <+: cs := by
  constructor
  · intro hf
    rw [front?.eq_def] at hf
    split at hf
    · obtain ⟨⟨name', rest⟩, hcut, hf⟩ := Option.bind_eq_some_iff.1 hf
      obtain ⟨value', hl, he⟩ := Option.bind_eq_some_iff.1 hf
      cases he
      refine ⟨(lookup_eq_some_iff h).1 hl, rest, ?_⟩
      rw [eq_append_of_cutAt? hcut, placeholder_append, List.append_assoc, List.singleton_append]
    · cases hf
  · rintro ⟨hm, rest, rfl⟩
    have hclosing : ¬ ([] ++ ['}']) <:+: name := by
      rw [List.nil_append, List.singleton_infix_iff]
      exact h.closing _ hm
    have hcut : cutAt? ['}'] (name ++ '}' :: rest) = some (name, rest) :=
      cutAt?_append_mark rest List.not_mem_nil hclosing
    rw [placeholder_append, front?, hcut]
    simp only [Option.bind_eq_bind, Option.bind_some, (lookup_eq_some_iff h).2 hm]
    rfl

/-- Nothing is filled in where no placeholder starts. -/
theorem front?_eq_none_iff (h : IsTable values) :
    front? values cs = none ↔ ∀ p ∈ values, ¬ placeholder p.1 <+: cs := by
  constructor
  · intro hf p hp hstarts
    have hsome := (front?_eq_some_iff h).2 ⟨hp, hstarts⟩
    rw [hf] at hsome
    cases hsome
  · intro hn
    cases hf : front? values cs with
    | none => rfl
    | some p =>
      obtain ⟨hm, hstarts⟩ := (front?_eq_some_iff h).1 hf
      exact absurd hstarts (hn p hm)

theorem fill_nil : fill values [] = [] := by
  rw [fill, fillFrom]

/-- The rest of a placeholder is passed over. -/
theorem fillFrom_skip (skip : Nat) (cs : List Char) :
    fillFrom values skip cs = fill values (cs.drop skip) := by
  induction cs generalizing skip with
  | nil => rw [List.drop_nil, fill_nil, fillFrom]
  | cons c cs ih =>
    cases skip with
    | zero => rfl
    | succ skip => rw [fillFrom, ih, List.drop_succ_cons]

/-- A placeholder gives its value. -/
theorem fill_placeholder (h : IsTable values) (hm : (name, value) ∈ values) (rest : List Char) :
    fill values (placeholder name ++ rest) = value ++ fill values rest := by
  have hfront := (front?_eq_some_iff h).2 ⟨hm, List.prefix_append (placeholder name) rest⟩
  have hlength : name.length + 1 = (name ++ ['}']).length := by simp
  rw [placeholder, List.cons_append] at hfront ⊢
  rw [fill, fillFrom, hfront]
  dsimp only
  rw [fillFrom_skip, hlength, List.drop_left]

/-- A character that no placeholder starts with stays. -/
theorem fill_other (h : front? values (c :: cs) = none) :
    fill values (c :: cs) = c :: fill values cs := by
  rw [fill, fillFrom, h]
  rfl

theorem front?_of_ne_brace (h : c ≠ '{') (cs : List Char) : front? values (c :: cs) = none := by
  rw [front?]
  exact fun rest he => h (List.cons.inj he).1

/-- A text without an opening brace stays as it is. -/
theorem fill_of_not_mem (h : '{' ∉ cs) (rest : List Char) :
    fill values (cs ++ rest) = cs ++ fill values rest := by
  induction cs with
  | nil => rfl
  | cons c cs ih =>
    rw [List.mem_cons, not_or] at h
    rw [List.cons_append, fill_other (front?_of_ne_brace (Ne.symm h.1) _), ih h.2]
    rfl

theorem fill_eq_self (h : '{' ∉ cs) : fill values cs = cs := by
  have hfill : fill values (cs ++ []) = cs ++ fill values [] := fill_of_not_mem h []
  rwa [List.append_nil, fill_nil, List.append_nil] at hfill

end Table

variable {content : Content}

/-- The values of a component make up a table. -/
theorem isTable_values (content : Content) : IsTable content.values where
  opening := by simp [Content.values]
  closing := by simp [Content.values]
  nodup := by simp [Content.values]

/-- A brace in front of what starts no name stays. -/
theorem fill_brace {next : String}
    (h : ∃ c ∈ next.toList.head?, c ∉ ['s', 't', 'c', 'j'])
    (rest : List Char) :
    fill content.values ("\x7b".toList ++ (next.toList ++ rest)) =
      "\x7b".toList ++ fill content.values (next.toList ++ rest) := by
  obtain ⟨c, hc, hn⟩ := h
  obtain ⟨cs, hcs⟩ := List.head?_eq_some_iff.1 hc
  have hheads : ∀ p ∈ content.values, ∃ d ∈ p.1.head?, d ∈ ['s', 't', 'c', 'j'] := by
    simp [Content.values]
  have hbrace : "\x7b".toList = ['{'] := rfl
  rw [hcs, hbrace, List.singleton_append, List.singleton_append, List.cons_append]
  refine fill_other ((front?_eq_none_iff (isTable_values content)).2 fun p hp hstarts => ?_)
  obtain ⟨d, hd, hmem⟩ := hheads p hp
  obtain ⟨ds, hds⟩ := List.head?_eq_some_iff.1 hd
  rw [placeholder, hds, List.cons_append, List.cons_prefix_cons,
    List.cons_prefix_cons] at hstarts
  exact hn (hstarts.2.1 ▸ hmem)

end Template

open Template

/-- What the component file of a native component says unless told otherwise. -/
theorem text_default_reactNative {content : Content} (h : content.target = .reactNative) :
    content.text none =
      "// Generated from " ++ content.sourceFile ++ "\n\nimport \x7b" ++
        ", ".intercalate content.components ++
        "\x7d from 'react-native-svg'\n\nexport const " ++ content.componentName ++
        " = (props) => \x7b\n  return (\n    " ++ content.jsx ++ "\n  );\n\x7d\n" := by
  have htemplate : Template.default .reactNative =
      "// Generated from " ++ ("\x7bsourceFile\x7d" ++ ("\n\nimport " ++ ("\x7b" ++
        ("\x7bcomponents\x7d" ++ ("\x7d from 'react-native-svg'\n\nexport const " ++
          ("\x7bcomponentName\x7d" ++ (" = (props) => " ++ ("\x7b" ++ ("\n  return (\n    " ++
            ("\x7bjsx\x7d" ++ "\n  );\n\x7d\n")))))))))) := by
    decide +kernel
  have hfill (mark name value : String) (rest : List Char)
      (hmark : mark.toList = placeholder name.toList)
      (hm : (name.toList, value.toList) ∈ content.values) :
      fill content.values (mark.toList ++ rest) = value.toList ++ fill content.values rest := by
    rw [hmark]
    exact fill_placeholder (isTable_values content) hm rest
  rw [← String.toList_inj, Content.text, h, Option.getD_none, htemplate, String.toList_ofList]
  simp only [String.toList_append]
  rw [fill_of_not_mem (by decide),
    hfill _ "sourceFile" content.sourceFile _ rfl (by simp [Content.values]),
    fill_of_not_mem (by decide), fill_brace ⟨_, rfl, by decide⟩,
    hfill _ "components" (", ".intercalate content.components) _ rfl (by simp [Content.values]),
    fill_of_not_mem (by decide),
    hfill _ "componentName" content.componentName _ rfl (by simp [Content.values]),
    fill_of_not_mem (by decide), fill_brace ⟨_, rfl, by decide⟩, fill_of_not_mem (by decide),
    hfill _ "jsx" content.jsx _ rfl (by simp [Content.values]), fill_eq_self (by decide)]
  simp

end SvgComponent.Component
