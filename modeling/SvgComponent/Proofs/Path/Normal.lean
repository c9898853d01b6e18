import Mathlib.Data.List.Induction
import SvgComponent.Proofs.Path.Joining

/-!
# Paths in normal form

The components of a path in normal form are the root or nothing, then `..` any number of times, then
names (`IsNormal`). Folding one more component keeps this form (`isNormal_fold`) and leads to where
the component leads (`resolve_fold`), and components in this form fold to themselves
(`foldl_fold_of_isNormal`). Written as a path they are still its components (`components_render`).
What holds of folded components thus holds of the path written for them (`normalize_canonical`).
-/

namespace SvgComponent.Path

/-! ## Names -/

/-- A text that is the name of something in a directory. -/
structure IsOrdinary (name : String) : Prop extends IsName name where
  ne_current : name ≠ "."
  ne_parent : name ≠ ".."

/-- The name of something in a directory is a component. -/
theorem partComponent?_of_isOrdinary {name : String} (h : IsOrdinary name) :
    partComponent? name.toList = some (.name name) := by
  have hdot : name.toList ≠ ['.'] := fun he => h.ne_current (String.toList_inj.1 he)
  have hdots : name.toList ≠ ['.', '.'] := fun he => h.ne_parent (String.toList_inj.1 he)
  rw [partComponent?, if_neg (not_or.2 ⟨h.toList_ne_nil, hdot⟩), if_neg hdots, String.ofList_toList]

/-- A component that is a name can be the name of something in a directory. -/
theorem isOrdinary_of_partComponent? {part : List Char} {name : String} (hs : '/' ∉ part)
    (h : partComponent? part = some (.name name)) : IsOrdinary name := by
  rw [partComponent?] at h
  split_ifs at h with hidle hdots
  · cases h
  obtain rfl : String.ofList part = name := Component.name.inj (Option.some.inj h)
  obtain ⟨hnil, hdot⟩ := not_or.1 hidle
  refine ⟨⟨fun he => hnil ?_, by rwa [String.toList_ofList]⟩, fun he => hdot ?_, fun he => hdots ?_⟩
  all_goals
    rw [← String.toList_inj, String.toList_ofList] at he
    exact he

theorem slash_not_mem_of_mem_splitSlashes {cs part : List Char} (h : part ∈ splitSlashes cs) :
    '/' ∉ part := by
  induction cs generalizing part with
  | nil =>
    obtain rfl := List.mem_singleton.1 h
    exact List.not_mem_nil
  | cons c cs ih =>
    obtain ⟨first, rest, hsplit⟩ := List.exists_cons_of_ne_nil (splitSlashes_ne_nil cs)
    rw [splitSlashes, hsplit] at h
    rw [hsplit] at ih
    dsimp only at h
    split_ifs at h with hc
    · obtain rfl | h := List.mem_cons.1 h
      · exact List.not_mem_nil
      · exact ih h
    · obtain rfl | h := List.mem_cons.1 h
      · exact List.not_mem_cons_of_ne_of_not_mem (Ne.symm hc) (ih List.mem_cons_self)
      · exact ih (List.mem_cons_of_mem first h)

/-- The names in a path can be the names of something in a directory. -/
theorem isOrdinary_of_mem_components {path name : String} (h : .name name ∈ components path) :
    IsOrdinary name := by
  rw [components] at h
  split at h
  · cases h
  · rename_i first rest hsplit
    have hslash : ∀ part ∈ first :: rest, '/' ∉ part := by
      rw [← hsplit]
      exact fun part => slash_not_mem_of_mem_splitSlashes
    obtain h | h := List.mem_append.1 h
    · split_ifs at h with habsolute hcurrent
      · cases List.mem_singleton.1 h
      · cases List.mem_singleton.1 h
      · exact isOrdinary_of_partComponent? (hslash first List.mem_cons_self) (Option.mem_toList.1 h)
    · obtain ⟨part, hp, h⟩ := List.mem_filterMap.1 h
      exact isOrdinary_of_partComponent? (hslash part (List.mem_cons_of_mem first hp)) h

/-! ## The form -/

/-- The root or nothing, then `..` a number of times, then names. -/
def normalForm (rooted : Bool) (ups : Nat) (names : List String) : List Component :=
  (if rooted then [.root] else []) ++ (List.replicate ups .parent ++ names.map .name)

/-- Components in normal form. -/
def IsNormal (cs : List Component) : Prop :=
  ∃ rooted ups names, (∀ name ∈ names, IsOrdinary name) ∧ cs = normalForm rooted ups names

theorem normalForm_name (rooted : Bool) (ups : Nat) (names : List String) (name : String) :
    normalForm rooted ups (names ++ [name]) = normalForm rooted ups names ++ [.name name] := by
  simp [normalForm]

theorem normalForm_parent (rooted : Bool) (ups : Nat) :
    normalForm rooted (ups + 1) [] = normalForm rooted ups [] ++ [.parent] := by
  simp [normalForm, List.replicate_succ']

theorem name_not_mem_normalForm (rooted : Bool) (ups : Nat) (name : String) :
    .name name ∉ normalForm rooted ups [] := by
  cases rooted <;> simp [normalForm]

/-- `..` stays behind everything but a name. -/
theorem fold_parent {done : List Component} (h : ∀ name, done.head? ≠ some (.name name)) :
    fold done .parent = .parent :: done := by
  rw [fold]
  rintro name rest rfl
  exact h name rfl

/-- Where there are no names to go back from, `..` stays. -/
theorem fold_parent_normalForm (rooted : Bool) (ups : Nat) :
    (fold (normalForm rooted ups []).reverse .parent).reverse =
      normalForm rooted (ups + 1) [] := by
  have hlast : ∀ name, (normalForm rooted ups []).reverse.head? ≠ some (.name name) :=
    fun name hh => name_not_mem_normalForm rooted ups name
      (List.mem_reverse.1 (List.mem_of_mem_head? hh))
  rw [fold_parent hlast, List.reverse_cons, List.reverse_reverse, normalForm_parent]

/-- One more component keeps the form. -/
theorem isNormal_fold {done : List Component} {c : Component} (h : IsNormal done.reverse)
    (hc : ∀ name, c = .name name → IsOrdinary name) : IsNormal (fold done c).reverse := by
  obtain ⟨rooted, ups, names, hn, he⟩ := h
  cases c with
  | root => exact ⟨true, 0, [], List.forall_mem_nil _, rfl⟩
  | current => exact ⟨rooted, ups, names, hn, he⟩
  | name text =>
    refine ⟨rooted, ups, names ++ [text], ?_, ?_⟩
    · exact List.forall_mem_append.2 ⟨hn, List.forall_mem_singleton.2 (hc text rfl)⟩
    · rw [fold, List.reverse_cons, he, normalForm_name]
  | parent =>
    rw [List.reverse_eq_iff] at he
    cases names using List.reverseRecOn with
    | nil =>
      exact ⟨rooted, ups + 1, [], List.forall_mem_nil _, he ▸ fold_parent_normalForm rooted ups⟩
    | append_singleton names name =>
      refine ⟨rooted, ups, names, (List.forall_mem_append.1 hn).1, ?_⟩
      rw [he, normalForm_name, List.reverse_append]
      exact List.reverse_reverse _

/-- Folded components are in normal form. -/
theorem isNormal_foldl {cs : List Component} (h : ∀ name, .name name ∈ cs → IsOrdinary name) :
    IsNormal (cs.foldl fold []).reverse := by
  induction cs using List.reverseRecOn with
  | nil => exact ⟨false, 0, [], List.forall_mem_nil _, rfl⟩
  | append_singleton cs c ih =>
    rw [List.foldl_append]
    refine isNormal_fold (ih fun name hm => h name (List.mem_append_left _ hm)) ?_
    rintro name rfl
    exact h name (List.mem_append_right _ (List.mem_singleton_self _))

/-- Components in normal form fold to themselves. -/
theorem foldl_fold_of_isNormal {cs : List Component} (h : IsNormal cs) :
    (cs.foldl fold []).reverse = cs := by
  obtain ⟨rooted, ups, names, -, rfl⟩ := h
  induction names using List.reverseRecOn with
  | append_singleton names name ih =>
    rw [normalForm_name, List.foldl_append, List.foldl_cons, List.foldl_nil, fold,
      List.reverse_cons, ih]
  | nil =>
    induction ups with
    | zero => cases rooted <;> rfl
    | succ ups ih =>
      rw [List.reverse_eq_iff] at ih
      rw [normalForm_parent, List.foldl_append, List.foldl_cons, List.foldl_nil, ih,
        fold_parent_normalForm, normalForm_parent]

/-! ## Where components lead -/

/-- Where a component leads from a directory, which is given by the names from the root to it. -/
def enter (here : List String) : Component → List String
  | .root => []
  | .current => here
  | .parent => here.dropLast
  | .name text => here ++ [text]

/-- Where components lead from a directory, one after the other and whatever is there. -/
def resolve (here : List String) (cs : List Component) : List String :=
  cs.foldl enter here

theorem resolve_concat (here : List String) (cs : List Component) (c : Component) :
    resolve here (cs ++ [c]) = enter (resolve here cs) c := by
  rw [resolve, List.foldl_append]
  rfl

/-- Folding one more component leads to where the component leads. -/
theorem resolve_fold (here : List String) (done : List Component) (c : Component) :
    resolve here (fold done c).reverse = enter (resolve here done.reverse) c := by
  cases c with
  | root => rfl
  | current => rfl
  | name text => rw [fold, List.reverse_cons, resolve_concat]
  | parent =>
    by_cases hname : ∃ name rest, done = .name name :: rest
    · obtain ⟨name, rest, rfl⟩ := hname
      rw [fold, List.reverse_cons, resolve_concat, enter, enter, List.dropLast_concat]
    · have hlast : ∀ name, done.head? ≠ some (.name name) := by
        intro name hh
        obtain ⟨rest, rfl⟩ := List.head?_eq_some_iff.1 hh
        exact hname ⟨name, rest, rfl⟩
      rw [fold_parent hlast, List.reverse_cons, resolve_concat]

/-- Folded components lead to where they led before. -/
theorem resolve_foldl (here : List String) (cs : List Component) :
    resolve here (cs.foldl fold []).reverse = resolve here cs := by
  induction cs using List.reverseRecOn with
  | nil => rfl
  | append_singleton cs c ih =>
    rw [List.foldl_append, resolve_concat, ← ih]
    exact resolve_fold here _ c

/-! ## Components written as a path -/

/-- A name behind a path is one more component. -/
theorem components_join (path : String) {name : String} (h : IsName name) (hc : name ≠ ".") :
    components (join path name) = components path ++ (partComponent? name.toList).toList := by
  have hdot : name.toList ≠ ['.'] := fun he => hc (String.toList_inj.1 he)
  rcases eq_or_ne path "" with rfl | hp
  · rw [join_empty, components, splitSlashes_of_no_slash h.no_slash]
    dsimp only
    rw [if_neg h.not_isAbsolute, if_neg hdot, List.filterMap_nil, List.append_nil]
    rfl
  obtain ⟨front, hfront, hpath⟩ := slashed_eq path.toList
  obtain ⟨first, rest, hsplit⟩ := List.exists_cons_of_ne_nil (splitSlashes_ne_nil front)
  -- a slash at the end of the path adds a part without meaning only
  have hparts : ∃ more, splitSlashes path.toList = first :: (rest ++ more) ∧
      more.filterMap partComponent? = [] := by
    rcases hpath with hpath | hpath
    · refine ⟨[[]], ?_, rfl⟩
      rw [hpath, splitSlashes_append_slash, hsplit]
      rfl
    · exact ⟨[], by rw [hpath, hsplit, List.append_nil], rfl⟩
  obtain ⟨more, hmore, hidle⟩ := hparts
  have hjoin : splitSlashes (join path name).toList = first :: (rest ++ [name.toList]) := by
    rw [toList_join hp h.not_isAbsolute, hfront, List.append_assoc, List.singleton_append,
      splitSlashes_append_slash, splitSlashes_of_no_slash h.no_slash, hsplit, List.cons_append]
  have hlast : [name.toList].filterMap partComponent? = (partComponent? name.toList).toList := by
    cases hname : partComponent? name.toList <;> simp [hname]
  rw [components, components, hjoin, hmore, isAbsolute_join hp h.not_isAbsolute]
  dsimp only
  rw [List.filterMap_append, List.filterMap_append, hidle, hlast, List.append_nil,
    List.append_assoc]

/-- Names written behind a path are the components behind its own. -/
theorem components_render_names (path : String) {names : List String}
    (h : ∀ name ∈ names, IsOrdinary name) :
    components (render path (names.map .name)) = components path ++ names.map .name := by
  induction names generalizing path with
  | nil => exact (List.append_nil _).symm
  | cons name names ih =>
    obtain ⟨hname, hnames⟩ := List.forall_mem_cons.1 h
    have hlast : components (join path name) = components path ++ [.name name] := by
      rw [components_join path hname.toIsName hname.ne_current, partComponent?_of_isOrdinary hname]
      rfl
    rw [List.map_cons, render, ih _ hnames, hlast, List.append_assoc]
    rfl

/-- Written behind a path, `..` and names are the components behind its own. -/
theorem components_render (path : String) (ups : Nat) {names : List String}
    (h : ∀ name ∈ names, IsOrdinary name) :
    components (render path (List.replicate ups .parent ++ names.map .name)) =
      components path ++ (List.replicate ups .parent ++ names.map .name) := by
  induction ups generalizing path with
  | zero => exact components_render_names path h
  | succ ups ih =>
    have hparent : components (join path "..") = components path ++ [.parent] :=
      components_join path (by decide) (by decide)
    rw [List.replicate_succ, List.cons_append, render, ih, hparent, List.append_assoc]
    rfl

/-- Components in normal form are written as a path with these components. -/
theorem components_render_of_isNormal {cs : List Component} (h : IsNormal cs) :
    components (render "" cs) = cs := by
  obtain ⟨rooted, ups, names, hn, rfl⟩ := h
  cases rooted with
  | false => exact components_render "" ups hn
  | true => exact components_render "/" ups hn

/-- The components of a path in normal form are those of the path, folded. -/
theorem components_normalize (path : String) :
    components (normalize path) = ((components path).foldl fold []).reverse :=
  components_render_of_isNormal (isNormal_foldl fun _ => isOrdinary_of_mem_components)

/-- A path put into normal form is in this form, stays as it is when that is done once more, and
leads from every directory to where it led. -/
theorem normalize_canonical (path : String) :
    IsNormal (components (normalize path)) ∧
      normalize (normalize path) = normalize path ∧
      ∀ here, resolve here (components (normalize path)) = resolve here (components path) := by
  have hnormal : IsNormal (components (normalize path)) := by
    rw [components_normalize]
    exact isNormal_foldl fun _ => isOrdinary_of_mem_components
  refine ⟨hnormal, ?_, fun here => ?_⟩
  · rw [normalize, foldl_fold_of_isNormal hnormal, components_normalize, normalize]
  · rw [components_normalize, resolve_foldl]

example : normalize "./a/../../b//./c/.." = "../b" := by decide +kernel

end SvgComponent.Path
