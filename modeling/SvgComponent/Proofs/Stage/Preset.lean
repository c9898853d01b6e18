import SvgComponent.Proofs.Conversion.Reformatting
import SvgComponent.Proofs.Text.Runs
import SvgComponent.Proofs.Tree.Addresses
import SvgComponent.Stage.Spec

/-!
# What the preset leaves

The five stages of the preset come down to one pass (`applyAll_presetDefault`) : nodes of four kinds
are taken out (`DeadWeight`), and the `svg` elements lose the declarations of namespaces whose
prefix no name in the document that is left uses. Names inside what is taken out do not count, and
declarations are not uses, so that taking declarations out changes nothing of what is used
(`prefixes_cleaned`). Two things follow, which `presetDefault_remains` states with the pass :

* a name that is left has all the declarations in scope that it had;
* a second run finds nothing to do.
-/

namespace SvgComponent.Builtin

open Node

/-! ## Namespaces -/

/-- Whether a name uses a prefix. -/
def Uses (name front : String) : Prop :=
  front ≠ "xmlns" ∧ ':' ∉ front.toList ∧ ∃ rest, name.toList = front.toList ++ ':' :: rest

/-- Whether a name in a document uses a prefix. -/
def UsedIn (document : Document) (front : String) : Prop :=
  ∃ tag ∈ tagsAll document, ∃ name ∈ tag.name :: tag.attributes.keys, Uses name front

/-- The name of the attribute that declares a prefix. -/
def declarationOf (front : String) : String := "xmlns:" ++ front

/-- Whether one of some elements declares a prefix, with a value. -/
def Declares (tags : List Tag) (front value : String) : Prop :=
  ∃ tag ∈ tags, (declarationOf front, value) ∈ tag.attributes.entries

/-- Whether the element at an address has a name, as its own or that of an attribute. -/
def NameAt (document : Document) (address : Address) (name : String) : Prop :=
  ∃ span tag children, at? document address = some (.element span tag children) ∧
    name ∈ tag.name :: tag.attributes.keys

/-! ## What is taken out -/

/-- The nodes that no reader of the picture needs. -/
inductive DeadWeight : Node → Prop
  | doctype {span : Span} {value : String} : DeadWeight (.doctype span value)
  | declaration {span : Span} {value : String} : DeadWeight (.instruction span "xml" value)
  | comment {span : Span} {value : String} (h : value.toList.head? ≠ some '!') :
    DeadWeight (.comment span value)
  | metadata {span : Span} {attributes : Attributes} {children : List Node} :
    DeadWeight (.element span ⟨"metadata", attributes⟩ children)

/-- Neither the node at an address nor one around it is dead weight. -/
def IsWanted (document : Document) (address : Address) : Prop :=
  ∀ trail, trail? document address = some trail → ∀ node ∈ trail, ¬ DeadWeight node

/-- Whether an attribute declares, on an `svg` element, a prefix that is not used. -/
def IsIdle (used : String → Prop) (tag : Tag) (name : String) : Prop :=
  tag.name = "svg" ∧ ∃ front, name = declarationOf front ∧ ¬ used front

/-- A node that is the same but for what is in it and for idle declarations. -/
inductive Trimmed (used : String → Prop) : Node → Node → Prop
  | element {span : Span} {tag tag' : Tag} {children children' : List Node}
    (hname : tag'.name = tag.name)
    (horder : tag'.attributes.entries.Sublist tag.attributes.entries)
    (hkept : ∀ entry ∈ tag.attributes.entries,
      entry ∈ tag'.attributes.entries ↔ ¬ IsIdle used tag entry.1) :
    Trimmed used (.element span tag children) (.element span tag' children')
  | leaf {node : Node} (h : node.isElement = false) : Trimmed used node node

/-! ## Prefixes of names -/

/-- The prefix of a name is what stands in front of its first colon. -/
theorem namespaceOf?_eq_some_iff {name front : String} :
    namespaceOf? name = some front ↔
      ':' ∉ front.toList ∧ ∃ rest, name.toList = front.toList ++ ':' :: rest := by
  rw [namespaceOf?]
  constructor
  · intro h
    split_ifs at h with hc
    cases h
    rw [String.toList_ofList]
    refine ⟨fun hm => by simpa using List.mem_takeWhile_imp hm, ?_⟩
    obtain ⟨c, rest, hd⟩ : ∃ c rest, name.toList.dropWhile (· ≠ ':') = c :: rest := by
      refine List.exists_cons_of_ne_nil fun hnil => ?_
      rw [List.dropWhile_eq_nil_iff] at hnil
      simpa using hnil ':' (List.contains_iff_mem.1 hc)
    have hcolon := List.head?_dropWhile_not (· ≠ ':') name.toList
    have hcut := List.takeWhile_append_dropWhile (p := (· ≠ ':')) (l := name.toList)
    rw [hd] at hcolon hcut
    obtain rfl : c = ':' := by simpa using hcolon
    exact ⟨rest, hcut.symm⟩
  · rintro ⟨hfront, rest, hn⟩
    have hrun : ∀ c ∈ front.toList, decide (c ≠ ':') = true := by
      intro c hc
      rw [decide_eq_true_eq]
      rintro rfl
      exact hfront hc
    rw [hn, Text.takeWhile_run hrun (by simp), if_pos (by simp), String.ofList_toList]

theorem declaredPrefix?_eq_some_iff {name front : String} :
    declaredPrefix? name = some front ↔ name = declarationOf front := by
  rw [declaredPrefix?, Option.map_eq_some_iff, declarationOf]
  constructor
  · rintro ⟨rest, hr, rfl⟩
    have hname := Text.eq_append_of_stripMark? hr
    rw [← String.toList_inj, hname, String.toList_append, String.toList_ofList (l := rest)]
  · rintro rfl
    exact ⟨front.toList, by rw [String.toList_append, Text.stripMark?_append],
      String.ofList_toList⟩

/-- A declaration is no use. -/
theorem namespaceOf?_of_declaredPrefix? {name front : String}
    (h : declaredPrefix? name = some front) : namespaceOf? name = some "xmlns" := by
  rw [declaredPrefix?_eq_some_iff.1 h, namespaceOf?_eq_some_iff]
  exact ⟨by decide, front.toList, by rw [declarationOf, String.toList_append]; rfl⟩

/-- The prefixes that are used in a document. -/
def prefixes (document : Document) : List String :=
  (tagsAll document).flatMap usedPrefixes

theorem mem_usedPrefixes_iff {tag : Tag} {front : String} :
    front ∈ usedPrefixes tag ↔ ∃ name ∈ tag.name :: tag.attributes.keys, Uses name front := by
  rw [usedPrefixes, List.mem_filter, List.mem_filterMap, decide_eq_true_eq, and_comm,
    ← exists_and_left]
  simp only [namespaceOf?_eq_some_iff, Uses, and_left_comm]

/-- The prefixes that are found are those that are used. -/
theorem mem_prefixes_iff {document : Document} {front : String} :
    front ∈ prefixes document ↔ UsedIn document front := by
  simp only [prefixes, List.mem_flatMap, mem_usedPrefixes_iff, UsedIn]

/-! ## One tag -/

/-- Whether a name is no declaration of a prefix that is not used. -/
def isUseful (used : List String) (name : String) : Bool :=
  match declaredPrefix? name with
  | some front => used.contains front
  | none => true

/-- A tag without idle declarations. -/
def trimTag (used : List String) (tag : Tag) : Tag :=
  if tag.name = "svg" then
    { tag with attributes := tag.attributes.filter fun name _ => isUseful used name } else tag

/-- Only declarations of prefixes that are not used are useless. -/
theorem isUseful_eq_false_iff {used : List String} {name : String} :
    isUseful used name = false ↔ ∃ front, name = declarationOf front ∧ front ∉ used := by
  rw [isUseful]
  cases h : declaredPrefix? name with
  | none =>
    refine iff_of_false (by simp) ?_
    rintro ⟨front, hn, -⟩
    rw [declaredPrefix?_eq_some_iff.2 hn] at h
    cases h
  | some front =>
    rw [declaredPrefix?_eq_some_iff] at h
    subst h
    simp [declarationOf]

theorem name_trimTag (used : List String) (tag : Tag) : (trimTag used tag).name = tag.name := by
  rw [trimTag]
  split_ifs <;> rfl

theorem entries_trimTag (used : List String) (tag : Tag) :
    (trimTag used tag).attributes.entries =
      tag.attributes.entries.filter fun entry =>
        decide (tag.name ≠ "svg") || isUseful used entry.1 := by
  rw [trimTag]
  split_ifs with h
  · simp [OrderedMap.filter, h]
  · simp [h]

/-- A tag has no more idle declarations once they are taken out. -/
theorem trimTag_trimTag (used : List String) (tag : Tag) :
    trimTag used (trimTag used tag) = trimTag used tag := by
  refine Markup.tag_eq (name_trimTag used _) ?_
  rw [entries_trimTag used (trimTag used tag), entries_trimTag, name_trimTag, List.filter_filter]
  simp only [Bool.and_self]

/-- Taking out declarations leaves what a tag uses. -/
theorem usedPrefixes_trimTag (used : List String) (tag : Tag) :
    usedPrefixes (trimTag used tag) = usedPrefixes tag := by
  have hkeys (entries : List (String × String)) :
      (((entries.filter fun entry => decide (tag.name ≠ "svg") || isUseful used entry.1).map
        Prod.fst).filterMap namespaceOf?).filter (· ≠ "xmlns") =
      ((entries.map Prod.fst).filterMap namespaceOf?).filter (· ≠ "xmlns") := by
    induction entries with
    | nil => rfl
    | cons entry rest ih =>
      rw [List.filter_cons]
      split_ifs with hu
      · rw [List.map_cons, List.map_cons, List.filterMap_cons, List.filterMap_cons]
        cases namespaceOf? entry.1 with
        | none => exact ih
        | some front =>
          dsimp only
          rw [List.filter_cons, List.filter_cons, ih]
      · rw [Bool.not_eq_true, Bool.or_eq_false_iff, isUseful_eq_false_iff] at hu
        obtain ⟨-, front, hn, -⟩ := hu
        rw [List.map_cons, List.filterMap_cons_some
          (namespaceOf?_of_declaredPrefix? (declaredPrefix?_eq_some_iff.2 hn)), ih]
        rfl
  have hentries := hkeys tag.attributes.entries
  rw [← entries_trimTag] at hentries
  rw [usedPrefixes, usedPrefixes, name_trimTag, List.filterMap_cons, List.filterMap_cons]
  cases namespaceOf? tag.name with
  | none => exact hentries
  | some front =>
    dsimp only
    rw [List.filter_cons, List.filter_cons]
    split_ifs
    · exact congrArg _ hentries
    · exact hentries

/-! ## One pass -/

/-- Whether a leaf is no dead weight. -/
def isLight (node : Node) : Bool :=
  !isDoctype node && (!isDeclaration node && !isPlainComment node)

/-- The tags of all elements but metadata. -/
def withoutMetadata (tag : Tag) : Option Tag :=
  if tag.name = "metadata" then none else some tag

/-- The tags that are left, without idle declarations. -/
def presetTag (used : List String) (tag : Tag) : Option Tag :=
  (withoutMetadata tag).map (trimTag used)

/-- The document without dead weight. -/
def lightened (document : Document) : Document :=
  siftAll withoutMetadata isLight document

/-- The document that the preset leaves. -/
def cleaned (document : Document) : Document :=
  siftAll (presetTag (prefixes (lightened document))) isLight document

/-- Declarations are taken out of every tag by the prefixes that the document uses. -/
theorem dropUnusedNamespaces_eq (document : Document) :
    dropUnusedNamespaces document =
      mapTags (fun tag => some (trimTag (prefixes document) tag)) document :=
  rfl

/-- Taking out nodes and then declarations is one pass. -/
theorem trimmed_lightened (used : List String) (document : Document) :
    mapTags (fun tag => some (trimTag used tag)) (lightened document) =
      siftAll (presetTag used) isLight document := by
  rw [mapTags_eq_siftAll, lightened, siftAll_siftAll]
  simp only [Bool.and_true]
  congr 1
  funext tag
  rw [presetTag]
  cases withoutMetadata tag <;> rfl

/-- The first four stages take out the dead weight. -/
theorem removeElements_metadata (document : Document) :
    removeElements "metadata"
        (retainAll (!isPlainComment ·) (retainAll (!isDeclaration ·)
          (retainAll (!isDoctype ·) document))) = lightened document := by
  rw [removeElements, mapTags_eq_siftAll, retainAll_eq_siftAll, retainAll_eq_siftAll,
    retainAll_eq_siftAll, siftAll_siftAll, siftAll_siftAll, siftAll_siftAll]
  simp only [Option.bind_some, Bool.and_true]
  rfl

/-- The stages of the preset come down to one pass. -/
theorem applyAll_presetDefault (context : Context) (document : Document) :
    applyAll presetDefault context document = cleaned document := by
  have hlight : applyAll presetDefault context document =
      dropUnusedNamespaces (removeElements "metadata"
        (retainAll (!isPlainComment ·) (retainAll (!isDeclaration ·)
          (retainAll (!isDoctype ·) document)))) := rfl
  rw [hlight, removeElements_metadata, dropUnusedNamespaces_eq, trimmed_lightened, cleaned]

/-- What is used in the document that is left is what counted as used. -/
theorem prefixes_cleaned (document : Document) :
    prefixes (cleaned document) = prefixes (lightened document) := by
  rw [cleaned, ← trimmed_lightened, prefixes, tagsAll_mapTags_some, List.flatMap_map]
  simp only [usedPrefixes_trimTag]
  rfl

/-- No dead weight is left. -/
theorem lightened_cleaned (document : Document) :
    lightened (cleaned document) = cleaned document := by
  rw [cleaned, lightened, siftAll_siftAll]
  simp only [Bool.and_self]
  congr 1
  funext tag
  rw [presetTag, withoutMetadata]
  split_ifs with h
  · rfl
  · rw [Option.map_some, Option.bind_some, withoutMetadata, name_trimTag, if_neg h]

/-- A second run finds nothing to do. -/
theorem cleaned_cleaned (document : Document) : cleaned (cleaned document) = cleaned document := by
  have hagain : cleaned (cleaned document) =
      mapTags (fun tag => some (trimTag (prefixes (lightened document)) tag))
        (cleaned document) := by
    rw [cleaned, lightened_cleaned, prefixes_cleaned, ← trimmed_lightened, lightened_cleaned]
  rw [hagain, cleaned, ← trimmed_lightened, mapTags_mapTags]
  simp only [Option.bind_some, trimTag_trimTag]

/-! ## What is left -/

section Left

variable {used : List String} {document : Document} {address : Address}

/-- A leaf stays if it is no dead weight. -/
theorem isLight_iff {leaf : Node} (h : leaf.isElement = false) :
    isLight leaf = true ↔ ¬ DeadWeight leaf := by
  cases leaf with
  | element => cases h
  | text | cdata => exact iff_of_true rfl fun hd => by cases hd
  | doctype => exact iff_of_false Bool.false_ne_true fun hd => hd .doctype
  | comment span value =>
    have hlight : isLight (.comment span value) = isLegal value := Bool.not_not _
    rw [hlight, isLegal, decide_eq_true_eq]
    refine ⟨fun hv hd => ?_, fun hd => by_contra fun hv => hd (.comment hv)⟩
    cases hd with
    | comment hv' => exact hv' hv
  | instruction span name value =>
    have hlight : isLight (.instruction span name value) = !decide (name = "xml") :=
      Bool.and_true _
    rw [hlight, Bool.not_eq_true', decide_eq_false_iff_not]
    refine not_congr ⟨?_, fun hd => ?_⟩
    · rintro rfl
      exact .declaration
    · cases hd
      rfl

theorem isSome_presetTag_iff {tag : Tag} :
    (presetTag used tag).isSome = true ↔ tag.name ≠ "metadata" := by
  rw [presetTag, Option.isSome_map, withoutMetadata]
  split_ifs with h <;> simp [h]

/-- The nodes that are taken out are the dead weight. -/
theorem isLeft_presetTag_iff {node : Node} :
    isLeft (presetTag used) isLight node = true ↔ ¬ DeadWeight node := by
  by_cases h : node.isElement = false
  · rw [isLeft, sift_of_not_isElement _ _ h, ← isLight_iff h]
    cases isLight node <;> simp
  · cases node with
    | text | cdata | comment | doctype | instruction => exact absurd rfl h
    | element span tag children =>
      rw [isLeft, sift, Option.isSome_map, isSome_presetTag_iff]
      refine not_congr ⟨?_, fun hd => ?_⟩
      · obtain ⟨name, attributes⟩ := tag
        rintro rfl
        exact .metadata
      · cases hd
        rfl

theorem eq_trimTag_of_presetTag {tag tag' : Tag} (h : presetTag used tag = some tag') :
    tag' = trimTag used tag := by
  rw [presetTag, withoutMetadata] at h
  split_ifs at h
  · cases h
  · exact (Option.some.inj h).symm

/-- An attribute stays unless it is an idle declaration. -/
theorem mem_entries_trimTag_iff {tag : Tag} {entry : String × String} :
    entry ∈ (trimTag used tag).attributes.entries ↔
      entry ∈ tag.attributes.entries ∧ ¬ IsIdle (· ∈ used) tag entry.1 := by
  rw [entries_trimTag, List.mem_filter, IsIdle, ← isUseful_eq_false_iff, Bool.or_eq_true,
    decide_eq_true_eq, not_and_or, Bool.not_eq_false]

/-- What is left of a node is the node without idle declarations. -/
theorem trimmed_of_sift {node node' : Node}
    (h : sift (presetTag used) isLight node = some node') : Trimmed (· ∈ used) node node' := by
  cases node with
  | element span tag children =>
    rw [sift, Option.map_eq_some_iff] at h
    obtain ⟨tag', ht, rfl⟩ := h
    rw [eq_trimTag_of_presetTag ht]
    refine .element (name_trimTag used tag) ?_ fun entry he => ?_
    · rw [entries_trimTag]
      exact List.filter_sublist
    · rw [mem_entries_trimTag_iff, and_iff_right he]
  | text | cdata | comment | doctype | instruction =>
    rw [sift_of_not_isElement _ _ rfl] at h
    split_ifs at h
    cases h
    exact .leaf rfl

/-- A node is wanted if the pass leaves it and all those around it. -/
theorem isWanted_iff {trail : List Node} (h : trail? document address = some trail) :
    IsWanted document address ↔
      ∀ node ∈ trail, isLeft (presetTag used) isLight node = true := by
  simp only [IsWanted, h, Option.some.injEq, forall_eq', isLeft_presetTag_iff]

/-- The tags around a node that stays are those that were there, without idle declarations. -/
theorem mem_lineage_of_isWanted (h : IsWanted document address) {tag : Tag}
    (ht : tag ∈ lineage document address) :
    trimTag used tag ∈ lineage (siftAll (presetTag used) isLight document)
      (moved (isLeft (presetTag used) isLight) document address) := by
  cases htrail : trail? document address with
  | none =>
    rw [lineage, htrail] at ht
    cases ht
  | some trail =>
    have hleft := (@isWanted_iff used _ _ _ htrail).1 h
    rw [lineage_siftAll htrail hleft, List.mem_filterMap]
    refine ⟨tag, ht, ?_⟩
    rw [lineage_of_trail htrail, List.mem_filterMap] at ht
    obtain ⟨node, hn, hnode⟩ := ht
    have hsome := hleft node hn
    rw [isLeft_of_tag? _ _ hnode] at hsome
    obtain ⟨tag', ht'⟩ := Option.isSome_iff_exists.1 hsome
    rw [ht', eq_trimTag_of_presetTag ht']

end Left

/-! ## The preset -/

/-- A name that is left has all the declarations of its prefix in scope that it had. -/
def KeepsDeclarations (before after : Document) (stays : Address → Prop)
    (moved : Address → Address) : Prop :=
  ∀ address name front value, stays address → NameAt after (moved address) name →
    Uses name front → Declares (lineage before address) front value →
    Declares (lineage after (moved address)) front value

theorem usedIn_of_nameAt {document : Document} {address : Address} {name front : String}
    (hn : NameAt document address name) (hu : Uses name front) : UsedIn document front := by
  obtain ⟨span, tag, children, ha, hname⟩ := hn
  exact ⟨tag, mem_tagsAll_of_at? ha List.mem_cons_self, name, hname, hu⟩

/-- Taking out declarations changes nothing of which prefixes are used. -/
theorem mem_prefixes_lightened_iff {document : Document} {front : String} :
    front ∈ prefixes (lightened document) ↔ UsedIn (cleaned document) front := by
  rw [← prefixes_cleaned, mem_prefixes_iff]

/-- No name loses a declaration of its prefix, as that is used where the name is left. -/
theorem keepsDeclarations_cleaned (document : Document) :
    KeepsDeclarations document (cleaned document) (IsWanted document)
      (moved (isLeft (presetTag (prefixes (lightened document))) isLight) document) := by
  rintro address name front value hw hn hu ⟨tag, ht, hd⟩
  refine ⟨_, mem_lineage_of_isWanted hw ht, mem_entries_trimTag_iff.2 ⟨hd, ?_⟩⟩
  rintro ⟨-, other, ho, hunused⟩
  cases String.append_right_inj "xmlns:" |>.1 ho
  exact hunused (mem_prefixes_lightened_iff.2 (usedIn_of_nameAt hn hu))

/-- What the preset leaves are the wanted nodes, in their places. -/
theorem remains_cleaned (document : Document) :
    Remains (Trimmed (UsedIn (cleaned document))) document (cleaned document) (IsWanted document)
      (moved (isLeft (presetTag (prefixes (lightened document))) isLight) document) := by
  refine remains_siftAll (fun _ _ => isWanted_iff) fun _ _ h => ?_
  have htrimmed := trimmed_of_sift h
  simp only [mem_prefixes_lightened_iff] at htrimmed
  exact htrimmed

/-- The preset leaves what remains of a document when the dead weight is taken out, without the
declarations on `svg` elements whose prefix no name of what remains uses. The names that are left
have the declarations that they had, and a second run changes nothing. -/
theorem presetDefault_remains (context : Context) (document : Document) :
    ∃ stages, (StageSpec.named "preset-default").resolve = .ok stages ∧
      ∃ after moved,
        Stage.runAll context (stages.map toStage) document = .ok after ∧
        Remains (Trimmed (UsedIn after)) document after (IsWanted document) moved ∧
        KeepsDeclarations document after (IsWanted document) moved ∧
        Stage.runAll context (stages.map toStage) after = .ok after := by
  refine ⟨presetDefault, rfl, cleaned document, _, ?_, remains_cleaned document,
    keepsDeclarations_cleaned document, ?_⟩
  · rw [Stage.runAll_toStage, applyAll_presetDefault]
  · rw [Stage.runAll_toStage, applyAll_presetDefault, cleaned_cleaned]

end SvgComponent.Builtin
