import Mathlib.Data.List.Nodup
import Mathlib.Tactic.Common
import SvgComponent.Proofs.Markup.Event

/-!
# Reading a tag

The keys of a tag are distinct once it is read (`nodup_keys_rawAttributes`), so its attributes
are the written ones, in their order, each with its value expanded. `readTag_eq_ok_iff` says
when a tag can be read and what it is then.
-/

namespace SvgComponent.Markup

/-! ## Distinct keys -/

namespace RawAttribute

theorem previous?_eq_none_iff {before : List RawAttribute} {key : List Char} :
    previous? before key = none ↔ key ∉ before.map RawAttribute.key := by
  simp only [previous?, Option.map_eq_none_iff, List.find?_eq_none, decide_eq_true_eq,
    List.mem_map, not_exists, not_and]

/-- An attribute that is read has a new key. -/
theorem taken_of_readOne {taken : List Char → Option Nat} {pos next : Nat} {first : Char}
    {cs rest : List Char} {a : RawAttribute}
    (h : readOne taken pos first cs = .ok (a, next, rest)) : taken a.key = none := by
  simp only [readOne, bind, Except.bind, pure, Except.pure] at h
  split at h
  · cases h
  · split at h
    · cases h
    · rename_i ht
      split at h
      · cases h
      · cases h
        exact ht

/-- Attributes that are read later have other keys than those in front. -/
theorem not_mem_before_of_mem_readFrom (before : List RawAttribute) (pos : Nat) (cs : List Char) :
    ∀ a ∈ (readFrom true before pos cs).1, a.key ∉ before.map RawAttribute.key := by
  fun_induction readFrom true before pos cs with
  | case1 => simp
  | case2 => simp
  | case3 before pos cs first r hs taken a next rest hr as fault hrec ih =>
    rw [hrec] at ih
    intro b hb
    rcases List.mem_cons.1 hb with rfl | hb
    · exact previous?_eq_none_iff.1 (taken_of_readOne hr)
    · intro hm
      exact ih b hb (by simp [hm])

/-- No key is read twice; by induction on what is left of the tag. -/
theorem nodup_keys_readFrom (before : List RawAttribute) (pos : Nat) (cs : List Char) :
    ((readFrom true before pos cs).1.map RawAttribute.key).Nodup := by
  fun_induction readFrom true before pos cs with
  | case1 => simp
  | case2 => simp
  | case3 before pos cs first r hs taken a next rest hr as fault hrec ih =>
    rw [hrec] at ih
    rw [List.map_cons, List.nodup_cons]
    refine ⟨fun hm => ?_, ih⟩
    obtain ⟨b, hb, hk⟩ := List.mem_map.1 hm
    have hn := not_mem_before_of_mem_readFrom (before ++ [a]) next rest b (by rw [hrec]; exact hb)
    exact hn (by simp [hk])

end RawAttribute

/-- No attribute of a tag comes twice. -/
theorem nodup_keys_rawAttributes (content : List Char) :
    ((rawAttributes content).1.map RawAttribute.key).Nodup :=
  RawAttribute.nodup_keys_readFrom _ _ _

/-! ## Expanded values -/

theorem expanded_of_expand {raw value : List Char} (h : Reference.expand raw = .ok value) :
    expanded raw = value := by
  rw [expanded, h]

/-- A new key comes last. -/
theorem insertPair_of_not_mem {κ α : Type} [DecidableEq κ] {key : κ} (value : α)
    {ps : List (κ × α)} (h : key ∉ ps.map Prod.fst) :
    OrderedMap.insertPair key value ps = ps ++ [(key, value)] := by
  induction ps with
  | nil => rfl
  | cons p ps ih =>
    simp only [List.map_cons, List.mem_cons, not_or] at h
    rw [OrderedMap.insertPair, if_neg (Ne.symm h.1), ih h.2, List.cons_append]

theorem entries_insert_of_not_mem {before : Attributes} {key : String} (value : String)
    (h : key ∉ before.entries.map Prod.fst) :
    (before.insert key value).entries = before.entries ++ [(key, value)] :=
  insertPair_of_not_mem value h

/-- Attributes with new keys are appended in order. -/
theorem expandAttributes_eq_ok_iff {raw : List RawAttribute} {before after : Attributes}
    (hk : (raw.map RawAttribute.key).Nodup)
    (hn : ∀ a ∈ raw, String.ofList a.key ∉ before.entries.map Prod.fst) :
    expandAttributes before raw = .ok after ↔
      (∀ a ∈ raw, ∃ value, Reference.expand a.value = .ok value) ∧
        after.entries = before.entries ++
          raw.map fun a => (String.ofList a.key, String.ofList (expanded a.value)) := by
  induction raw generalizing before with
  | nil =>
    have : before = after ↔ after.entries = before.entries :=
      ⟨fun h => h ▸ rfl, fun h => (entries_injective h).symm⟩
    simpa [expandAttributes] using this
  | cons a raw ih =>
    rw [List.map_cons, List.nodup_cons] at hk
    rw [expandAttributes]
    cases he : Reference.expand a.value with
    | error fault => simp [he]
    | ok value =>
      have hentries := entries_insert_of_not_mem (String.ofList value) (hn a List.mem_cons_self)
      have hn' : ∀ b ∈ raw, String.ofList b.key ∉
          (before.insert (String.ofList a.key) (String.ofList value)).entries.map Prod.fst := by
        intro b hb
        rw [hentries, List.map_append, List.mem_append, not_or]
        refine ⟨hn b (List.mem_cons_of_mem a hb), fun hm => hk.1 ?_⟩
        have hkey : b.key = a.key := by simpa [String.ofList_inj] using hm
        exact hkey ▸ List.mem_map_of_mem hb
      simp only [ih hk.2 hn', hentries, List.mem_cons, forall_eq_or_imp, he, Except.ok.injEq,
        exists_eq', true_and, List.map_cons, expanded_of_expand he, List.append_assoc,
        List.singleton_append]

/-- A tag is read by its attributes, whose values are expanded first. -/
theorem readTag_eq (content : List Char) :
    readTag content = (expandAttributes .empty (rawAttributes content).1).bind fun attributes =>
      match (rawAttributes content).2 with
      | some fault => .error (.badAttribute fault)
      | none => .ok ⟨Token.tagName content, attributes⟩ :=
  rfl

/-- A tag can be read if it is sound; it has then its name and its attributes in order. -/
theorem readTag_eq_ok_iff {content : List Char} {tag : Tag} :
    readTag content = .ok tag ↔
      Token.SoundTag content ∧ tag.name = Token.tagName content ∧
        tag.attributes.entries = attributesOf content := by
  have hx := fun after => @expandAttributes_eq_ok_iff _ .empty after
    (nodup_keys_rawAttributes content) (by simp [OrderedMap.empty])
  rw [readTag_eq, Token.SoundTag]
  constructor
  · intro h
    cases hm : expandAttributes .empty (rawAttributes content).1 with
    | error fault =>
      rw [hm] at h
      cases h
    | ok attributes =>
      rw [hm, Except.bind] at h
      obtain ⟨hv, he⟩ := (hx attributes).1 hm
      split at h
      · cases h
      · rename_i hf
        cases h
        exact ⟨⟨hf, hv⟩, rfl, he⟩
  · rintro ⟨⟨hf, hv⟩, hn, he⟩
    rw [(hx tag.attributes).2 ⟨hv, he⟩, Except.bind, hf, ← hn]

/-- No attribute comes twice with its value expanded. -/
theorem nodup_keys_attributesOf (content : List Char) :
    ((attributesOf content).map Prod.fst).Nodup := by
  have hinj : Function.Injective String.ofList := fun _ _ => String.ofList_injective
  have h := List.Nodup.map hinj (nodup_keys_rawAttributes content)
  rw [List.map_map] at h
  rwa [attributesOf, List.map_map]

/-- The sound tags are those that can be read. -/
theorem exists_readTag_iff {content : List Char} :
    (∃ tag, readTag content = .ok tag) ↔ Token.SoundTag content := by
  constructor
  · rintro ⟨tag, h⟩
    exact (readTag_eq_ok_iff.1 h).1
  · intro h
    exact ⟨⟨Token.tagName content, attributesOf content, nodup_keys_attributesOf content⟩,
      readTag_eq_ok_iff.2 ⟨h, rfl, rfl⟩⟩

end SvgComponent.Markup
