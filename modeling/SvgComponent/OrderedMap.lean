/-!
# Maps in order of insertion

An `OrderedMap` lists its keys, each once, in the order in which they first came in. Writing
to a key it holds changes the value in place; writing to a new key appends. Attributes,
overrides, style objects and rename tables are such maps.

* `get?_insert` : a key reads back what was written last;
* `get?_eq_some_iff` : the entries are the keys with what they read as;
* `keys_insert` : writing keeps the order of the keys, and a new key comes last;
* `ofPairs` : of a repeated key the first place and the last value remain.
-/

namespace SvgComponent

/-- Pairs with distinct keys, in order. -/
structure OrderedMap (κ α : Type) where
  entries : List (κ × α)
  nodup : (entries.map Prod.fst).Nodup := by exact List.nodup_nil

namespace OrderedMap

variable {κ α β : Type} [DecidableEq κ]

/-- Writes to a list of pairs : in place if the key is there, else at the end. -/
def insertPair (key : κ) (value : α) : List (κ × α) → List (κ × α)
  | [] => [(key, value)]
  | (k, v) :: rest => if k = key then (k, value) :: rest else (k, v) :: insertPair key value rest

theorem keys_insertPair (key : κ) (value : α) (ps : List (κ × α)) :
    (insertPair key value ps).map Prod.fst =
      if key ∈ ps.map Prod.fst then ps.map Prod.fst else ps.map Prod.fst ++ [key] := by
  induction ps with
  | nil => simp [insertPair]
  | cons p ps ih =>
    obtain ⟨k, v⟩ := p
    by_cases h : k = key
    · simp [insertPair, h]
    · have h' : ¬ key = k := fun e => h e.symm
      rw [insertPair, if_neg h, List.map_cons, ih]
      by_cases hm : key ∈ ps.map Prod.fst <;> simp [h', hm]

theorem nodup_insertPair {ps : List (κ × α)} (h : (ps.map Prod.fst).Nodup) (key : κ)
    (value : α) : ((insertPair key value ps).map Prod.fst).Nodup := by
  rw [keys_insertPair]
  split
  · exact h
  · rename_i hm
    rw [List.nodup_append]
    exact ⟨h, by simp, fun a ha b hb => by simp at hb; subst hb; exact fun e => hm (e ▸ ha)⟩

/-- The map without entries. -/
def empty : OrderedMap κ α := ⟨[], List.nodup_nil⟩

instance : Inhabited (OrderedMap κ α) := ⟨empty⟩

/-- Writes a value : in place if the key is there, else at the end. -/
def insert (m : OrderedMap κ α) (key : κ) (value : α) : OrderedMap κ α :=
  ⟨insertPair key value m.entries, nodup_insertPair m.nodup key value⟩

/-- The value of a key. -/
def get? (m : OrderedMap κ α) (key : κ) : Option α :=
  m.entries.lookup key

/-- The keys in order. -/
def keys (m : OrderedMap κ α) : List κ :=
  m.entries.map Prod.fst

/-- Keeps the entries that pass a test. -/
def filter (m : OrderedMap κ α) (keep : κ → α → Bool) : OrderedMap κ α :=
  ⟨m.entries.filter fun p => keep p.1 p.2,
    m.nodup.sublist (List.filter_sublist.map _)⟩

/-- Changes every value, with its key at hand. -/
def mapValues (m : OrderedMap κ α) (f : κ → α → β) : OrderedMap κ β :=
  ⟨m.entries.map fun p => (p.1, f p.1 p.2), by
    have : (m.entries.map fun p => (p.1, f p.1 p.2)).map Prod.fst = m.entries.map Prod.fst := by
      simp [List.map_map, Function.comp_def]
    rw [this]
    exact m.nodup⟩

/-- Writes pairs one after the other. -/
def insertAll (m : OrderedMap κ α) (ps : List (κ × α)) : OrderedMap κ α :=
  ps.foldl (fun m p => m.insert p.1 p.2) m

/-- The map of a list of pairs. -/
def ofPairs (ps : List (κ × α)) : OrderedMap κ α :=
  empty.insertAll ps

@[simp] theorem keys_insert (m : OrderedMap κ α) (key : κ) (value : α) :
    (m.insert key value).keys = if key ∈ m.keys then m.keys else m.keys ++ [key] :=
  keys_insertPair key value m.entries

theorem lookup_insertPair (key k : κ) (value : α) (ps : List (κ × α)) :
    (insertPair key value ps).lookup k = if k = key then some value else ps.lookup k := by
  induction ps with
  | nil =>
    by_cases h : k = key
    · simp [insertPair, h]
    · have : (k == key) = false := by simpa using h
      simp [insertPair, List.lookup_cons, this, h]
  | cons p ps ih =>
    obtain ⟨q, v⟩ := p
    by_cases hq : q = key
    · subst hq
      by_cases hk : k = q
      · simp [insertPair, hk]
      · have : (k == q) = false := by simpa using hk
        simp [insertPair, List.lookup_cons, this, hk]
    · by_cases hk : k = q
      · subst hk
        simp [insertPair, hq]
      · have : (k == q) = false := by simpa using hk
        simp [insertPair, hq, List.lookup_cons, this, ih]

@[simp] theorem get?_insert (m : OrderedMap κ α) (key k : κ) (value : α) :
    (m.insert key value).get? k = if k = key then some value else m.get? k :=
  lookup_insertPair key k value m.entries

theorem lookup_eq_some_iff_mem {ps : List (κ × α)} (h : (ps.map Prod.fst).Nodup) {key : κ}
    {value : α} : ps.lookup key = some value ↔ (key, value) ∈ ps := by
  induction ps with
  | nil => simp
  | cons p ps ih =>
    obtain ⟨k, v⟩ := p
    obtain ⟨hk, hps⟩ := List.nodup_cons.1 h
    rw [List.lookup_cons, List.mem_cons]
    by_cases he : key = k
    · subst he
      have hnot : ¬ (key, value) ∈ ps := fun hm => hk (List.mem_map.2 ⟨_, hm, rfl⟩)
      simp [hnot, eq_comm]
    · have hb : (key == k) = false := by simpa using he
      rw [hb]
      simpa [he] using ih hps

theorem get?_eq_some_iff {m : OrderedMap κ α} {key : κ} {value : α} :
    m.get? key = some value ↔ (key, value) ∈ m.entries :=
  lookup_eq_some_iff_mem m.nodup

end OrderedMap

end SvgComponent
