import SvgComponent.Markup.Reference
import SvgComponent.OrderedMap
import SvgComponent.Text.Blank

/-!
# Attributes of a tag

The content of a tag is its name, up to the first gap, and then attributes : a key, `=` and
a quoted value, with gaps allowed between any two of them. `readAll` reads them from left
to right and stops at the first that is malformed (`AttributeFault`); places are byte
offsets in the content of the tag.

Two attributes of one key are a fault of the second, found before its value is read. A declaration
of the document's version is read without that check.
-/

namespace SvgComponent.Markup

open Text

/-- What is wrong with an attribute, and at which byte of the tag. -/
inductive AttributeFault where
  | noEquals (position : Nat)
  | noValue (position : Nat)
  | unquoted (position : Nat)
  | openQuote (position : Nat) (quote : Char)
  | duplicate (position previous : Nat)
  deriving DecidableEq, Repr

/-- The wording of a fault. -/
def AttributeFault.message : AttributeFault → String
  | noEquals p => s!"position {p}: attribute key must be directly followed by `=` or space"
  | noValue p => s!"position {p}: `=` must be followed by an attribute value"
  | unquoted p => s!"position {p}: attribute value must be enclosed in `\"` or `'`"
  | openQuote p quote => s!"position {p}: missing closing quote `{quote}` in attribute value"
  | duplicate p previous =>
    s!"position {p}: duplicated attribute, previous declaration at position {previous}"

/-- An attribute as written : where its key starts, the key, and the value between its
quotes. -/
structure RawAttribute where
  position : Nat
  key : List Char
  value : List Char
  deriving DecidableEq, Repr

namespace RawAttribute

/-- Where a key was declared before. -/
def previous? (before : List RawAttribute) (key : List Char) : Option Nat :=
  (before.find? (·.key = key)).map (·.position)

/-- Reads the value behind `=`, with the byte offset of what follows it. -/
def readValue (pos : Nat) (cs : List Char) : Except AttributeFault (List Char × Nat × List Char) :=
  let start := pos + width (cs.takeWhile isGap)
  match skipGap cs with
  | [] => .error (.noValue (pos + width cs))
  | c :: r =>
    if c = '"' ∨ c = '\'' then
      let value := r.takeWhile (· ≠ c)
      match r.dropWhile (· ≠ c) with
      | _ :: rest => .ok (value, start + 2 + width value, rest)
      | [] => .error (.openQuote (pos + width cs) c)
    else .error (.unquoted start)

/-- Reads `=` behind a key, with the byte offset of what follows it. -/
def readEquals (pos : Nat) (cs : List Char) : Except AttributeFault (Nat × List Char) :=
  let start := pos + width (cs.takeWhile isGap)
  match skipGap cs with
  | '=' :: rest => .ok (start + 1, rest)
  | _ => .error (.noEquals start)

/-- Reads one attribute whose key starts with `first` at byte `pos`. -/
def readOne (taken : List Char → Option Nat) (pos : Nat) (first : Char) (cs : List Char) :
    Except AttributeFault (RawAttribute × Nat × List Char) := do
  let isEnd := fun c => c = '=' || isGap c
  let key := first :: cs.takeWhile (!isEnd ·)
  let (valuePos, rest) ← readEquals (pos + width key) (cs.dropWhile (!isEnd ·))
  match taken key with
  | some previous => .error (.duplicate pos previous)
  | none =>
    let (value, next, rest) ← readValue valuePos rest
    return (⟨pos, key, value⟩, next, rest)

theorem length_rest_readValue {pos next : Nat} {cs value rest : List Char}
    (h : readValue pos cs = .ok (value, next, rest)) : rest.length ≤ cs.length := by
  unfold readValue at h
  have hg := length_skipGap_le cs
  split at h
  · simp at h
  · rename_i c r hs
    rw [hs] at hg
    split at h
    · split at h
      · rename_i q rest' hd
        cases h
        have := (List.dropWhile_suffix (l := r) (· ≠ c)).length_le
        rw [hd] at this
        simp only [List.length_cons] at this hg
        omega
      · simp at h
    · simp at h

theorem length_rest_readEquals {pos next : Nat} {cs rest : List Char}
    (h : readEquals pos cs = .ok (next, rest)) : rest.length ≤ cs.length := by
  unfold readEquals at h
  have hg := length_skipGap_le cs
  split at h
  · rename_i rest' hs
    cases h
    rw [hs] at hg
    simp only [List.length_cons] at hg
    omega
  · simp at h

theorem length_rest_readOne {taken : List Char → Option Nat} {pos next : Nat} {first : Char}
    {cs rest : List Char} {a : RawAttribute}
    (h : readOne taken pos first cs = .ok (a, next, rest)) : rest.length ≤ cs.length := by
  simp only [readOne, bind, Except.bind, pure, Except.pure] at h
  split at h
  · simp at h
  · rename_i v he
    split at h
    · simp at h
    · split at h
      · simp at h
      · rename_i w hv
        have h1 := length_rest_readEquals he
        have h2 := length_rest_readValue hv
        have h3 := (List.dropWhile_suffix (l := cs) (!(fun c => c = '=' || isGap c) ·)).length_le
        simp only [Except.ok.injEq, Prod.mk.injEq] at h
        obtain ⟨_, _, rfl⟩ := h
        exact Nat.le_trans h2 (Nat.le_trans h1 h3)

/-- Reads attributes from byte `pos` on until the end or a fault. With `distinct` a key of
`before` may not come again. -/
def readFrom (distinct : Bool) (before : List RawAttribute) (pos : Nat) (cs : List Char) :
    List RawAttribute × Option AttributeFault :=
  match h : skipGap cs with
  | [] => ([], none)
  | first :: r =>
    let taken := fun key => if distinct then previous? before key else none
    match hr : readOne taken (pos + width (cs.takeWhile isGap)) first r with
    | .error fault => ([], some fault)
    | .ok (a, next, rest) =>
      let (as, fault) := readFrom distinct (before ++ [a]) next rest
      (a :: as, fault)
termination_by cs.length
decreasing_by
  have h1 := length_skipGap_le cs
  have h2 := length_rest_readOne hr
  rw [h] at h1
  simp only [List.length_cons] at h1
  omega

/-- Reads the attributes behind a name of `offset` bytes. -/
def readAll (distinct : Bool) (offset : Nat) (cs : List Char) :
    List RawAttribute × Option AttributeFault :=
  readFrom distinct [] offset cs

end RawAttribute

end SvgComponent.Markup
