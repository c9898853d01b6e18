import SvgComponent.Text.Slice

/-!
# Where the lines of a text start

A `LineIndex` holds the byte offsets at which the lines of a text start. `LineIndex.position`
looks up the line of an offset by halving, and reads the text from the start of that line for the
column. It serves many offsets of one text; for a single one `Position.ofOffset` reads the text
from its start.
-/

namespace SvgComponent

/-- The byte offsets at which the lines of a text start, the first of them at its start. -/
structure LineIndex where
  starts : Array Nat
  first : starts[0]? = some 0
  increasing : starts.toList.Pairwise (· < ·)

namespace LineIndex

open Text

/-! ## The lines of a text -/

/-- The offsets behind the line breaks of a text that starts at an offset. -/
def startsFrom : Nat → List Char → List Nat
  | _, [] => []
  | n, c :: cs =>
    if c = '\n' then (n + 1) :: startsFrom (n + c.utf8Size) cs
    else startsFrom (n + c.utf8Size) cs

theorem lt_of_mem_startsFrom {n s : Nat} {cs : List Char} (h : s ∈ startsFrom n cs) : n < s := by
  induction cs generalizing n with
  | nil => cases h
  | cons c cs ih =>
    have hpos := c.utf8Size_pos
    rw [startsFrom] at h
    split at h
    · rcases List.mem_cons.1 h with rfl | h
      · exact Nat.lt_succ_self n
      · have := ih h
        omega
    · have := ih h
      omega

theorem pairwise_startsFrom (n : Nat) (cs : List Char) : (startsFrom n cs).Pairwise (· < ·) := by
  induction cs generalizing n with
  | nil => exact .nil
  | cons c cs ih =>
    rw [startsFrom]
    split
    · refine List.pairwise_cons.2 ⟨fun s hs => ?_, ih _⟩
      have := lt_of_mem_startsFrom hs
      have := c.utf8Size_pos
      omega
    · exact ih _

/-- The index of a text. -/
def ofText (text : List Char) : LineIndex where
  starts := (0 :: startsFrom 0 text).toArray
  first := rfl
  increasing := List.pairwise_cons.2 ⟨fun _ => lt_of_mem_startsFrom, pairwise_startsFrom 0 text⟩

/-! ## Searching -/

/-- Where a number is among increasing numbers, from one index up to another. If it is not there,
the error is where it would stand. -/
def search (xs : Array Nat) (x lo hi : Nat) (inside : hi ≤ xs.size) : Except Nat Nat :=
  if between : lo < hi then
    let mid := lo + (hi - lo) / 2
    have _ : mid < xs.size := by omega
    if xs[mid] = x then .ok mid
    else if xs[mid] < x then search xs x (mid + 1) hi inside
    else search xs x lo mid (by omega)
  else .error lo
termination_by hi - lo

variable {xs : Array Nat} {x lo hi i : Nat} {inside : hi ≤ xs.size}

theorem lt_of_search_eq_ok (h : search xs x lo hi inside = .ok i) : i < hi := by
  fun_induction search xs x lo hi inside with
  | case1 lo hi _ _ mid =>
    have := Except.ok.inj h
    omega
  | case2 lo hi _ _ mid _ _ _ ih => exact ih h
  | case3 lo hi _ _ mid _ _ _ ih =>
    have := ih h
    omega
  | case4 => cases h

theorem le_of_search_eq_error (hle : lo ≤ hi) (h : search xs x lo hi inside = .error i) :
    i ≤ hi := by
  fun_induction search xs x lo hi inside with
  | case1 => cases h
  | case2 lo hi _ _ mid _ _ _ ih => exact ih (by omega) h
  | case3 lo hi _ _ mid _ _ _ ih =>
    have := ih (by omega) h
    omega
  | case4 =>
    cases h
    exact hle

/-! ## Looking up an offset -/

variable (index : LineIndex)

/-- The line that an offset is on, counted from zero. -/
def lineAt (offset : Nat) : Nat :=
  match search index.starts offset 0 index.starts.size (Nat.le_refl _) with
  | .ok line => line
  | .error line => line - 1

theorem lineAt_lt (offset : Nat) : index.lineAt offset < index.starts.size := by
  have hpos : 0 < index.starts.size := (Array.getElem?_eq_some_iff.1 index.first).1
  rw [lineAt]
  split
  · rename_i h
    exact lt_of_search_eq_ok h
  · rename_i h
    have := le_of_search_eq_error (Nat.zero_le _) h
    omega

/-- The line and column of a byte offset of the text. Inside a character the column counts the
bytes since the start of the line. -/
def position (text : List Char) (offset : Nat) : Position :=
  let offset := min offset (width text)
  let line := index.lineAt offset
  have _ : line < index.starts.size := index.lineAt_lt offset
  let start := index.starts[line]
  let column :=
    match slice? start offset text with
    | some cs => cs.length
    | none => offset - start
  ⟨line + 1, column + 1⟩

end LineIndex

end SvgComponent
