import SvgComponent.Css.Declaration

/-!
# Brackets in style texts

`openBrackets` keeps the account of brackets that `takeBlock` keeps. When it is empty behind
some tokens, no block reaches out of them (`parts_append`). Parts are the text of their tokens
(`written_parts`), and their kinds are told by the kinds of the tokens (`map_kind_parts`).
-/

namespace SvgComponent.Css

/-! ## Open brackets -/

/-- The open brackets behind a token, given by the marks that close them, the innermost first. -/
def nest (stack : List Char) (kind : Kind) : List Char :=
  match kind with
  | .opener mark => mark :: stack
  | .closer mark => if stack.head? = some mark then stack.tail else stack
  | _ => stack

/-- The brackets that are open behind tokens. -/
def openBrackets (stack : List Char) (kinds : List Kind) : List Char :=
  kinds.foldl nest stack

theorem takeBlock_cons (stack : List Char) (t : Token) (ts : List Token) :
    takeBlock stack (t :: ts) =
      if nest stack t.kind = [] then (t.lexeme, ts)
      else (t.lexeme ++ (takeBlock (nest stack t.kind) ts).1,
        (takeBlock (nest stack t.kind) ts).2) := by
  rw [takeBlock]
  by_cases h : nest stack t.kind = []
  · rw [if_pos h]
    split
    · rfl
    · rename_i hne
      exact absurd h hne
  · rw [if_neg h]
    split
    · rename_i hnil
      exact absurd hnil h
    · rfl

/-- A block that is closed takes nothing of what is behind it. -/
theorem takeBlock_append {stack : List Char} {a : List Token} (b : List Token)
    (hstack : stack ≠ []) (h : openBrackets stack (a.map (·.kind)) = []) :
    takeBlock stack (a ++ b) = ((takeBlock stack a).1, (takeBlock stack a).2 ++ b) ∧
      openBrackets [] ((takeBlock stack a).2.map (·.kind)) = [] := by
  induction a generalizing stack with
  | nil => exact absurd h hstack
  | cons t a ih =>
    rw [List.cons_append, takeBlock_cons, takeBlock_cons]
    by_cases hnest : nest stack t.kind = []
    · rw [if_pos hnest, if_pos hnest]
      rw [List.map_cons, openBrackets, List.foldl_cons, hnest] at h
      exact ⟨rfl, h⟩
    · rw [if_neg hnest, if_neg hnest]
      obtain ⟨htake, hopen⟩ := ih hnest h
      exact ⟨by rw [htake], hopen⟩

theorem nest_nil {kind : Kind} (h : ∀ mark, kind ≠ .opener mark) : nest [] kind = [] := by
  cases kind <;> simp_all [nest]

theorem parts_nil : parts [] = [] := by rw [parts]

/-- An opening bracket makes a part of all that is in it. -/
theorem parts_opener {t : Token} {mark : Char} (h : t.kind = .opener mark) (ts : List Token) :
    parts (t :: ts) =
      ⟨t.kind, t.lexeme ++ (takeBlock [mark] ts).1⟩ :: parts (takeBlock [mark] ts).2 := by
  rw [parts]
  split
  · rename_i mark' h'
    rw [h] at h'
    cases h'
    rfl
  · rename_i h'
    exact absurd h (h' mark)

/-- Any other token is a part. -/
theorem parts_cons {t : Token} (h : ∀ mark, t.kind ≠ .opener mark) (ts : List Token) :
    parts (t :: ts) = ⟨t.kind, t.lexeme⟩ :: parts ts := by
  rw [parts]
  split
  · rename_i mark h'
    exact absurd h' (h mark)
  · rfl

/-- No block reaches out of tokens behind which no bracket is open. -/
theorem parts_append {a : List Token} (b : List Token)
    (h : openBrackets [] (a.map (·.kind)) = []) : parts (a ++ b) = parts a ++ parts b := by
  induction a using parts.induct with
  | case1 => rw [List.nil_append, parts_nil, List.nil_append]
  | case2 t a mark hkind ih =>
    have hopen : openBrackets [mark] (a.map (·.kind)) = [] := by
      rw [List.map_cons, openBrackets, List.foldl_cons, hkind] at h
      exact h
    obtain ⟨htake, hrest⟩ := takeBlock_append b (List.cons_ne_nil mark []) hopen
    rw [List.cons_append, parts_opener hkind, parts_opener hkind, htake, ih hrest, List.cons_append]
  | case3 t a hkind ih =>
    rw [List.map_cons, openBrackets, List.foldl_cons, nest_nil hkind] at h
    rw [List.cons_append, parts_cons hkind, parts_cons hkind, ih h, List.cons_append]

/-- A block and what is behind it are all of the text. -/
theorem lexeme_takeBlock (stack : List Char) (ts : List Token) :
    (takeBlock stack ts).1 ++ (takeBlock stack ts).2.flatMap (·.lexeme) =
      ts.flatMap (·.lexeme) := by
  induction ts generalizing stack with
  | nil => rfl
  | cons t ts ih =>
    rw [takeBlock_cons, List.flatMap_cons]
    split
    · rfl
    · rw [List.append_assoc, ih]

/-- Parts are the text of their tokens. -/
theorem written_parts (ts : List Token) : written (parts ts) = ts.flatMap (·.lexeme) := by
  induction ts using parts.induct with
  | case1 => rw [parts_nil, written, List.flatMap_nil, List.flatMap_nil]
  | case2 t ts mark hkind ih =>
    rw [parts_opener hkind, written, List.flatMap_cons, ← written, ih, List.append_assoc,
      lexeme_takeBlock, List.flatMap_cons]
  | case3 t ts hkind ih =>
    rw [parts_cons hkind, written, List.flatMap_cons, ← written, ih, List.flatMap_cons]

theorem written_append (ps qs : List Part) : written (ps ++ qs) = written ps ++ written qs :=
  List.flatMap_append

/-! ## Tokens outside brackets -/

/-- A token that opens no bracket is a part. -/
def Token.part (t : Token) : Part := ⟨t.kind, t.lexeme⟩

/-- Tokens of which none opens a bracket. -/
def IsPlain (ts : List Token) : Prop := ∀ t ∈ ts, ∀ mark, t.kind ≠ .opener mark

/-- Tokens that open no bracket are parts. -/
theorem parts_plain {ts : List Token} (h : IsPlain ts) (us : List Token) :
    parts (ts ++ us) = ts.map Token.part ++ parts us := by
  induction ts with
  | nil => rfl
  | cons t ts ih =>
    rw [IsPlain, List.forall_mem_cons] at h
    rw [List.cons_append, parts_cons h.1, ih h.2]
    rfl

theorem openBrackets_append (stack : List Char) (ks ls : List Kind) :
    openBrackets stack (ks ++ ls) = openBrackets (openBrackets stack ks) ls :=
  List.foldl_append

/-- Tokens that open no bracket leave none open. -/
theorem openBrackets_plain {ts : List Token} (h : IsPlain ts) :
    openBrackets [] (ts.map (·.kind)) = [] := by
  induction ts with
  | nil => rfl
  | cons t ts ih =>
    rw [IsPlain, List.forall_mem_cons] at h
    rw [List.map_cons, openBrackets, List.foldl_cons, nest_nil h.1]
    exact ih h.2

/-- How far a block goes is told by the kinds of the tokens. -/
theorem map_kind_takeBlock {stack : List Char} {ts us : List Token}
    (h : ts.map (·.kind) = us.map (·.kind)) :
    (takeBlock stack ts).2.map (·.kind) = (takeBlock stack us).2.map (·.kind) := by
  induction ts generalizing us stack with
  | nil => rw [List.map_eq_nil_iff.1 h.symm]
  | cons t ts ih =>
    obtain ⟨u, us, rfl, hkind, hrest⟩ := List.map_eq_cons_iff.1 h.symm
    rw [takeBlock_cons, takeBlock_cons, hkind]
    split
    · exact hrest.symm
    · exact ih hrest.symm

/-- The kinds of parts are told by the kinds of tokens. -/
theorem map_kind_parts {ts us : List Token} (h : ts.map (·.kind) = us.map (·.kind)) :
    (parts ts).map (·.kind) = (parts us).map (·.kind) := by
  induction ts using parts.induct generalizing us with
  | case1 => rw [List.map_eq_nil_iff.1 h.symm]
  | case2 t ts mark hkind ih =>
    obtain ⟨u, us, rfl, hu, hrest⟩ := List.map_eq_cons_iff.1 h.symm
    rw [parts_opener hkind, parts_opener (hu.trans hkind), List.map_cons, List.map_cons, hu,
      ih (map_kind_takeBlock hrest.symm)]
  | case3 t ts hkind ih =>
    obtain ⟨u, us, rfl, hu, hrest⟩ := List.map_eq_cons_iff.1 h.symm
    rw [parts_cons hkind, parts_cons fun mark hm => hkind mark (hu.symm.trans hm), List.map_cons,
      List.map_cons, hu, ih hrest.symm]

end SvgComponent.Css
