import SvgComponent.Proofs.Config.Transparency

/-!
# Lines of a configuration with comments

Places are counted in the text that is left when the comments are out. The line break behind a
comment to the end of a line stays there, those inside of a comment between marks do not : `roles`
says of each character what becomes of it, and `lineBehind_map_fst` by how much a character moves
up. So the line of a fault is that of the file if no comment in front of it goes over more than one
line (`lines_stripComments`).
-/

namespace SvgComponent.Config

open Json Text

/-! ## What becomes of a character -/

/-- Whether a character stays, and if not, what kind of comment it is in. -/
inductive Role where
  | kept
  | inLine
  | inBlock
  deriving DecidableEq, Repr

/-- What becomes of the characters of what is left of a text. -/
def rolesFrom : Mode → List Char → List (Char × Role)
  | _, [] => []
  | .code, '/' :: '/' :: cs => ('/', .inLine) :: ('/', .inLine) :: rolesFrom .lineComment cs
  | .code, '/' :: '*' :: cs => ('/', .inBlock) :: ('*', .inBlock) :: rolesFrom .blockComment cs
  | .code, '"' :: cs => ('"', .kept) :: rolesFrom .string cs
  | .code, c :: cs => (c, .kept) :: rolesFrom .code cs
  | .string, '\\' :: c :: cs => ('\\', .kept) :: (c, .kept) :: rolesFrom .string cs
  | .string, '"' :: cs => ('"', .kept) :: rolesFrom .code cs
  | .string, c :: cs => (c, .kept) :: rolesFrom .string cs
  | .lineComment, '\n' :: cs => ('\n', .kept) :: rolesFrom .code cs
  | .lineComment, c :: cs => (c, .inLine) :: rolesFrom .lineComment cs
  | .blockComment, '*' :: '/' :: cs => ('*', .inBlock) :: ('/', .inBlock) :: rolesFrom .code cs
  | .blockComment, c :: cs => (c, .inBlock) :: rolesFrom .blockComment cs

/-- What becomes of the characters of a text. -/
def roles (text : List Char) : List (Char × Role) :=
  rolesFrom .code text

/-- The characters with a role. -/
def playing (role : Role) (marked : List (Char × Role)) : List Char :=
  (marked.filter (·.2 = role)).map Prod.fst

variable {text : List Char} {before behind marked : List (Char × Role)} {c : Char}

theorem playing_cons (role role' : Role) (c : Char) (marked : List (Char × Role)) :
    playing role ((c, role') :: marked) =
      if role' = role then c :: playing role marked else playing role marked := by
  rw [playing, List.filter_cons]
  by_cases h : role' = role <;> simp [h, playing]

/-- Every character has a role. -/
theorem map_fst_rolesFrom (mode : Mode) (cs : List Char) :
    (rolesFrom mode cs).map Prod.fst = cs := by
  fun_induction rolesFrom mode cs with
  | case1 => rfl
  | _ => simp_all

/-- The text that is left is made of the characters that stay. -/
theorem playing_kept_rolesFrom (mode : Mode) (cs : List Char) :
    playing .kept (rolesFrom mode cs) = stripFrom mode cs := by
  fun_induction rolesFrom mode cs with
  | case1 mode => cases mode <;> rfl
  | _ => simp_all [playing_cons, stripFrom]

/-- A comment to the end of a line has no line break in it. -/
theorem ne_newline_of_mem_rolesFrom {mode : Mode} {cs : List Char}
    (h : (c, .inLine) ∈ rolesFrom mode cs) : c ≠ '\n' := by
  fun_induction rolesFrom mode cs with
  | case1 => cases h
  | _ => grind

theorem playing_append (role : Role) (marked marked' : List (Char × Role)) :
    playing role (marked ++ marked') = playing role marked ++ playing role marked' := by
  rw [playing, List.filter_append, List.map_append]
  rfl

/-- The characters of a text are those that stay and those of the comments. -/
theorem count_map_fst (c : Char) (marked : List (Char × Role)) :
    (marked.map Prod.fst).count c = (playing .kept marked).count c +
      (playing .inLine marked).count c + (playing .inBlock marked).count c := by
  induction marked with
  | nil => rfl
  | cons p marked ih =>
    obtain ⟨d, role⟩ := p
    rw [List.map_cons, List.count_cons, ih, playing_cons, playing_cons, playing_cons]
    cases role <;> simp [List.count_cons] <;> omega

/-- A prefix of what stays is what stays of a text that ends with a character that stays. -/
theorem exists_split_of_playing {front rest : List Char}
    (h : playing .kept marked = front ++ rest) :
    ∃ before behind, marked = before ++ behind ∧ playing .kept before = front ∧
      playing .kept behind = rest ∧ ∀ p ∈ before.getLast?, p.2 = .kept := by
  induction marked generalizing front with
  | nil =>
    obtain ⟨rfl, rfl⟩ := List.append_eq_nil_iff.1 h.symm
    exact ⟨[], [], rfl, rfl, rfl, by simp⟩
  | cons p marked ih =>
    obtain ⟨c, role⟩ := p
    cases front with
    | nil => exact ⟨[], _, rfl, rfl, h, by simp⟩
    | cons d front =>
      rw [playing_cons] at h
      split_ifs at h with hrole
      · obtain ⟨rfl, htail⟩ := List.cons.inj h
        obtain ⟨before, behind, rfl, hbefore, hbehind, hlast⟩ := ih htail
        refine ⟨(c, role) :: before, behind, rfl, ?_, hbehind, ?_⟩
        · rw [playing_cons, if_pos hrole, hbefore]
        · cases before with
          | nil => simpa using hrole
          | cons q before => rwa [List.getLast?_cons_cons]
      · obtain ⟨before, behind, rfl, hbefore, hbehind, hlast⟩ := ih h
        refine ⟨(c, role) :: before, behind, rfl, ?_, hbehind, ?_⟩
        · rw [playing_cons, if_neg hrole, hbefore]
        · cases before with
          | nil => cases hbefore
          | cons q before => rwa [List.getLast?_cons_cons]

/-! ## Lines -/

/-- The line that follows on some characters from the start of a text. -/
def lineBehind (cs : List Char) : Nat :=
  cs.count '\n' + 1

/-- A character moves up by the line breaks in the comments between marks in front of it. -/
theorem lineBehind_map_fst (h : roles text = before ++ behind) :
    lineBehind (before.map Prod.fst) =
      lineBehind (playing .kept before) + (playing .inBlock before).count '\n' := by
  have hline : (playing .inLine before).count '\n' = 0 := by
    refine List.count_eq_zero.2 fun hm => ?_
    simp only [playing, List.mem_map, List.mem_filter, decide_eq_true_eq] at hm
    obtain ⟨⟨c, role⟩, ⟨hm, rfl⟩, rfl⟩ := hm
    have hroles : ('\n', .inLine) ∈ rolesFrom .code text := by
      rw [← roles, h]
      exact List.mem_append_left behind hm
    exact ne_newline_of_mem_rolesFrom hroles rfl
  rw [lineBehind, lineBehind, count_map_fst, hline]
  omega

/-- Whatever is wrong with fields, it is not the text. -/
theorem ofFields_ne_invalid (fields : Fields) (folder path : String) (fault : ConfigTextFault) :
    ofFields fields folder ≠ .error (.invalid path fault) := by
  have htarget (name : String) : targetNamed name = .error (.unknownTarget name) ∨
      ∃ target, targetNamed name = .ok target := by
    rw [targetNamed]
    cases Target.ofName? name with
    | none => exact .inl rfl
    | some target => exact .inr ⟨target, rfl⟩
  rw [ofFields]
  cases fields.inputDir with
  | none => exact fun h => by cases h
  | some inputDir =>
    cases fields.outputDir with
    | none => exact fun h => by cases h
    | some outputDir =>
      obtain he | ⟨target, he⟩ := htarget (fields.target.getD Target.reactDom.name)
      · simp [he, bind, Except.bind]
      · cases hs : StageSpec.resolveAll (fields.plugins.getD defaultStages) <;>
          simp [he, hs, bind, Except.bind, pure, Except.pure]

/-- A fault of a configuration that is no script is one of its fields. -/
theorem fieldsOfJson_of_ofText {path path' : String} {fault : ConfigTextFault}
    (hp : isScript path = false) (h : ofText path text = .error (.invalid path' fault)) :
    fieldsOfJson text = .error fault := by
  rw [ofText, if_neg (by simp [hp])] at h
  split at h
  · exact absurd h (ofFields_ne_invalid _ _ _ _)
  · rename_i hfields
    cases h
    exact hfields

/-- A fault of the fields is one that is read without the comments. -/
theorem read_of_fieldsOfJson {fault : Fault} {place : Option Place}
    (h : fieldsOfJson text = .error (.json fault place)) :
    Json.read Fields.reader (stripComments text) = .error (fault, place) := by
  rw [fieldsOfJson] at h
  split at h
  · cases h
  · rename_i hread
    cases h
    exact hread

/-- The characters around one that stays are around it in what is left. -/
theorem splits_of_roles (h : roles text = before ++ (c, .kept) :: behind) :
    text = before.map Prod.fst ++ c :: behind.map Prod.fst ∧
      stripComments text = playing .kept before ++ c :: playing .kept behind := by
  have htext := map_fst_rolesFrom .code text
  have hstrip := playing_kept_rolesFrom .code text
  rw [← roles, h] at htext hstrip
  rw [List.map_append] at htext
  rw [playing_append, playing_cons, if_pos rfl] at hstrip
  exact ⟨htext.symm, hstrip.symm⟩

/-- A fault is found in what is left, behind a character that stays. -/
theorem exists_split_of_fault {fault : Fault} {place : Option Place}
    (h : Json.read Fields.reader (stripComments text) = .error (fault, place)) :
    ∃ place' before behind, place = some place' ∧ roles text = before ++ behind ∧
      (∀ p ∈ before.getLast?, p.2 = .kept) ∧
      Place.IsBehind ⟨1, 0⟩ place' (playing .kept before) (playing .kept behind) := by
  obtain ⟨bytes, rfl⟩ := Fields.exists_place_of_read_reader h
  obtain ⟨front, rest, hsplit, hplace⟩ :=
    Place.exists_isBehind_after ⟨1, 0⟩ (stripComments text) bytes
  have hkept : playing .kept (roles text) = front ++ rest :=
    (playing_kept_rolesFrom .code text).trans hsplit
  obtain ⟨before, behind, hroles, rfl, rfl, hlast⟩ := exists_split_of_playing hkept
  exact ⟨_, before, behind, rfl, hroles, hlast, hplace⟩

/-- The characters that stay keep their order, and each stays on its line unless there is a line
break in a comment between marks in front of it. What is wrong with a JSON configuration has a place
in the text that is left, so its line is that of the file but for those line breaks. -/
theorem lines_stripComments (text : List Char) :
    (∀ before c behind, roles text = before ++ (c, .kept) :: behind →
      text = before.map Prod.fst ++ c :: behind.map Prod.fst ∧
      stripComments text = playing .kept before ++ c :: playing .kept behind ∧
      (lineBehind (before.map Prod.fst) = lineBehind (playing .kept before) ↔
        '\n' ∉ playing .inBlock before)) ∧
    ∀ path fault place, isScript path = false →
      ofText path text = .error (.invalid path (.json fault place)) →
      ∃ place' before behind, place = some place' ∧ roles text = before ++ behind ∧
        (∀ p ∈ before.getLast?, p.2 = .kept) ∧
        Place.IsBehind ⟨1, 0⟩ place' (playing .kept before) (playing .kept behind) ∧
        lineBehind (before.map Prod.fst) = place'.line + (playing .inBlock before).count '\n' := by
  refine ⟨fun before c behind h => ?_, fun path fault place hp h => ?_⟩
  · obtain ⟨htext, hstrip⟩ := splits_of_roles h
    refine ⟨htext, hstrip, ?_⟩
    rw [lineBehind_map_fst h, Nat.add_eq_left, List.count_eq_zero]
  · have hread := read_of_fieldsOfJson (fieldsOfJson_of_ofText hp h)
    obtain ⟨place', before, behind, rfl, hroles, hlast, hplace⟩ := exists_split_of_fault hread
    refine ⟨place', before, behind, rfl, hroles, hlast, hplace, ?_⟩
    rw [lineBehind_map_fst hroles, hplace.line_eq, Place.line_behind, lineBehind, Nat.add_comm _ 1]

/-- A comment over two lines, and behind it a character that starts no value : the character is on
the third line, the fault on the second. -/
theorem lines_stripComments_overLines :
    let path := "svgo-jsx.config.json"
    let before := [('/', .inBlock), ('*', .inBlock), ('\n', .inBlock), ('*', .inBlock),
      ('/', .inBlock), ('\n', Role.kept)]
    let text := ['/', '*', '\n', '*', '/', '\n', 'x']
    let place : Place := ⟨2, 1⟩
    roles text = before ++ [('x', .kept)] ∧ isScript path = false ∧
      ofText path text = .error (.invalid path (.json .valueExpected (some place))) ∧
      (lineBehind (before.map Prod.fst) = lineBehind (playing .kept before) ↔
        '\n' ∉ playing .inBlock before) ∧
      ∃ place' before behind, some place = some place' ∧ roles text = before ++ behind ∧
        (∀ p ∈ before.getLast?, p.2 = .kept) ∧
        Place.IsBehind ⟨1, 0⟩ place' (playing .kept before) (playing .kept behind) ∧
        lineBehind (before.map Prod.fst) = place'.line + (playing .inBlock before).count '\n' := by
  intro path before text place
  have hroles : roles text = before ++ [('x', .kept)] := rfl
  have hp : isScript path = false := by decide +kernel
  have hfields : fieldsOfJson text = .error (.json .valueExpected (some place)) := rfl
  have hfault : ofText path text = .error (.invalid path (.json .valueExpected (some place))) := by
    rw [ofText, if_neg (by simp [hp]), hfields]
  have hlines := lines_stripComments text
  exact ⟨hroles, hp, hfault, (hlines.1 before 'x' [] hroles).2.2, hlines.2 path _ _ hp hfault⟩

/-- Not every character stays on its line. -/
theorem not_forall_lineBehind_eq :
    ¬ ∀ text before c behind, roles text = before ++ (c, .kept) :: behind →
      lineBehind (before.map Prod.fst) = lineBehind (playing .kept before) := by
  intro h
  have hx := h ['/', '*', '\n', '*', '/', 'x'] [('/', .inBlock), ('*', .inBlock), ('\n', .inBlock),
    ('*', .inBlock), ('/', .inBlock)] 'x' [] rfl
  exact absurd hx (by decide)

end SvgComponent.Config
