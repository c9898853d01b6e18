import SvgComponent.Config.Fields
import SvgComponent.Proofs.Json.Values

/-!
# Fields of a text and of its value

A configuration is read from a text as it is taken from the value of the text, for plain values
(`yields_reader`) : the same fields are given, or there is a fault in both. Which fault it is may
differ, as in a text the first one from the left is reported.

Both go through the members one after the other. The reader knows which fields were there already;
of a value whose keys are distinct it never meets one again (`map_foldlM_stepField`).
-/

namespace SvgComponent.Config.Fields

open Json Text

variable {limit d : Nat} {blanks cs : List Char} {v : Json}

/-! ## Values of fields -/

/-- A string or null is read as the value is. -/
theorem yields_stringOf (hp : Plain v) (h : Spells v cs) (hg : IsGap blanks) (rest : List Char) :
    Yields limit (Reader.optional Reader.string) (blanks ++ (cs ++ rest)) (stringOf v) rest := by
  cases v with
  | null => exact yields_optional_null h hg
  | bool b =>
    exact yields_optional_wrong hp h hg nofun (by cases b <;> decide) needsStart_string _
  | number n => exact hp.elim
  | string s => exact yields_optional hp h hg nofun (yields_string isGap_nil h rest)
  | array items =>
    exact yields_optional_wrong hp h hg nofun (by simp [start?]) needsStart_string _
  | object members =>
    exact yields_optional_wrong hp h hg nofun (by simp [start?]) needsStart_string _

theorem needsStart_readOverrides : NeedsStart limit '{' (readOverrides d) := by
  intro c cs fault rest hc hq
  refine (yields_peek_cons isGap_nil hc cs).andThen ?_
  split
  · simp_all
  · simp_all
  · exact yields_unexpected fault _ _ _

/-- The members of an object are read as overrides, in order. -/
theorem yields_readOverrides {members : List (String × Json)} (hp : Plain (.object members))
    (hd : depth (.object members) ≤ d) (h : Spells (.object members) cs) (rest : List Char)
    (hl : (cs ++ rest).length ≤ limit) :
    Yields limit (readOverrides d) (cs ++ rest)
      (members.foldlM
        (fun (overrides : Jsx.Overrides) p => do
          return overrides.insert p.1 (← stringOf p.2)) .empty) rest := by
  rw [depth] at hd
  have hpos : d ≠ 0 := by omega
  have hsteps : StepsThroughMembers limit
      (fun (overrides : Jsx.Overrides) name => do
        Reader.colon
        return overrides.insert name (← Reader.optional Reader.string))
      (fun overrides p => do return overrides.insert p.1 (← stringOf p.2)) members := by
    intro p hm overrides mark cs rest hmark hcs hlen
    obtain ⟨after, ha, hcolon⟩ := yields_colon hmark (cs ++ rest)
    refine hcolon.andThen ?_
    exact (yields_stringOf (plain_of_mem_members hp.2 hm) hcs ha rest).bind
      fun _ _ => .pure _ rest
  have hobject := yields_readObject (s := OrderedMap.empty) hpos h hl hsteps
  obtain ⟨inner, -, rfl⟩ := h
  exact (yields_peek_cons isGap_nil (by decide) _).andThen hobject

/-- Overrides or null are read as the value is. -/
theorem yields_overridesOf (hp : Plain v) (hd : depth v ≤ d) (h : Spells v cs)
    (hg : IsGap blanks) (rest : List Char) (hl : (cs ++ rest).length ≤ limit) :
    Yields limit (Reader.optional (readOverrides d)) (blanks ++ (cs ++ rest)) (overridesOf v)
      rest := by
  cases v with
  | null => exact yields_optional_null h hg
  | bool b =>
    exact yields_optional_wrong hp h hg nofun (by cases b <;> decide) needsStart_readOverrides _
  | number n => exact hp.elim
  | string s =>
    exact yields_optional_wrong hp h hg nofun (by simp [start?]) needsStart_readOverrides _
  | array items =>
    exact yields_optional_wrong hp h hg nofun (by simp [start?]) needsStart_readOverrides _
  | object members =>
    have hread := yields_optional hp h hg nofun (yields_readOverrides hp hd h rest hl)
    rw [overridesOf]
    cases hx : members.foldlM (m := Except Fault) _ OrderedMap.empty <;> rwa [hx] at hread

/-- A stage is read by its name or as an object, as the value is. -/
theorem yields_readSpec (hp : Plain v) (hd : depth v ≤ d) (h : Spells v cs) (rest : List Char)
    (hl : (cs ++ rest).length ≤ limit) :
    Yields limit (readSpec d) (cs ++ rest) (specOf v) rest := by
  refine (yields_value v hp hd h isGap_nil hl).andThen ?_
  rw [specOf]
  cases StageSpec.ofJson? v with
  | none => exact fun place => ⟨_, rfl⟩
  | some spec => exact .pure spec rest

/-- The stages are gathered from the last to the first. -/
theorem map_reverse_foldlM_specOf (items : List Json) (specs : List StageSpec) :
    (items.foldlM (fun specs v => do return (← specOf v) :: specs) specs).map List.reverse =
      (items.mapM specOf).map (specs.reverse ++ ·) := by
  induction items generalizing specs with
  | nil => simp [pure, Except.pure, Except.map]
  | cons v rest ih =>
    rw [List.foldlM_cons, List.mapM_cons]
    cases specOf v with
    | error fault => rfl
    | ok spec =>
      have hrest := ih (spec :: specs)
      rw [List.reverse_cons] at hrest
      refine hrest.trans ?_
      cases rest.mapM specOf <;> simp [bind, Except.bind, pure, Except.pure, Except.map]

theorem needsStart_readSpecs : NeedsStart limit '[' (readSpecs d) := by
  intro c cs fault rest hc hq
  refine (yields_peek_cons isGap_nil hc cs).andThen ?_
  split
  · simp_all
  · simp_all
  · exact yields_unexpected fault _ _ _

/-- The items of a list are read as stages, in order. -/
theorem yields_readSpecs {items : List Json} (hp : Plain (.array items))
    (hd : depth (.array items) ≤ d) (h : Spells (.array items) cs) (rest : List Char)
    (hl : (cs ++ rest).length ≤ limit) :
    Yields limit (readSpecs d) (cs ++ rest) (items.mapM specOf) rest := by
  rw [depth] at hd
  have hpos : d ≠ 0 := by omega
  have hsteps : StepsThrough limit (fun specs => do return (← readSpec (d - 1)) :: specs)
      (fun specs v => do return (← specOf v) :: specs) items := by
    intro v hv specs cs rest hcs hlen
    have hdepth := depth_le_of_mem_items hv
    exact (yields_readSpec (plain_of_mem_items hp hv) (by omega) hcs rest hlen).bind
      fun _ _ => .pure _ rest
  have hlist := (yields_readList (s := []) hpos hp h hl hsteps).map List.reverse
  rw [map_reverse_foldlM_specOf] at hlist
  obtain ⟨inner, -, rfl⟩ := h
  refine (yields_peek_cons isGap_nil (by decide) _).andThen ?_
  cases hx : items.mapM specOf <;> rwa [hx] at hlist

/-- Stages or null are read as the value is. -/
theorem yields_specsOf (hp : Plain v) (hd : depth v ≤ d) (h : Spells v cs)
    (hg : IsGap blanks) (rest : List Char) (hl : (cs ++ rest).length ≤ limit) :
    Yields limit (Reader.optional (readSpecs d)) (blanks ++ (cs ++ rest)) (specsOf v) rest := by
  cases v with
  | null => exact yields_optional_null h hg
  | bool b =>
    exact yields_optional_wrong hp h hg nofun (by cases b <;> decide) needsStart_readSpecs _
  | number n => exact hp.elim
  | string s =>
    exact yields_optional_wrong hp h hg nofun (by simp [start?]) needsStart_readSpecs _
  | array items =>
    have hread := yields_optional hp h hg nofun (yields_readSpecs hp hd h rest hl)
    rw [specsOf]
    cases hx : items.mapM specOf <;> rwa [hx] at hread
  | object members =>
    exact yields_optional_wrong hp h hg nofun (by simp [start?]) needsStart_readSpecs _

/-- A field is read from the text of its value as it is taken from the value. -/
theorem yields_readField (fields : Fields) (field : Field) (hp : Plain v) (hd : depth v ≤ d)
    (h : Spells v cs) (hg : IsGap blanks) (rest : List Char)
    (hl : (cs ++ rest).length ≤ limit) :
    Yields limit (readField d fields field) (blanks ++ (cs ++ rest)) (setField fields v field)
      rest := by
  have hstring : Yields limit (Reader.optional Reader.string) (blanks ++ (cs ++ rest))
      (stringOf v) rest := yields_stringOf hp h hg rest
  cases field with
  | inputDir => exact hstring.bind fun _ _ => .pure _ rest
  | outputDir => exact hstring.bind fun _ _ => .pure _ rest
  | target => exact hstring.bind fun _ _ => .pure _ rest
  | svgProps => exact (yields_overridesOf hp hd h hg rest hl).bind fun _ _ => .pure _ rest
  | plugins => exact (yields_specsOf hp hd h hg rest hl).bind fun _ _ => .pure _ rest
  | template => exact hstring.bind fun _ _ => .pure _ rest
  | extension => exact hstring.bind fun _ _ => .pure _ rest

/-! ## Members -/

theorem name_of_ofName? {name : String} {field : Field} (h : Field.ofName? name = some field) :
    field.name = name := by
  have := List.find?_some h
  simpa using this

/-- What a member adds to the fields that were there already and what they are. -/
def stepField (read : List Field × Fields) (p : String × Json) :
    Except Fault (List Field × Fields) :=
  match Field.ofName? p.1 with
  | none => .ok read
  | some field =>
    if read.1.contains field then .error (.repeatedField p.1)
    else do return (field :: read.1, ← setField read.2 p.2 field)

/-- A member is read as a field, or passed over if it is none. -/
theorem yields_readMember {read : List Field × Fields} {p : String × Json} {colon : List Char}
    (hp : Plain p.2) (hd : depth p.2 ≤ d) (hc : IsMark ':' colon) (h : Spells p.2 cs)
    (rest : List Char) (hl : (colon ++ (cs ++ rest)).length ≤ limit) :
    Yields limit (readMember d read p.1) (colon ++ (cs ++ rest)) (stepField read p) rest := by
  obtain ⟨after, ha, hcolon⟩ := yields_colon hc (cs ++ rest)
  have hrest : (cs ++ rest).length ≤ limit := by
    rw [List.length_append] at hl
    omega
  rw [readMember, stepField]
  cases Field.ofName? p.1 with
  | none =>
    have hlength : cs.length ≤ limit := by
      rw [List.length_append] at hrest
      omega
    exact hcolon.andThen ((yields_skipValue hp h ha hlength).andThen (.pure read rest))
  | some field =>
    dsimp only
    split
    · exact fun place => ⟨_, rfl⟩
    · exact hcolon.andThen ((yields_readField read.2 field hp hd h ha rest hrest).bind
        fun _ _ => .pure _ rest)

/-- Of distinct keys no field is met again, so it need not be known which were there. -/
theorem map_foldlM_stepField {members : List (String × Json)} {seen : List Field}
    {fields : Fields} (hn : (members.map Prod.fst).Nodup)
    (hs : ∀ field ∈ seen, field.name ∉ members.map Prod.fst) :
    (members.foldlM stepField (seen, fields)).map Prod.snd = ofMembers fields members := by
  -- the fields seen so far are those of keys in front, so no key behind names one of them
  induction members generalizing seen fields with
  | nil => rfl
  | cons p rest ih =>
    obtain ⟨name, value⟩ := p
    rw [List.map_cons, List.nodup_cons] at hn
    rw [List.foldlM_cons, stepField, ofMembers]
    cases hf : Field.ofName? name with
    | none =>
      exact ih hn.2 fun field hfield hmem => hs field hfield (List.mem_cons_of_mem _ hmem)
    | some field =>
      have hname := name_of_ofName? hf
      have hnew : ¬ seen.contains field = true := by
        rw [List.contains_iff_mem]
        intro hmem
        exact hs field hmem (by rw [hname]; exact List.mem_cons_self)
      dsimp only
      rw [if_neg hnew]
      cases setField fields value field with
      | error fault => rfl
      | ok fields =>
        refine ih hn.2 fun other hother hmem => ?_
        obtain rfl | hother := List.mem_cons.1 hother
        · exact hn.1 (hname ▸ hmem)
        · exact hs other hother (List.mem_cons_of_mem _ hmem)

/-- The fields that are read of a text of a plain object are those that are taken from the
object. -/
theorem yields_reader {members : List (String × Json)} (hp : Plain (.object members))
    (hd : depth (.object members) ≤ Reader.maxDepth) (h : Spells (.object members) cs)
    (hg : IsGap blanks) (rest : List Char) (hl : (cs ++ rest).length ≤ limit) :
    Yields limit reader (blanks ++ (cs ++ rest)) (ofJson (.object members)) rest := by
  rw [depth] at hd
  have hsteps : StepsThroughMembers limit (readMember (Reader.maxDepth - 1)) stepField members := by
    intro p hm read colon cs rest hc hcs hlen
    have hdepth := depth_le_of_mem_members hm
    exact yields_readMember (plain_of_mem_members hp.2 hm) (by omega) hc hcs rest hlen
  have hpos : Reader.maxDepth ≠ 0 := by decide
  have hobject := (yields_readObject (s := ([], {})) hpos h hl hsteps).map Prod.snd
  rw [map_foldlM_stepField hp.1 fun _ h => absurd h List.not_mem_nil] at hobject
  obtain ⟨inner, -, rfl⟩ := h
  refine .located ((yields_peek_cons hg (by decide) _).andThen ?_)
  exact hobject

end SvgComponent.Config.Fields
