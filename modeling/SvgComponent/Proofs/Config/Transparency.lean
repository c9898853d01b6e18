import SvgComponent.Config.Load
import SvgComponent.Proofs.Config.Comments
import SvgComponent.Proofs.Json.Agreement

/-!
# Configurations with comments

A configuration is read by readers that look at tokens only (`Fields.agree_reader`), so that
comments between the tokens make no difference to it (`comments_transparent`), and whatever is wrong
with it has a place in the text (`exists_place_of_read_reader`).
-/

namespace SvgComponent.Config

open Json Text

variable {n m : Nat}

/-! ## The readers of the fields -/

namespace Fields

/-- Overrides are read alike from texts with the same tokens. -/
theorem agree_readOverrides (depth : Nat) :
    Agree n m 1 SameTokens (readOverrides depth) (readOverrides depth) fun _ => SameTokens := by
  refine .bind agree_peek fun h => ?_
  split
  · exact .failAt ..
  · refine agree_readObject depth (agree_foldMembers (fun overrides name => ?_) _)
    exact .bind agree_colon fun _ =>
      ((agree_optional agree_string).map id).weaken id (Nat.zero_le 1)
  · exact (agree_unexpected _).pre AtHead.sameTokens

/-- A stage is read alike. -/
theorem agree_readSpec (depth : Nat) :
    Agree n m 1 SameTokens (readSpec depth) (readSpec depth) fun _ => SameTokens := by
  refine .bind (agree_value depth) fun value => ?_
  split
  · exact .pure id
  · exact .fail ..

/-- Stages are read alike. -/
theorem agree_readSpecs (depth : Nat) :
    Agree n m 1 SameTokens (readSpecs depth) (readSpecs depth) fun _ => SameTokens := by
  refine .bind agree_peek fun h => ?_
  split
  · exact .failAt ..
  · refine (agree_readList depth (agree_foldItems (fun specs => ?_) [])).map id
    exact (agree_readSpec _).map id
  · exact (agree_unexpected _).pre AtHead.sameTokens

/-- A field is read alike, whichever it is. -/
theorem agree_readField (depth : Nat) (fields : Fields) (field : Field) :
    Agree n m 1 SameTokens (readField depth fields field) (readField depth fields field)
      fun _ => SameTokens := by
  cases field with
  | svgProps => exact (agree_optional (agree_readOverrides depth)).map id
  | plugins => exact (agree_optional (agree_readSpecs depth)).map id
  | inputDir | outputDir | target | template | extension =>
    exact (agree_optional agree_string).map id

/-- A member is read alike, be it a field or not. -/
theorem agree_readMember (depth : Nat) (read : List Field × Fields) (name : String) :
    Agree n m 0 SameTokens (readMember depth read name) (readMember depth read name)
      fun _ => SameTokens := by
  rw [readMember]
  split
  · exact .bind agree_colon fun _ => .bind agree_skipValue fun _ => .pure id
  · split_ifs
    · exact .fail ..
    · exact .bind agree_colon fun _ => ((agree_readField ..).map id).weaken id (Nat.zero_le 1)

/-- Fields without names are read alike. -/
theorem agree_readItems (depth position : Nat) (fields : Fields) (left : List Field) :
    Agree n m 0 SameTokens (readItems depth position fields left)
      (readItems depth position fields left) fun _ => SameTokens := by
  induction left generalizing n m position fields with
  | nil => exact .pure id
  | cons field left ih =>
    refine .bind (agree_hasItem _) fun there => ?_
    cases there with
    | false => exact .fail ..
    | true => exact .bind (agree_readField depth fields field) fun fields => ih ..

/-- All fields are read alike. -/
theorem agree_reader : Agree n m 0 SameTokens reader reader fun _ => SameTokens := by
  refine .located (.bind agree_peek fun h => ?_)
  split
  · exact .failAt ..
  · exact (agree_readList _ (agree_readItems ..)).weaken id (Nat.zero_le 1)
  · exact ((agree_readObject _ (agree_foldMembers (fun _ _ => agree_readMember ..) _)).map
      id).weaken id (Nat.zero_le 1)
  · exact (agree_unexpected _).pre AtHead.sameTokens

/-- Fields are read alike from texts with the same tokens. -/
theorem toOption_read_reader_eq {a b : List Char} (h : SameTokens a b) :
    (Json.read reader a).toOption = (Json.read reader b).toOption :=
  toOption_read_eq agree_reader h

/-- What is wrong with a text of fields is wrong at a place of the text. -/
theorem exists_place_of_read_reader {text : List Char} {fault : Fault} {place : Option Place}
    (h : Json.read reader text = .error (fault, place)) :
    ∃ bytes, place = some (Place.after ⟨1, 0⟩ text bytes) :=
  exists_place_of_read agree_reader h

end Fields

/-! ## Comments -/

/-- What a text is as a configuration depends on what its fields are read as. -/
theorem toOption_ofText_eq {path : String} {a b : List Char} (hp : isScript path = false)
    (h : (fieldsOfJson a).toOption = (fieldsOfJson b).toOption) :
    (ofText path a).toOption = (ofText path b).toOption := by
  rw [ofText, ofText, if_neg (by simp [hp]), if_neg (by simp [hp])]
  generalize fieldsOfJson a = x at h
  generalize fieldsOfJson b = y at h
  cases x <;> cases y <;> cases h <;> rfl

/-- The fields of a text are those that are read without its comments. -/
theorem fieldsOfJson_toOption_eq (text : List Char) :
    (fieldsOfJson text).toOption = (Json.read Fields.reader (stripComments text)).toOption := by
  rw [fieldsOfJson]
  cases Json.read Fields.reader (stripComments text) <;> rfl

/-- Comments are transparent : a JSON text without comments stays as it is, with comments between
its tokens it is the same configuration, and taking comments out a second time changes nothing. -/
theorem comments_transparent :
    (∀ text, IsJson text → stripComments text = text) ∧
    (∀ text commented, IsJson text → Commented text commented →
      (Json.read Fields.reader (stripComments commented)).toOption =
          (Json.read Fields.reader text).toOption ∧
        ∀ path, isScript path = false →
          (ofText path commented).toOption = (ofText path text).toOption) ∧
    ∀ text, stripComments (stripComments text) = stripComments text := by
  refine ⟨fun _ => stripComments_of_isJson, fun text commented hj hc => ?_, stripComments_idem⟩
  have hfields := Fields.toOption_read_reader_eq hc.sameTokens
  refine ⟨hfields.symm, fun path hp => toOption_ofText_eq hp ?_⟩
  rw [fieldsOfJson_toOption_eq, fieldsOfJson_toOption_eq, stripComments_of_isJson hj, hfields]

/-- A string that looks like a comment and ends in a pair of backslashes, and comments that look
like strings around it. -/
theorem comments_transparent_quotes :
    let target := ['t', 'a', 'r', 'g', 'e', 't']
    let name := ['/', '*', '\\', '\\']
    let text := '{' :: '"' :: (target ++ '"' :: ':' :: '"' :: (name ++ ['"', '}']))
    let commented := '{' :: '/' :: '/' :: '"' :: '\n' :: '"' :: (target ++ '"' :: ':' ::
      '/' :: '*' :: '"' :: '*' :: '/' :: '"' :: (name ++ ['"', '}']))
    IsJson text ∧ Commented text commented ∧ stripComments text = text ∧
      (Json.read Fields.reader (stripComments commented)).toOption =
        (Json.read Fields.reader text).toOption ∧
      isScript "svgo-jsx.config.json" = false ∧
      (ofText "svgo-jsx.config.json" commented).toOption =
        (ofText "svgo-jsx.config.json" text).toOption := by
  intro target name text commented
  have htarget : IsQuotable target := by
    repeat refine .plain (by decide) (by decide) (by decide) ?_
    exact .nil
  have hname : IsQuotable name :=
    .plain (by decide) (by decide) (by decide) <| .plain (by decide) (by decide) (by decide) <|
      .letter (by decide) .nil
  have hjson : IsJson text :=
    ⟨[], text, [], isGap_nil, .object (.last isGap_nil (.member htarget (isMark_singleton ':')
      (.string hname)) isGap_nil), isGap_nil, rfl⟩
  have hcommented : Commented text commented :=
    .mark (by decide) <| @Commented.line ['"'] _ _ (by decide) <| .string htarget.isInner <|
      .mark (by decide) <| @Commented.block ['"'] _ _ (by decide) <| .string hname.isInner <|
      .mark (by decide) .nil
  have hsame := comments_transparent.2.1 text commented hjson hcommented
  have hpath : isScript "svgo-jsx.config.json" = false := by decide +kernel
  exact ⟨hjson, hcommented, comments_transparent.1 text hjson, hsame.1, hpath, hsame.2 _ hpath⟩

end SvgComponent.Config
