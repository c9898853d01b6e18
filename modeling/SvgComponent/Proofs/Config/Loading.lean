import SvgComponent.Config.Load
import SvgComponent.Proofs.Config.Comments
import SvgComponent.Proofs.Config.Fields
import SvgComponent.Proofs.Script.Literals

/-!
# Configurations in JSON and in scripts

A configuration means the same in both formats (`toOption_fieldsOfJson`) : a text of a plain object,
not nested too deep, gives as JSON the fields that the script gives which exports the
text by default, and if one of them is refused the other is too. Both are told by the value of
the text. The reader of JSON follows it to its own depth only, the script to any.
-/

namespace SvgComponent.Config

open Json Text

/-- A text of an object gives the fields of the object, or none in both cases. -/
theorem toOption_fieldsOfJson_of_isTextOf {members : List (String × Json)} {text : List Char}
    (h : IsTextOf (.object members) text) (hp : Plain (.object members))
    (hd : depth (.object members) ≤ Reader.maxDepth) :
    (fieldsOfJson text).toOption = (Fields.ofJson (.object members)).toOption := by
  have hstrip : stripComments text = text := stripComments_of_isJson (isJson_of_isTextOf hp h)
  obtain ⟨before, cs, after, hb, hcs, ha, htext⟩ := h
  have hreader : Yields text.length Fields.reader (before ++ (cs ++ after))
      (Fields.ofJson (.object members)) after := by
    refine Fields.yields_reader hp hd hcs hb after ?_
    rw [htext]
    exact (List.suffix_append before (cs ++ after)).length_le
  rw [← htext] at hreader
  rw [← toOption_read hreader ha, fieldsOfJson, hstrip]
  cases Json.read Fields.reader text <;> rfl

/-- A module that exports a text gives the fields of its value, or none in both cases. -/
theorem toOption_fieldsOfScript_exported {v : Json} {text : List Char} (h : IsTextOf v text)
    (hp : Plain v) :
    (fieldsOfScript (Script.exported text)).toOption = (Fields.ofJson v).toOption := by
  rw [fieldsOfScript, Script.exportedConfig_exported hp h]
  dsimp only
  cases Fields.ofJson v <;> rfl

/-- A text of an object without numbers and repeated keys gives the same fields as JSON and as
what a script exports, or none in both. -/
theorem toOption_fieldsOfJson {members : List (String × Json)} {text : List Char}
    (h : IsTextOf (.object members) text) (hp : Plain (.object members))
    (hd : depth (.object members) < 128) :
    (fieldsOfJson text).toOption =
        (fieldsOfScript ("export default ".toList ++ text)).toOption ∧
      (fieldsOfJson text).toOption = (Fields.ofJson (.object members)).toOption := by
  have hjson := toOption_fieldsOfJson_of_isTextOf h hp (Nat.le_of_lt_succ hd)
  have hexported : "export default ".toList ++ text = Script.exported text := rfl
  rw [hexported, toOption_fieldsOfScript_exported h hp]
  exact ⟨hjson, hjson⟩

/-- A text with a gap, with escapes, one of them a surrogate pair, and with a field that is not
known. -/
theorem toOption_fieldsOfJson_escapes :
    ∃ text fields,
      text =
        "\x7b \"svgProps\":\x7b\"b\":null,\"\\u0061\":\"\\ud83d\\ude00\"\x7d,\"x\":[]\x7d".toList ∧
      (fieldsOfJson text).toOption = some fields ∧
      (fieldsOfScript ("export default ".toList ++ text)).toOption = some fields ∧
      fields.svgProps.map OrderedMap.entries = some [("b", none), ("a", some "😀")] := by
  have hcode : SpellsChar 'a' ['\\', 'u', '0', '0', '6', '1'] :=
    .code (n := 0x61) (by decide) (by decide) (by decide)
  have hpair : SpellsChar '😀' ['\\', 'u', 'd', '8', '3', 'd', '\\', 'u', 'd', 'e', '0', '0'] :=
    .pair (m := 0xD83D) (n := 0xDE00) (by decide) (by decide) (by decide) (by decide)
  have hprops : Spells (.object [("b", .null), ("a", .string "😀")]) _ :=
    ⟨_, ⟨[], _, [':'], _, _, isGap_nil, ⟨_, .escape ['b'], rfl⟩, isMark_singleton ':', rfl,
      ⟨[','], _, [':'], _, [], isMark_singleton ',',
        ⟨_, .cons hcode .nil, rfl⟩, isMark_singleton ':', ⟨_, .cons hpair .nil, rfl⟩,
        isGap_nil, rfl⟩, rfl⟩, rfl⟩
  have hlist : Spells (.array []) ['[', ']'] := ⟨[], isGap_nil, rfl⟩
  have hconfig : Spells (.object [("svgProps", .object [("b", .null), ("a", .string "😀")]),
      ("x", .array [])]) _ :=
    ⟨_, ⟨[' '], _, [':'], _, _, (by decide : IsGap [' ']),
      ⟨_, .escape "svgProps".toList, rfl⟩, isMark_singleton ':', hprops,
      ⟨[','], _, [':'], _, [], isMark_singleton ',', ⟨_, .escape ['x'], rfl⟩,
        isMark_singleton ':', hlist, isGap_nil, rfl⟩, rfl⟩, rfl⟩
  have htext : IsTextOf (.object [("svgProps", .object [("b", .null), ("a", .string "😀")]),
      ("x", .array [])])
      "\x7b \"svgProps\":\x7b\"b\":null,\"\\u0061\":\"\\ud83d\\ude00\"\x7d,\"x\":[]\x7d".toList :=
    ⟨[], _, [], isGap_nil, hconfig, isGap_nil, rfl⟩
  obtain ⟨hboth, hjson⟩ := toOption_fieldsOfJson htext
    ⟨by decide, ⟨by decide, trivial, trivial, trivial⟩, trivial, trivial⟩ (by decide)
  exact ⟨_, _, rfl, hjson, hboth.symm.trans hjson, rfl⟩

end SvgComponent.Config
