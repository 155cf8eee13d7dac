import BlockStage.Proofs.Palette.Checking
import BlockStage.Proofs.Text.Labels
import BlockStage.Script.Written

/-! Checking what was checked and written changes nothing: numbers, texts, labels of keys and colours
are accepted as what they were. -/

namespace BlockStage

open Json (Document Number)

def Argument.toValue : Argument → Json.Value
  | number x => .number (.real x)
  | text s => .text s
  | color rgb => .text (Color.toHex rgb)

theorem Argument.toDocument_eq (a : Argument) : a.toDocument = a.toValue.toDocument := by
  cases a with
  | number x =>
    rw [toDocument, toValue, Json.Value.toDocument, Number.toDocument, Number.toNumeral?,
      Document.double]
    split <;> rfl
  | text s => rfl
  | color rgb => rfl

def Arguments.toValues (arguments : Arguments) : Named Json.Value :=
  arguments.map fun p => (p.1, p.2.toValue)

theorem Arguments.toDocument_eq (arguments : Arguments) :
    arguments.toDocument = .object (Json.Value.membersToDocuments arguments.toValues) := by
  rw [toDocument, Document.record, Json.Value.membersToDocuments_eq, toValues, List.map_map]
  simp only [Argument.toDocument_eq, List.map_map, Function.comp_def]

namespace ParameterKind

theorem accept?_toValue {kind : ParameterKind} {a : Argument} (admitted : kind.Admits a) :
    kind.accept? a.toValue = some a := by
  cases kind with
  | number => cases a with
    | number x =>
      have finite : x.isFinite = true := admitted
      simp [accept?, readNumber?, Argument.toValue, Number.toDouble, finite]
    | text | color => contradiction
  | text => cases a with
    | text s => rfl
    | number | color => contradiction
  | choice options => cases a with
    | text s =>
      have listed : s ∈ options := admitted
      simp [accept?, readChoice?, Argument.toValue, listed]
    | number | color => contradiction
  | color => cases a with
    | color rgb =>
      have coarse : Color.coarse rgb = rgb := admitted
      simp [accept?, readColor?, Argument.toValue, Color.ofHex?_toHex, coarse]
    | number | text => contradiction

theorem Admits.canonical {kind : ParameterKind} {a : Argument} (admitted : kind.Admits a) :
    a.toValue.Canonical := by
  cases a with
  | number x =>
    cases kind with
    | number => exact .number admitted
    | text | choice | color => contradiction
  | text s => exact .text s
  | color rgb => exact .text _

theorem coerce_toValue {kind : ParameterKind} {a : Argument} (admitted : kind.Admits a) :
    kind.coerce (some a.toValue) = a := by
  rw [coerce, Option.bind_some, accept?_toValue admitted, Option.getD_some]

end ParameterKind

namespace Palette.Entry

variable {e : Entry} {p : Parameter}

theorem keyLabel_of_checked (key : p.name = "key") {raw : Option Json.Value} {s : String}
    (h : p.checked raw = .text s) : keyLabel s = s := by
  rw [Parameter.checked] at h
  split at h
  · rw [if_pos key] at h
    obtain rfl := Argument.text.inj h
    exact keyLabel_keyLabel _
  · rename_i plain
    exact absurd h (plain s)

theorem checked_toValue (sound : e.Sound) (hp : p ∈ e.parameters) (raw : Option Json.Value) :
    p.checked (some (p.checked raw).toValue) = p.checked raw := by
  have again := ParameterKind.coerce_toValue (admits_checked sound hp raw)
  rw [Parameter.checked, again]
  cases h : p.checked raw with
  | number | color => rfl
  | text s =>
    by_cases key : p.name = "key"
    · simp [key, keyLabel_of_checked key h]
    · simp [key]

theorem check_toValues (sound : e.Sound) (raw : Named Json.Value) :
    e.check (e.check raw).toValues = e.check raw := by
  rw [check_eq e (e.check raw).toValues, check_eq e raw]
  congr 1
  refine List.map_congr_left fun p hp => ?_
  have found : (e.check raw).toValues.get? p.name =
      some (p.checked (raw.get? p.name)).toValue := by
    rw [Arguments.toValues, Named.get?_map, get?_check sound hp, Option.map_some]
  rw [← check_eq, found, checked_toValue sound hp]

end Palette.Entry
end BlockStage
