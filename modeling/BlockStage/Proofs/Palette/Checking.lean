import BlockStage.Palette.Standard
import BlockStage.Proofs.Json.Lookup
import BlockStage.Proofs.Scene.Colours
import BlockStage.Script.Compiled

/-! What a check of raw values leaves: an argument for every parameter of a block and no other, each
of the kind that is asked for. Reads under the names of the parameters never fall back. -/

namespace BlockStage

namespace Color

theorem coarse_ofPacked (packed : Nat) : coarse (ofPacked packed) = ofPacked packed := by
  have bytes (shift : Nat) : ofByte (byte (channel packed shift)) = channel packed shift := by
    have written : channel packed shift = ofByte (.ofNat ((packed >>> shift) % 256)) := by
      rw [ofByte, UInt8.toNat_ofNat', Nat.mod_mod]
      rfl
    rw [written, byte_ofByte]
  simp only [coarse, ofPacked, Vec3.map, bytes]

end Color

namespace ParameterKind

/-- An argument as the parameter holds it: a finite number, one of the options, or a colour of three
bytes. -/
def Admits : ParameterKind → Argument → Prop
  | number _, .number x => x.isFinite
  | text _, .text _ => True
  | choice options _, .text s => s ∈ options
  | color _, .color rgb => Color.coarse rgb = rgb
  | _, _ => False

def DefaultFits : ParameterKind → Prop
  | number x => x.isFinite
  | choice options s => s ∈ options
  | text _ | color _ => True

instance : DecidablePred DefaultFits := fun
  | number x => inferInstanceAs (Decidable (x.isFinite = true))
  | choice options s => inferInstanceAs (Decidable (s ∈ options))
  | text _ | color _ => isTrue trivial

theorem admits_default {kind : ParameterKind} (fits : kind.DefaultFits) :
    kind.Admits kind.default := by
  cases kind with
  | number x => exact fits
  | text s => trivial
  | choice options s => exact fits
  | color packed => exact Color.coarse_ofPacked packed

theorem coarse_of_readColor? {raw : Json.Value} {rgb : Vec3} (h : readColor? raw = some rgb) :
    Color.coarse rgb = rgb := by
  have packed {n : Option Nat} (h : n.map Color.ofPacked = some rgb) : Color.coarse rgb = rgb := by
    obtain ⟨packed, -, rfl⟩ := Option.map_eq_some_iff.1 h
    exact Color.coarse_ofPacked packed
  unfold readColor? at h
  split at h
  · unfold Color.ofHex? at h
    dsimp only at h
    split at h
    · exact packed h
    · split at h
      · exact packed h
      · contradiction
  · split at h
    · obtain rfl := Option.some.inj h
      exact Color.coarse_ofPacked _
    · contradiction
  · contradiction

theorem admits_of_accept? {kind : ParameterKind} {raw : Json.Value} {a : Argument}
    (h : kind.accept? raw = some a) : kind.Admits a := by
  cases kind with
  | number x =>
    obtain ⟨read, found, rfl⟩ := Option.map_eq_some_iff.1 h
    exact (Option.filter_eq_some_iff.1 found).2
  | text s =>
    obtain ⟨read, -, rfl⟩ := Option.map_eq_some_iff.1 h
    trivial
  | choice options s =>
    obtain ⟨read, found, rfl⟩ := Option.map_eq_some_iff.1 h
    unfold readChoice? at found
    split at found
    · split at found
      · rename_i listed
        obtain rfl := Option.some.inj found
        exact listed
      · contradiction
    · contradiction
  | color packed =>
    obtain ⟨read, found, rfl⟩ := Option.map_eq_some_iff.1 h
    exact coarse_of_readColor? found

theorem admits_coerce {kind : ParameterKind} (fits : kind.DefaultFits) (raw : Option Json.Value) :
    kind.Admits (kind.coerce raw) := by
  rw [coerce]
  cases found : raw.bind kind.accept? with
  | none => exact admits_default fits
  | some a =>
    obtain ⟨value, -, accepted⟩ := Option.bind_eq_some_iff.1 found
    exact admits_of_accept? accepted

def IsText : ParameterKind → Prop
  | text _ => True
  | _ => False

instance : DecidablePred IsText := fun
  | text _ => isTrue trivial
  | number _ | choice _ _ | color _ => isFalse id

theorem IsText.admits {kind : ParameterKind} (h : kind.IsText) (s : String) :
    kind.Admits (.text s) := by
  cases kind with
  | text => trivial
  | number | choice | color => contradiction

end ParameterKind

namespace Parameter

def checked (p : Parameter) (raw : Option Json.Value) : Argument :=
  match p.kind.coerce raw with
  | .text s => if p.name = "key" then .text (keyLabel s) else .text s
  | other => other

end Parameter

namespace Palette.Entry

/-- A table of parameters as it should be: each name once, defaults that fit, and keys as plain
texts. -/
structure Sound (e : Entry) : Prop where
  distinct : (e.parameters.map (·.name)).Nodup
  defaults : ∀ p ∈ e.parameters, p.kind.DefaultFits
  keys : ∀ p ∈ e.parameters, p.name = "key" → p.kind.IsText

theorem check_eq (e : Entry) (raw : Named Json.Value) :
    e.check raw = .ofList (e.parameters.map fun p => (p.name, p.checked (raw.get? p.name))) := rfl

variable {e : Entry} {p : Parameter}

theorem get?_check (sound : e.Sound) (hp : p ∈ e.parameters) (raw : Named Json.Value) :
    (e.check raw).get? p.name = some (p.checked (raw.get? p.name)) := by
  rw [check_eq]
  refine Named.get?_ofList_of_mem ?_ (List.mem_map_of_mem hp)
  rw [List.map_map]
  exact sound.distinct

theorem admits_checked (sound : e.Sound) (hp : p ∈ e.parameters) (raw : Option Json.Value) :
    p.kind.Admits (p.checked raw) := by
  have admitted := ParameterKind.admits_coerce (sound.defaults p hp) raw
  rw [Parameter.checked]
  split
  · rename_i s coerced
    rw [coerced] at admitted
    split
    · rename_i key
      exact (sound.keys p hp key).admits _
    · exact admitted
  · exact admitted

theorem mem_names_check (e : Entry) (raw : Named Json.Value) (name : String) :
    name ∈ (e.check raw).map (·.1) ↔ name ∈ e.parameters.map (·.name) := by
  rw [check_eq, Named.mem_names_ofList, List.map_map]
  rfl

end Palette.Entry
end BlockStage
