import BlockStage.Proofs.Script.Rereading

/-! Keys in scripts: however a key is written in a hat or in a condition, what is compiled goes by
its label. -/

namespace BlockStage

open Palette (standard standardEntries)

namespace Palette.Entry

theorem text_check {e : Palette.Entry} (sound : e.Sound) {p : Parameter} (hp : p ∈ e.parameters)
    {raw : Named Json.Value} {s : String} (checked : p.checked (raw.get? p.name) = .text s)
    (f : Fallback) : (⟨e.check raw, f⟩ : ArgumentReader).text p.name = s := by
  have found := get?_check sound hp raw
  rw [checked] at found
  rw [ArgumentReader.text, found]

theorem text_key {e : Palette.Entry} (sound : e.Sound)
    (takes : Palette.text "key" "space" ∈ e.parameters) {raw : Named Json.Value} {r : String}
    (given : raw.get? "key" = some (.text r)) (f : Fallback) :
    (⟨e.check raw, f⟩ : ArgumentReader).text "key" = keyLabel r :=
  text_check sound takes (congrArg (Palette.text "key" "space").checked given) f

end Palette.Entry

/-- A script of the user's that waits for a key, given by any text. -/
def Stack.WaitsForKey (s : Stack) (r : String) : Prop :=
  ∃ head body, s.blocks = head :: body ∧ head.blockId = Opcode.onKey.name ∧
    head.values.get? "key" = some (.text r)

theorem Stack.compile?_of_waitsForKey {s : Stack} {r : String} (h : s.WaitsForKey r) :
    ∃ script, s.compile? standard = some script ∧ script.trigger = .key (keyLabel r) := by
  obtain ⟨head, body, blocks, named, given⟩ := h
  have listed : Palette.hat .onKey [Palette.text "key" "space"] ∈ standardEntries := by
    simp [standardEntries]
  have found : standard.find? head.blockId = _ := named ▸ Palette.find?_standard listed
  have reads := Palette.Entry.text_key (Palette.sound_standard listed) List.mem_cons_self given
    .standard
  refine ⟨_, by rw [compile?, blocks]; simp only [found]; rfl, ?_⟩
  exact congrArg Trigger.key reads

def Command.condition? : Command → Option Condition
  | waitUntil condition => some condition
  | ifThen condition => some condition
  | ifElse condition => some condition
  | whileHolds condition => some condition
  | _ => none

structure Block.AsksKey (b : Block) (r : String) : Prop where
  asks : ∃ op ∈ Palette.asking, b.blockId = op.name
  condition : b.values.get? "condition" = some (.text "keyPressed")
  key : b.values.get? "key" = some (.text r)

theorem Palette.entry_of_asking {op : Opcode} (asks : op ∈ asking) :
    ∃ e ∈ standardEntries, e.opcode = op ∧ e.parameters = condition ∧
      (e.kind = .command ∨ e.kind = .container) := by
  simp only [asking, List.mem_cons, List.not_mem_nil, or_false] at asks
  rcases asks with rfl | rfl | rfl | rfl
  · exact ⟨command .control .waitUntil condition, by simp [standardEntries], rfl, rfl, .inl rfl⟩
  · exact ⟨container .ifThen condition, by simp [standardEntries], rfl, rfl, .inr rfl⟩
  · exact ⟨container .ifElse condition, by simp [standardEntries], rfl, rfl, .inr rfl⟩
  · exact ⟨container .whileHolds condition, by simp [standardEntries], rfl, rfl, .inr rfl⟩

theorem Command.condition?_of_asking {op : Opcode} (asks : op ∈ Palette.asking)
    (r : ArgumentReader) : ∃ command, ofOpcode? op r = some command ∧
      command.condition? = some (.ofArguments r) := by
  simp only [Palette.asking, List.mem_cons, List.not_mem_nil, or_false] at asks
  rcases asks with rfl | rfl | rfl | rfl <;> exact ⟨_, rfl, rfl⟩

theorem Block.compile?_of_asksKey {b : Block} {r : String} (h : b.AsksKey r) :
    ∃ i, b.compile? standard = some i ∧
      i.command.condition? = some (.keyPressed (keyLabel r)) := by
  obtain ⟨⟨op, asks, named⟩, asked, given⟩ := h
  obtain ⟨e, listed, rfl, parameters, kind⟩ := Palette.entry_of_asking asks
  obtain ⟨command, lowered, condition⟩ :=
    Command.condition?_of_asking asks ⟨e.check b.values, .standard⟩
  have sound := Palette.sound_standard listed
  let chosen := Palette.choice "condition" Palette.conditionNames "nearPlayer"
  have taken : chosen ∈ e.parameters := by simp [parameters, Palette.condition, chosen]
  have pressed : (⟨e.check b.values, .standard⟩ : ArgumentReader).text "condition" =
      "keyPressed" :=
    Palette.Entry.text_check sound taken (congrArg chosen.checked asked) .standard
  have label : (⟨e.check b.values, .standard⟩ : ArgumentReader).text "key" = keyLabel r :=
    Palette.Entry.text_key sound (by simp [parameters, Palette.condition]) given .standard
  have made : Condition.ofArguments ⟨e.check b.values, .standard⟩ = .keyPressed (keyLabel r) := by
    simp [Condition.ofArguments, pressed, label]
  have found : standard.find? b.blockId = some e := named ▸ Palette.find?_standard listed
  rw [made] at condition
  obtain ⟨n, id, values, children, others⟩ := b
  rcases kind with kind | kind
  · exact ⟨⟨e.opcode, e.check values, .command, command, [], []⟩,
      by simp [compile?, found, lowered, kind], condition⟩
  · exact ⟨⟨e.opcode, e.check values, .container, command, compileList standard children,
      compileList standard others⟩, by simp [compile?, found, lowered, kind], condition⟩

end BlockStage
