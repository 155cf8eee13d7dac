import BlockStage.Proofs.Palette.Checking

/-! The standard palette and the operations agree on every name: what an operation reads are
parameters of its block, of the kind it reads them as. -/

namespace BlockStage

namespace ParameterKind

/-- Two readers read the same under a name, as the kind of argument that a parameter holds. -/
def ReadsSame (kind : ParameterKind) (name : String) (r r' : ArgumentReader) : Prop :=
  match kind with
  | number _ => r.number name = r'.number name
  | text _ | choice _ _ => r.text name = r'.text name
  | color _ => r.color name = r'.color name

variable {name : String} {r r' : ArgumentReader}

theorem readsSame_number {x : Float} :
    (number x).ReadsSame name r r' ↔ r.number name = r'.number name := Iff.rfl

theorem readsSame_text {s : String} :
    (text s).ReadsSame name r r' ↔ r.text name = r'.text name := Iff.rfl

theorem readsSame_choice {options : List String} {s : String} :
    (choice options s).ReadsSame name r r' ↔ r.text name = r'.text name := Iff.rfl

theorem readsSame_color {packed : Nat} :
    (color packed).ReadsSame name r r' ↔ r.color name = r'.color name := Iff.rfl

end ParameterKind

namespace Palette

open ParameterKind

namespace Entry

/-- Two readers read the same under the name of every parameter. -/
def ReadsSame (e : Entry) (r r' : ArgumentReader) : Prop :=
  ∀ p ∈ e.parameters, p.kind.ReadsSame p.name r r'

theorem readsSame_check {e : Entry} (sound : e.Sound) (raw : Named Json.Value) (f f' : Fallback) :
    e.ReadsSame ⟨e.check raw, f⟩ ⟨e.check raw, f'⟩ := by
  intro p hp
  have found := get?_check sound hp raw
  have admitted := admits_checked sound hp (raw.get? p.name)
  generalize p.checked (raw.get? p.name) = a at found admitted
  cases h : p.kind <;> rw [h] at admitted <;> cases a <;> first
    | contradiction
    | simp only [ParameterKind.ReadsSame, ArgumentReader.number, ArgumentReader.text,
        ArgumentReader.color, found]

end Entry

theorem sound_standard {e : Entry} (he : e ∈ standardEntries) : e.Sound := by
  have distinct : ∀ e ∈ standardEntries, (e.parameters.map (·.name)).Nodup := by decide +kernel
  have defaults : ∀ e ∈ standardEntries, ∀ p ∈ e.parameters, p.kind.DefaultFits := by
    decide +kernel
  have keys : ∀ e ∈ standardEntries, ∀ p ∈ e.parameters, p.name = "key" → p.kind.IsText := by
    decide +kernel
  exact ⟨distinct e he, defaults e he, keys e he⟩

section Reading

variable {e : Entry} {r r' : ArgumentReader}

theorem ofArguments_congr (same : ∀ p ∈ condition, p.kind.ReadsSame p.name r r') :
    Condition.ofArguments r = Condition.ofArguments r' := by
  simp only [condition, List.forall_mem_cons, number, text, choice, readsSame_number,
    readsSame_text, readsSame_choice] at same
  obtain ⟨kind, distance, key, var, op, value, percent, -⟩ := same
  simp only [Condition.ofArguments, ArgumentReader.single, kind, distance, key, var, op, value,
    percent]

theorem ofHat?_congr (he : e ∈ standardEntries) (same : e.ReadsSame r r') :
    Trigger.ofHat? e.opcode r = Trigger.ofHat? e.opcode r' := by
  revert e
  -- One goal for each block that is defined, under what its parameters say.
  simp only [standardEntries, List.forall_mem_cons, List.not_mem_nil, false_implies, implies_true,
    and_true, Entry.ReadsSame, hat, command, container, define, List.forall_mem_append, number,
    text, choice, color, readsSame_number, readsSame_text, readsSame_choice, readsSame_color]
  and_intros
  all_goals try intro same
  all_goals simp only [Trigger.ofHat?, same]

theorem ofOpcode?_congr (he : e ∈ standardEntries) (same : e.ReadsSame r r') :
    Command.ofOpcode? e.opcode r = Command.ofOpcode? e.opcode r' := by
  revert e
  simp only [standardEntries, List.forall_mem_cons, List.not_mem_nil, false_implies, implies_true,
    and_true, Entry.ReadsSame, hat, command, container, define, List.forall_mem_append, point,
    number, text, choice, color, readsSame_number, readsSame_text, readsSame_choice,
    readsSame_color]
  and_intros
  all_goals try intro same
  all_goals try simp only [Command.ofOpcode?, ArgumentReader.point, ArgumentReader.single, same]
  -- The blocks that ask a condition are left.
  all_goals rw [ofArguments_congr same]

end Reading

theorem isSome_ofHat? (op : Opcode) (r r' : ArgumentReader) :
    (Trigger.ofHat? op r).isSome = (Trigger.ofHat? op r').isSome := by
  cases op <;> simp only [Trigger.ofHat?, Option.isSome_some, Option.isSome_none]

theorem isSome_ofOpcode? (op : Opcode) (r r' : ArgumentReader) :
    (Command.ofOpcode? op r).isSome = (Command.ofOpcode? op r').isSome := by
  cases op <;> simp only [Command.ofOpcode?, Option.isSome_some, Option.isSome_none]

theorem isSome_ofHat?_of_hat {e : Entry} (he : e ∈ standardEntries) (hat : e.kind = .hat)
    (r : ArgumentReader) : (Trigger.ofHat? e.opcode r).isSome := by
  have some : ∀ e ∈ standardEntries, e.kind = .hat →
      (Trigger.ofHat? e.opcode ⟨[], .standard⟩).isSome := by decide +kernel
  rw [isSome_ofHat? _ r ⟨[], .standard⟩]
  exact some e he hat

theorem isSome_ofOpcode?_of_command {e : Entry} (he : e ∈ standardEntries)
    (kind : e.kind = .command ∨ e.kind = .container) (r : ArgumentReader) :
    (Command.ofOpcode? e.opcode r).isSome := by
  have some : ∀ e ∈ standardEntries, e.kind = .command ∨ e.kind = .container →
      (Command.ofOpcode? e.opcode ⟨[], .standard⟩).isSome := by decide +kernel
  rw [isSome_ofOpcode? _ r ⟨[], .standard⟩]
  exact some e he kind

def asking : List Opcode := [.waitUntil, .ifThen, .ifElse, .whileHolds]

theorem condition_of_asking {e : Entry} (he : e ∈ standardEntries) (asks : e.opcode ∈ asking) :
    e.parameters = condition := by
  revert e
  simp only [standardEntries, List.forall_mem_cons, List.not_mem_nil, false_implies, implies_true,
    and_true, hat, command, container, define]
  and_intros
  all_goals first
    | trivial
    | exact fun asks => absurd asks (by decide)

/-- Whatever raw values a block of the palette is given, checking them leaves an argument for each
of its parameters, as the parameter holds it, and no other. A hat has a trigger then, and a command
or container has a command. Nothing that is read from the arguments falls back: no trigger, no
command and no condition depends on what stands for arguments that are missing. -/
theorem standard_never_falls_back {e : Entry} (he : e ∈ standard.entries)
    (raw : Named Json.Value) :
    ((e.check raw).Sorted ∧
      (∀ name, name ∈ (e.check raw).map (·.1) ↔ name ∈ e.parameters.map (·.name)) ∧
      ∀ p ∈ e.parameters, ∃ a, (e.check raw).get? p.name = some a ∧ p.kind.Admits a) ∧
    (∀ f, e.kind = .hat → ∃ trigger, Trigger.ofHat? e.opcode ⟨e.check raw, f⟩ = some trigger) ∧
    (∀ f, e.kind = .command ∨ e.kind = .container →
      ∃ command, Command.ofOpcode? e.opcode ⟨e.check raw, f⟩ = some command) ∧
    ∀ f f' : Fallback,
      Trigger.ofHat? e.opcode ⟨e.check raw, f⟩ = Trigger.ofHat? e.opcode ⟨e.check raw, f'⟩ ∧
      Command.ofOpcode? e.opcode ⟨e.check raw, f⟩ = Command.ofOpcode? e.opcode ⟨e.check raw, f'⟩ ∧
      (e.opcode ∈ asking →
        Condition.ofArguments ⟨e.check raw, f⟩ = Condition.ofArguments ⟨e.check raw, f'⟩) := by
  have sound := sound_standard he
  refine ⟨⟨Named.sorted_ofList _, e.mem_names_check raw, fun p hp => ?_⟩, fun f hat => ?_,
    fun f kind => ?_, fun f f' => ?_⟩
  · exact ⟨_, Entry.get?_check sound hp raw, Entry.admits_checked sound hp _⟩
  · exact Option.isSome_iff_exists.1 (isSome_ofHat?_of_hat he hat _)
  · exact Option.isSome_iff_exists.1 (isSome_ofOpcode?_of_command he kind _)
  · have same := Entry.readsSame_check sound raw f f'
    refine ⟨ofHat?_congr he same, ofOpcode?_congr he same, fun asks => ?_⟩
    exact ofArguments_congr (condition_of_asking he asks ▸ same)

section Example

def asked : Entry := command .control .waitUntil condition

/-- A key that is no text, a misspelt name, and a number beyond the doubles. -/
def misspelt : Named Json.Value :=
  [("condition", .text "keyPressed"), ("key", .null), ("keys", .text "w"),
    ("percent", .text "1e999")]

def loud : Fallback := ⟨fun _ => 7, fun _ => "?", fun _ => .zero⟩

/-- The missing key becomes the default one and not what stands for a missing text. -/
theorem asked_never_falls_back :
    asked ∈ standard.entries ∧
    Condition.ofArguments ⟨asked.check misspelt, loud⟩ =
      Condition.ofArguments ⟨asked.check misspelt, .standard⟩ := by
  have known : asked ∈ standard.entries := by simp [standard, standardEntries, asked]
  exact ⟨known, ((standard_never_falls_back known misspelt).2.2.2 loud .standard).2.2 (by decide)⟩

end Example

end Palette
end BlockStage
