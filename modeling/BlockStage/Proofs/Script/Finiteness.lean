import BlockStage.Proofs.Run.Reseeding
import BlockStage.Proofs.Scalar.Narrowing
import BlockStage.Proofs.Script.Meaning
import BlockStage.Proofs.Script.Rereading

/-! The numbers in a compiled script. Those that stay doubles are finite, whatever was written.
Those that are held as singles are finite just if they are in the range of singles, and no check
asks for that. -/

namespace BlockStage

open Palette (standard standardEntries)
open Scalar (Narrowable singleLimit)

/-! ### The numbers of a command -/

def Edit.singles : Edit → List Float32
  | move point | setPosition point | rotate point | setRotation point | setColor point
  | setScale point => point.toList
  | setOpacity x | changeScale x => [x]
  | setVisible _ => []

def EffectPlan.singles : EffectPlan → List Float32
  | spin _ speed | followPlayer speed | colorShift speed => [speed]
  | bounce height speed => [height, speed]
  | patrol _ distance speed => [distance, speed]
  | orbit radius speed => [radius, speed]
  | scalePulse min max speed => [min, max, speed]
  | trail rgb => rgb.toList

def Condition.singles : Condition → List Float32
  | nearPlayer distance | farFromPlayer distance => [distance]
  | _ => []

def Condition.doubles : Condition → List Float
  | variableIs _ _ value => [value]
  | chance percent => [percent]
  | _ => []

namespace Command

def singles : Command → List Float32
  | edit change => change.singles
  | glide point _ _ | teleportPlayer point | spawnObject _ point => point.toList
  | launchPlayer x | setPlayerSpeed x | setJumpForce x => [x]
  | say _ seconds | showMessage _ seconds => [seconds]
  | startEffect plan => plan.singles
  | particles rgb _ => rgb.toList
  | waitUntil condition | ifThen condition | ifElse condition | whileHolds condition =>
    condition.singles
  | playTone frequency seconds => [frequency, seconds]
  | _ => []

def doubles : Command → List Float
  | glide _ seconds _ | wait seconds | startTimer seconds => [seconds]
  | waitUntil condition | ifThen condition | ifElse condition | whileHolds condition =>
    condition.doubles
  | setVar _ x | changeVar _ x | damage x | heal x | addScore x => [x]
  | _ => []

end Command

def Trigger.doubles : Trigger → List Float
  | timer period => [period]
  | _ => []

/-! ### What is read as a single -/

def Condition.narrowed (r : ArgumentReader) : List String :=
  if r.text "condition" ∈ ["keyPressed", "anyKey", "variable", "chance"] then [] else ["distance"]

namespace Opcode

/-- The numbers that an operation holds as singles, whatever they are. -/
def narrowed (r : ArgumentReader) : Opcode → List String
  | move | setPosition | rotate | setRotation | glide | smoothMove | teleportPlayer | setScale
  | spawnObject => ["x", "y", "z"]
  | launchPlayer => ["force"]
  | changeScale => ["factor"]
  | spin | followPlayer | colorShift => ["speed"]
  | bounce => ["height", "speed"]
  | patrol => ["distance", "speed"]
  | orbit => ["radius", "speed"]
  | scalePulse => ["min", "max", "speed"]
  | playTone => ["frequency"]
  | waitUntil | ifThen | ifElse | whileHolds => Condition.narrowed r
  | _ => []

/-- The numbers that an operation holds as singles, zero in place of those below. -/
def raised : Opcode → List String
  | say | showMessage | playTone => ["seconds"]
  | setPlayerSpeed => ["speed"]
  | setJumpForce => ["force"]
  | _ => []

def InRange (op : Opcode) (r : ArgumentReader) : Prop :=
  (∀ name ∈ op.narrowed r, Narrowable (r.number name)) ∧
    ∀ name ∈ op.raised, r.number name < singleLimit

instance (op : Opcode) (r : ArgumentReader) : Decidable (op.InRange r) :=
  inferInstanceAs (Decidable (_ ∧ _))

end Opcode

/-! ### Checked arguments -/

def Argument.Finite : Argument → Prop
  | number x => x.isFinite = true
  | text _ => True
  | color rgb => ∀ s ∈ rgb.toList, s.isFinite = true

theorem Color.finite_of_coarse {rgb : Vec3} (h : coarse rgb = rgb) :
    ∀ s ∈ rgb.toList, s.isFinite = true := by
  have bytes : ∀ n : Fin 256, (ofByte (.ofFin n)).isFinite = true := by decide +kernel
  have finite (n : UInt8) : (ofByte n).isFinite = true := bytes n.toFin
  rw [← h]
  simp only [coarse, Vec3.map, Vec3.toList, List.forall_mem_cons, finite, List.not_mem_nil,
    false_implies, implies_true, and_self]

theorem ParameterKind.Admits.finite {kind : ParameterKind} {a : Argument} (h : kind.Admits a) :
    a.Finite := by
  cases a with
  | number x => cases kind <;> first | exact h | contradiction
  | text s => trivial
  | color rgb => cases kind <;> first | exact Color.finite_of_coarse h | contradiction

structure ArgumentReader.Finite (r : ArgumentReader) : Prop where
  number (name : String) : (r.number name).isFinite = true
  color (name : String) : ∀ s ∈ (r.color name).toList, s.isFinite = true

namespace Palette.Entry

variable {e : Entry}

theorem finite_of_mem_check (sound : e.Sound) {raw : Named Json.Value} {entry : String × Argument}
    (h : entry ∈ e.check raw) : entry.2.Finite := by
  obtain ⟨p, listed, rfl⟩ := List.mem_map.1 (Named.mem_ofList h)
  exact (admits_checked sound listed _).finite

theorem finite_check (sound : e.Sound) (raw : Named Json.Value) :
    (ArgumentReader.mk (e.check raw) .standard).Finite := by
  have found {name : String} {a : Argument} (h : (e.check raw).get? name = some a) : a.Finite := by
    obtain ⟨before, after, split, -⟩ := List.lookup_eq_some_iff.1 h
    exact finite_of_mem_check sound (split ▸ List.mem_append_right _ List.mem_cons_self)
  have zero : (0 : Float).isFinite = true := by decide
  have white : ∀ s ∈ Vec3.one.toList, s.isFinite = true := by decide
  constructor
  · intro name
    rw [ArgumentReader.number]
    split
    · rename_i x h
      exact found h
    · exact zero
  · intro name
    rw [ArgumentReader.color]
    split
    · rename_i rgb h
      exact found h
    · exact white

end Palette.Entry

namespace ArgumentReader.Finite

variable {r : ArgumentReader} (finite : r.Finite) (name : String)

include finite

theorem single_iff : (r.single name).isFinite = true ↔ Narrowable (r.number name) :=
  Scalar.isFinite_narrow_iff (finite.number name)

theorem point_iff : (∀ s ∈ r.point.toList, s.isFinite = true) ↔
    ∀ name ∈ ["x", "y", "z"], Narrowable (r.number name) := by
  simp only [ArgumentReader.point, Vec3.toList, List.forall_mem_cons, List.not_mem_nil,
    false_implies, implies_true, finite.single_iff]

theorem radians_iff : (∀ s ∈ (Command.radians r.point).toList, s.isFinite = true) ↔
    ∀ name ∈ ["x", "y", "z"], Narrowable (r.number name) := by
  rw [← finite.point_iff]
  change (∀ s ∈ [r.point.x * _, r.point.y * _, r.point.z * _], s.isFinite = true) ↔ _
  simp only [Vec3.toList, List.forall_mem_cons, Scalar.isFinite_mul_radian]

theorem atLeastZero_iff : (Command.atLeastZero (r.single name)).isFinite = true ↔
    r.number name < singleLimit :=
  Scalar.isFinite_larger_narrow_iff (finite.number name)

theorem clamp : (Scalar.clamp (r.single name) 0 1).isFinite = true :=
  Scalar.isFinite_clamp_narrow (finite.number name)

theorem larger_zero : (Scalar.larger (r.number name) 0).isFinite = true := by
  obtain same | zero := Scalar.larger_eq_or (r.number name) 0
  · rw [same]
    exact finite.number name
  · rw [zero]
    rfl

theorem percent : (Scalar.clamp (r.number name) 0 100).isFinite = true := by
  obtain same | zero | most := Scalar.clamp_eq_or (r.number name) 0 100
  · rw [same]
    exact finite.number name
  · rw [zero]
    rfl
  · rw [most]
    rfl

end ArgumentReader.Finite

theorem Condition.finite_ofArguments {r : ArgumentReader} (finite : r.Finite) :
    (∀ x ∈ (ofArguments r).doubles, x.isFinite = true) ∧
      ((∀ s ∈ (ofArguments r).singles, s.isFinite = true) ↔
        ∀ name ∈ narrowed r, Narrowable (r.number name)) := by
  unfold ofArguments narrowed
  dsimp only
  split_ifs <;>
    simp_all [doubles, singles, finite.single_iff, finite.number, finite.percent]

theorem Command.finite_ofOpcode? {op : Opcode} {r : ArgumentReader} {c : Command}
    (finite : r.Finite) (h : ofOpcode? op r = some c) :
    (∀ x ∈ c.doubles, x.isFinite = true) ∧
      ((∀ s ∈ c.singles, s.isFinite = true) ↔ op.InRange r) := by
  obtain ⟨doubles_asked, singles_asked⟩ := Condition.finite_ofArguments finite
  have color (name : String) := iff_true_intro (finite.color name)
  -- One goal for each operation that has a command.
  cases op
  all_goals first
    | contradiction
    | obtain rfl := Option.some.inj h
  all_goals
    simp only [doubles, singles, Edit.singles, EffectPlan.singles, Opcode.InRange, Opcode.narrowed,
      Opcode.raised, List.forall_mem_cons, List.not_mem_nil, false_implies, implies_true, and_true,
      true_and, finite.number, finite.larger_zero, finite.single_iff, finite.atLeastZero_iff,
      finite.clamp, color, finite.point_iff, finite.radians_iff, iff_true_intro doubles_asked,
      singles_asked]

/-! ### Compiled scripts -/

/-- The instruction is what an operation of the palette makes of checked values. -/
def Instruction.Lowered (i : Instruction) : Prop :=
  ∃ e ∈ standardEntries, ∃ raw, i.opcode = e.opcode ∧ i.arguments = e.check raw ∧
    Command.ofOpcode? i.opcode ⟨i.arguments, .standard⟩ = some i.command

theorem Instruction.lowered_of_mem {blocks : List Block} {i : Instruction}
    (h : i ∈ Block.compileList standard blocks) :
    i.Lowered ∧ (∃ inside, i.children = Block.compileList standard inside) ∧
      ∃ inside, i.elseChildren = Block.compileList standard inside := by
  rw [Block.compileList_eq] at h
  obtain ⟨b, -, compiled⟩ := List.mem_filterMap.1 h
  obtain ⟨e, known, command, lowered, ⟨-, rfl⟩ | ⟨-, rfl⟩⟩ := Block.compile?_eq_some compiled
  · exact ⟨⟨e, known, b.values, rfl, rfl, lowered⟩, ⟨[], rfl⟩, [], rfl⟩
  · exact ⟨⟨e, known, b.values, rfl, rfl, lowered⟩, ⟨_, rfl⟩, _, rfl⟩

theorem Nested.lowered {blocks : List Block} {i : Instruction}
    (h : Nested (Block.compileList standard blocks) i) : i.Lowered := by
  obtain ⟨code, made⟩ : ∃ code, code = Block.compileList standard blocks := ⟨_, rfl⟩
  rw [← made] at h
  induction h generalizing blocks with
  | here h => exact (Instruction.lowered_of_mem (made ▸ h)).1
  | child h _ ih =>
    obtain ⟨-, ⟨inside, same⟩, -⟩ := Instruction.lowered_of_mem (made ▸ h)
    exact ih same
  | elseChild h _ ih =>
    obtain ⟨-, -, inside, same⟩ := Instruction.lowered_of_mem (made ▸ h)
    exact ih same

theorem Instruction.Lowered.finite {i : Instruction} (h : i.Lowered) :
    (∀ entry ∈ i.arguments, entry.2.Finite) ∧ (∀ x ∈ i.command.doubles, x.isFinite = true) ∧
      ((∀ s ∈ i.command.singles, s.isFinite = true) ↔
        i.opcode.InRange ⟨i.arguments, .standard⟩) := by
  obtain ⟨e, known, raw, -, checked, lowered⟩ := h
  have sound := Palette.sound_standard known
  refine ⟨fun entry there => Palette.Entry.finite_of_mem_check sound (checked ▸ there), ?_⟩
  exact Command.finite_ofOpcode? (checked ▸ Palette.Entry.finite_check sound raw) lowered

theorem Trigger.finite_timerPeriod (seconds : Float) : (timerPeriod seconds).isFinite = true := by
  have one : (1 : Float).isFinite = true := by decide
  have shortest : shortestPeriod.isFinite = true := by decide
  obtain same | least := Scalar.larger_eq_or
    (if seconds.isFinite && 0 < seconds then seconds else 1) shortestPeriod
  · rw [timerPeriod, same]
    split
    · rename_i sensible
      exact (Bool.and_eq_true_iff.1 sensible).1
    · exact one
  · rw [timerPeriod, least]
    exact shortest

theorem Trigger.finite_ofHat? {op : Opcode} {r : ArgumentReader} {trigger : Trigger}
    (h : ofHat? op r = some trigger) : ∀ x ∈ trigger.doubles, x.isFinite = true := by
  cases op
  all_goals first
    | contradiction
    | obtain rfl := Option.some.inj h
  all_goals simp only [doubles, List.forall_mem_cons, List.not_mem_nil, false_implies,
    implies_true, and_true, finite_timerPeriod]

/-- Whatever values are written, what a script of the standard palette keeps as doubles is finite:
its arguments, its trigger, and the numbers of its commands and conditions, however deep they are
nested. What a command holds as singles is finite exactly if the numbers that it is made of are in
the range of singles. -/
theorem Stack.finite_compileAll {canvas : List Stack} {script : Script}
    (compiled : script ∈ compileAll standard canvas) :
    (∀ entry ∈ script.arguments, entry.2.Finite) ∧
      (∀ x ∈ script.trigger.doubles, x.isFinite = true) ∧
      ∀ i, Nested script.body i →
        (∀ entry ∈ i.arguments, entry.2.Finite) ∧
        (∀ x ∈ i.command.doubles, x.isFinite = true) ∧
        ((∀ s ∈ i.command.singles, s.isFinite = true) ↔
          i.opcode.InRange ⟨i.arguments, .standard⟩) := by
  obtain ⟨s, -, compiled⟩ := List.mem_filterMap.1 compiled
  obtain ⟨id, x, y, blocks⟩ := s
  cases blocks with
  | nil => contradiction
  | cons head body =>
    simp only [compile?, Option.bind_eq_bind, Option.bind_eq_some_iff] at compiled
    obtain ⟨e, found, compiled⟩ := compiled
    split at compiled
    · simp only [Option.bind_eq_some_iff, Option.pure_def, Option.some.injEq] at compiled
      obtain ⟨trigger, lowered, rfl⟩ := compiled
      have sound := Palette.sound_standard (Palette.mem_of_find? found)
      exact ⟨fun entry there => Palette.Entry.finite_of_mem_check sound there,
        Trigger.finite_ofHat? lowered, fun i inside => inside.lowered.finite⟩
    · contradiction

def Stack.placing (x : Float) : Stack :=
  ⟨1, 0, 0, [⟨1, "onStart", [], [], []⟩, ⟨2, "setPosition", [("x", .number (.real x))], [], []⟩]⟩

theorem Stack.finite_compileAll_placing :
    ∃ script ∈ compileAll standard [placing 5], ∃ i ∈ script.body,
      i.opcode.InRange ⟨i.arguments, .standard⟩ ∧ ∀ s ∈ i.command.singles, s.isFinite = true := by
  obtain ⟨script, compiled, i, there, range⟩ : ∃ script ∈ compileAll standard [placing 5],
    ∃ i ∈ script.body, i.opcode.InRange ⟨i.arguments, .standard⟩ := by decide +kernel
  obtain ⟨-, -, instructions⟩ := finite_compileAll compiled
  exact ⟨script, compiled, i, there, range, (instructions i (.here there)).2.2.2 range⟩

/-- A finite number makes an infinite coordinate. -/
theorem Stack.infinite_compileAll :
    (1e39 : Float).isFinite = true ∧ ∃ script ∈ compileAll standard [placing 1e39],
      ∃ i ∈ script.body, ∃ s ∈ i.command.singles, s.isFinite = false := by
  decide +kernel

end BlockStage
