import BlockStage.Proofs.Block.Saving
import BlockStage.Proofs.Palette.Lowering
import BlockStage.Proofs.Palette.Rechecking
import BlockStage.Proofs.Script.Meaning

/-! A script that is written can be read as a stack again, with names of operations for names of
blocks, and the stack compiles to the same script. What is not written, triggers and commands, is
made from what is. -/

namespace BlockStage

open Json (Document Number)
open Json.Document

/-! ### Reading -/

namespace Instruction

/-- A written instruction as a block, given how its lists of children are read. -/
def blockOf? (children? : Document → Option (List Block)) (depth : Nat) (d : Document) :
    Option Block := do
  match ← d.fields? ["code", "values", "children", "elseChildren"] with
  | [code, values, children, elseChildren] =>
    return {
      instanceId := 0
      blockId := ← code.bind text?
      values := ← orElse [] (Block.values? depth) values
      children := ← orElse [] children? children
      elseChildren := ← orElse [] children? elseChildren }
  | _ => none

/-- Written instructions as blocks. The array and each of its items take one level of depth each. -/
def blocksOf? : Nat → Document → Option (List Block)
  | 0, _ => none
  | 1, array [] => some []
  | depth + 2, array items => items.mapM (blockOf? (blocksOf? depth) depth)
  | _, _ => none

mutual

def asBlock : Instruction → Block
  | ⟨opcode, arguments, _, _, children, elseChildren⟩ =>
    ⟨0, opcode.name, arguments.toValues, asBlocks children, asBlocks elseChildren⟩

def asBlocks : List Instruction → List Block
  | [] => []
  | i :: rest => asBlock i :: asBlocks rest

end

theorem asBlocks_eq (body : List Instruction) : asBlocks body = body.map asBlock := by
  induction body with
  | nil => rfl
  | cons i rest ih => rw [asBlocks, ih, List.map_cons]

theorem listToDocuments_eq (body : List Instruction) :
    listToDocuments body = body.map toDocument := by
  induction body with
  | nil => rfl
  | cons i rest ih => rw [listToDocuments, ih, List.map_cons]

end Instruction

namespace Script

/-- A written script as a stack: its trigger is the head. -/
def stackOf? : Nat → Document → Option Stack
  | 0, _ => none
  | depth + 1, d => do
    match ← d.fields? ["trigger", "triggerValues", "commands"] with
    | [trigger, values, commands] =>
      let head : Block := ⟨0, ← trigger.bind text?, ← orElse [] (Block.values? depth) values, [], []⟩
      return ⟨0, 0, 0, head :: (← orElse [] (Instruction.blocksOf? depth) commands)⟩
    | _ => none

/-- The stack that the text of a script stands for, if containers are read to a given depth. -/
def reread? (depth : Nat) (text : String) : Option Stack :=
  (Document.parse? text).bind (stackOf? depth)

def asStack (s : Script) : Stack :=
  ⟨0, 0, 0, ⟨0, s.trigger.opcode.name, s.arguments.toValues, [], []⟩ ::
    Instruction.asBlocks s.body⟩

end Script

/-! ### What is written is read -/

namespace Instruction

variable {i : Instruction}

theorem depth_pos (i : Instruction) : ¬ i.toDocument.depth ≤ 0 := by
  obtain ⟨opcode, arguments, kind, command, first, second⟩ := i
  rw [toDocument]
  exact depth_record_pos _

theorem fields?_toDocument (opcode : Opcode) (arguments : Arguments) (kind : BlockKind)
    (command : Command) (first second : List Instruction) :
    (toDocument ⟨opcode, arguments, kind, command, first, second⟩).fields?
        ["code", "values", "children", "elseChildren"] =
      some [some (.string opcode.name), some arguments.toDocument,
        if first.isEmpty then none else some (.array (listToDocuments first)),
        if second.isEmpty then none else some (.array (listToDocuments second))] := by
  rw [toDocument, fields?_record]
  cases first <;> cases second <;> rfl

theorem mapM_map {α β γ : Type} {read : β → Option γ} {write : α → β} {f : α → γ} {xs : List α}
    (h : ∀ x ∈ xs, read (write x) = some (f x)) : (xs.map write).mapM read = some (xs.map f) := by
  induction xs with
  | nil => rfl
  | cons x xs ih =>
    obtain ⟨first, later⟩ := List.forall_mem_cons.1 h
    rw [List.map_cons, List.mapM_cons, first, ih later]
    rfl

theorem depth_parts_le {opcode : Opcode} {arguments : Arguments} {kind : BlockKind}
    {command : Command} {first second : List Instruction} {n : Nat}
    (h : (toDocument ⟨opcode, arguments, kind, command, first, second⟩).depth ≤ n + 1) :
    arguments.toDocument.depth ≤ n ∧
      (first ≠ [] → (array (listToDocuments first)).depth ≤ n) ∧
      (second ≠ [] → (array (listToDocuments second)).depth ≤ n) := by
  rw [toDocument, depth_record_le] at h
  cases first <;> cases second <;> simp_all

theorem values?_toDocument {arguments : Arguments}
    (h : (Json.Value.object arguments.toValues).Canonical)
    (legible : ∀ n ∈ Json.Value.numbersOfMembers arguments.toValues, n.Legible) {depth : Nat}
    (shallow : arguments.toDocument.depth ≤ depth) :
    Block.values? depth arguments.toDocument = some arguments.toValues := by
  rw [Arguments.toDocument_eq] at shallow ⊢
  rw [Block.values?_toDocument h legible, if_pos shallow]

theorem blockOf?_toDocument {i : Instruction}
    (h : (Json.Value.object i.arguments.toValues).Canonical)
    (legible : ∀ n ∈ Json.Value.numbersOfMembers i.arguments.toValues, n.Legible)
    {read : Document → Option (List Block)} {depth : Nat}
    (shallow : i.toDocument.depth ≤ depth + 1)
    (inner : ∀ body, body = i.children ∨ body = i.elseChildren →
      (array (listToDocuments body)).depth ≤ depth →
      read (.array (listToDocuments body)) = some (asBlocks body)) :
    blockOf? read depth i.toDocument = some i.asBlock := by
  obtain ⟨opcode, arguments, kind, command, first, second⟩ := i
  obtain ⟨valued, firsts, seconds⟩ := depth_parts_le shallow
  have values : orElse [] (Block.values? depth) (some arguments.toDocument) =
      some arguments.toValues := values?_toDocument h legible valued
  have children (body : List Instruction) (part : body = first ∨ body = second)
      (within : body ≠ [] → (array (listToDocuments body)).depth ≤ depth) :
      orElse [] read (if body.isEmpty then none else some (.array (listToDocuments body))) =
        some (asBlocks body) := by
    cases body with
    | nil => rfl
    | cons i rest => exact inner _ part (within (List.cons_ne_nil _ _))
  have code : (some (Document.string opcode.name)).bind text? = some opcode.name := rfl
  rw [blockOf?, fields?_toDocument, asBlock]
  simp only [Option.bind_eq_bind, Option.bind_some, code, values,
    children first (.inl rfl) firsts, children second (.inr rfl) seconds]
  rfl

theorem blocksOf?_listToDocuments (depth : Nat) {body : List Instruction}
    (h : ∀ i ∈ body, i.asBlock.Canonical)
    (legible : ∀ n ∈ Block.numbersIn (asBlocks body), n.Legible)
    (shallow : (array (listToDocuments body)).depth ≤ depth) :
    blocksOf? depth (.array (listToDocuments body)) = some (asBlocks body) := by
  match depth with
  | 0 => exact absurd shallow (by simp [Document.depth])
  | 1 =>
    cases body with
    | nil => rfl
    | cons i rest =>
      rw [depth_array_le] at shallow
      exact absurd (shallow _ List.mem_cons_self) (depth_pos i)
  | depth + 2 =>
    rw [asBlocks_eq, Block.numbersIn_eq] at legible
    rw [listToDocuments_eq, depth_array_le, List.forall_mem_map] at shallow
    rw [listToDocuments_eq, asBlocks_eq, blocksOf?]
    refine mapM_map fun i hi => ?_
    have within : ∀ n ∈ i.asBlock.numbers, n.Legible := fun n hn =>
      legible n (List.mem_flatMap.2 ⟨_, List.mem_map_of_mem hi, hn⟩)
    have canonical := h i hi
    have shallow := shallow i hi
    obtain ⟨opcode, arguments, kind, command, first, second⟩ := i
    simp only [asBlock, Block.numbers, List.forall_mem_append] at canonical within
    cases canonical with
    | intro values children elseChildren =>
      refine blockOf?_toDocument values within.1.1 shallow ?_
      rintro body (rfl | rfl) deep
      · simp only [asBlocks_eq, List.forall_mem_map] at children
        exact blocksOf?_listToDocuments depth children within.1.2 deep
      · simp only [asBlocks_eq, List.forall_mem_map] at elseChildren
        exact blocksOf?_listToDocuments depth elseChildren within.2 deep

theorem proper_arguments {arguments : Arguments}
    (h : (Json.Value.object arguments.toValues).Canonical)
    (legible : ∀ n ∈ Json.Value.numbersOfMembers arguments.toValues, n.Legible) :
    arguments.toDocument.Proper := by
  rw [Arguments.toDocument_eq]
  exact Json.Value.proper_toDocument h legible

mutual

theorem proper_toDocument : (i : Instruction) → i.asBlock.Canonical →
    (∀ n ∈ i.asBlock.numbers, n.Legible) → i.toDocument.Proper
  | ⟨opcode, arguments, kind, command, first, second⟩, h, legible => by
    simp only [asBlock, Block.numbers, List.forall_mem_append] at h legible
    cases h with
    | intro values children elseChildren =>
      have valued := proper_arguments values legible.1.1
      have firsts := Document.Proper.array (proper_listToDocuments first children legible.1.2)
      have seconds := Document.Proper.array (proper_listToDocuments second elseChildren legible.2)
      rw [toDocument]
      refine proper_record ?_
      cases first <;> cases second <;> simp_all [Document.Proper.text, Document.string]

theorem proper_listToDocuments : (body : List Instruction) →
    (∀ b ∈ asBlocks body, b.Canonical) →
    (∀ n ∈ Block.numbersIn (asBlocks body), n.Legible) → ∀ d ∈ listToDocuments body, d.Proper
  | [], _, _ => nofun
  | i :: rest, h, legible => by
    rw [asBlocks, List.forall_mem_cons] at h
    rw [asBlocks, Block.numbersIn, List.forall_mem_append] at legible
    exact List.forall_mem_cons.2 ⟨proper_toDocument i h.1 legible.1,
      proper_listToDocuments rest h.2 legible.2⟩

end

end Instruction

namespace Script

theorem reread?_render {s : Script} (h : s.asStack.Canonical)
    (legible : ∀ n ∈ Block.numbersIn s.asStack.blocks, n.Legible) {depth : Nat}
    (shallow : s.toDocument.depth ≤ depth) : reread? depth s.toDocument.render = some s.asStack := by
  obtain ⟨trigger, arguments, body⟩ := s
  simp only [asStack, Stack.Canonical, List.forall_mem_cons, Block.numbersIn, Block.numbers,
    List.forall_mem_append] at h legible
  obtain ⟨head, inside⟩ := h
  obtain ⟨⟨⟨valued, -⟩, -⟩, numbers⟩ := legible
  cases head with
  | intro values _ _ =>
    have proper : (toDocument ⟨trigger, arguments, body⟩).Proper := by
      refine proper_record ?_
      simpa using ⟨.text _, Instruction.proper_arguments values valued,
        .array (Instruction.proper_listToDocuments body inside numbers)⟩
    rw [reread?, parse?_render proper, Option.bind_some]
    cases depth with
    | zero => exact absurd shallow (depth_record_pos _)
    | succ depth =>
      rw [toDocument, depth_record_le] at shallow
      simp only [List.forall_mem_cons] at shallow
      rw [Instruction.asBlocks_eq, List.forall_mem_map] at inside
      have read := Instruction.values?_toDocument values valued shallow.2.1
      have commands := Instruction.blocksOf?_listToDocuments depth inside numbers shallow.2.2.1
      have fields : stackOf? (depth + 1) (toDocument ⟨trigger, arguments, body⟩) =
          (Block.values? depth arguments.toDocument).bind fun values =>
          (Instruction.blocksOf? depth (.array (Instruction.listToDocuments body))).bind fun blocks =>
          some ⟨0, 0, 0, ⟨0, trigger.opcode.name, values, [], []⟩ :: blocks⟩ := by
        rw [stackOf?, toDocument, fields?_record]
        rfl
      rw [fields, read, Option.bind_some, commands, Option.bind_some, asStack]

end Script

/-! ### What is read compiles as before -/

namespace Palette

theorem find?_standard {e : Entry} (he : e ∈ standardEntries) :
    standard.find? e.opcode.name = some e := by
  have named : ∀ e ∈ standardEntries, e.id = e.opcode.name := by decide +kernel
  have distinct : (standardEntries.map (·.id)).Nodup := by decide +kernel
  have found : (standard.find? e.opcode.name).isSome := by
    rw [find?, List.find?_isSome]
    exact ⟨e, List.mem_reverse.2 he, by simpa using named e he⟩
  obtain ⟨e', found⟩ := Option.isSome_iff_exists.1 found
  have listed : e' ∈ standardEntries := List.mem_reverse.1 (List.mem_of_find?_eq_some found)
  have same : e'.id = e.id := (by simpa using List.find?_some found : e'.id = _).trans (named e he).symm
  rw [found, List.inj_on_of_nodup_map distinct listed he same]

theorem mem_of_find? {id : String} {e : Entry} (h : standard.find? id = some e) :
    e ∈ standardEntries :=
  List.mem_reverse.1 (List.mem_of_find?_eq_some h)

theorem Entry.canonical_check {e : Entry} (sound : e.Sound) (raw : Named Json.Value) :
    (Json.Value.object (e.check raw).toValues).Canonical := by
  refine .object (List.pairwise_map.2 (Named.sorted_ofList _)) (List.forall_mem_map.2 fun p hp => ?_)
  obtain ⟨parameter, listed, rfl⟩ := List.mem_map.1 (Named.mem_ofList hp)
  exact (admits_checked sound listed _).canonical

end Palette

theorem Trigger.opcode_of_ofHat? {op : Opcode} {r : ArgumentReader} {t : Trigger}
    (h : ofHat? op r = some t) : t.opcode = op := by
  cases op <;> simp only [ofHat?, reduceCtorEq, Option.some.injEq] at h <;> rw [← h] <;> rfl

open Palette (standard standardEntries)

theorem Block.compile?_eq_some {b : Block} {i : Instruction}
    (h : b.compile? standard = some i) :
    ∃ e ∈ standardEntries, ∃ command,
      Command.ofOpcode? e.opcode ⟨e.check b.values, .standard⟩ = some command ∧
      (e.kind = .command ∧ i = ⟨e.opcode, e.check b.values, .command, command, [], []⟩ ∨
        e.kind = .container ∧ i = ⟨e.opcode, e.check b.values, .container, command,
          compileList standard b.children, compileList standard b.elseChildren⟩) := by
  obtain ⟨n, id, values, children, others⟩ := b
  simp only [compile?, Option.bind_eq_bind, Option.bind_eq_some_iff] at h
  obtain ⟨e, found, command, lowered, h⟩ := h
  refine ⟨e, Palette.mem_of_find? found, command, lowered, ?_⟩
  cases kind : e.kind with
  | hat | reporter => simp [kind] at h
  | command =>
    simp only [kind, Option.pure_def, Option.some.injEq] at h
    exact .inl ⟨rfl, h.symm⟩
  | container =>
    simp only [kind, Option.pure_def, Option.some.injEq] at h
    exact .inr ⟨rfl, h.symm⟩

namespace Instruction

mutual

theorem compile?_asBlock : (b : Block) → (i : Instruction) → b.compile? standard = some i →
    i.asBlock.Canonical ∧ i.asBlock.compile? standard = some i
  | ⟨n, id, values, children, others⟩, i, h => by
    obtain ⟨e, known, command, lowered, shape⟩ := Block.compile?_eq_some h
    have sound := Palette.sound_standard known
    have found := Palette.find?_standard known
    have same := Palette.Entry.check_toValues sound values
    have valued := Palette.Entry.canonical_check sound values
    obtain ⟨kind, rfl⟩ | ⟨kind, rfl⟩ := shape
    · refine ⟨.intro valued nofun nofun, ?_⟩
      simp only [asBlock, Block.compile?, found, Option.bind_eq_bind, Option.bind_some, same,
        lowered, kind]
      rfl
    · obtain ⟨first, again⟩ := compileList_asBlocks children
      obtain ⟨second, again'⟩ := compileList_asBlocks others
      refine ⟨.intro valued first second, ?_⟩
      simp only [asBlock, Block.compile?, found, Option.bind_eq_bind, Option.bind_some, same,
        lowered, kind, again, again']
      rfl

theorem compileList_asBlocks : (blocks : List Block) →
    (∀ b ∈ asBlocks (Block.compileList standard blocks), b.Canonical) ∧
      Block.compileList standard (asBlocks (Block.compileList standard blocks)) =
        Block.compileList standard blocks
  | [] => ⟨nofun, rfl⟩
  | b :: rest => by
    obtain ⟨later, again⟩ := compileList_asBlocks rest
    rw [Block.compileList]
    cases h : b.compile? standard with
    | none => exact ⟨later, again⟩
    | some i =>
      obtain ⟨canonical, same⟩ := compile?_asBlock b i h
      refine ⟨List.forall_mem_cons.2 ⟨canonical, later⟩, ?_⟩
      rw [asBlocks, Block.compileList, same, again]

end

end Instruction

namespace Stack

theorem compile?_asStack {s : Stack} {script : Script} (h : s.compile? standard = some script) :
    script.asStack.Canonical ∧ script.asStack.compile? standard = some script := by
  obtain ⟨id, x, y, blocks⟩ := s
  cases blocks with
  | nil => contradiction
  | cons head body =>
    simp only [compile?, Option.bind_eq_bind, Option.bind_eq_some_iff] at h
    obtain ⟨e, found, h⟩ := h
    split at h
    · rename_i hat
      simp only [Option.bind_eq_some_iff, Option.pure_def, Option.some.injEq] at h
      obtain ⟨trigger, lowered, rfl⟩ := h
      have known := Palette.mem_of_find? found
      have sound := Palette.sound_standard known
      have found := Palette.find?_standard known
      have same := Palette.Entry.check_toValues sound head.values
      have valued := Palette.Entry.canonical_check sound head.values
      obtain ⟨inside, again⟩ := Instruction.compileList_asBlocks body
      have name := Trigger.opcode_of_ofHat? lowered
      have childless : ∀ b ∈ ([] : List Block), b.Canonical :=
        fun _ hb => absurd hb List.not_mem_nil
      refine ⟨List.forall_mem_cons.2 ⟨.intro valued childless childless, inside⟩, ?_⟩
      simp only [compile?, Script.asStack, name, found, Option.bind_eq_bind, Option.bind_some, hat,
        same, lowered, again]
      rfl
    · contradiction

/-- The written form of a compiled script loses nothing. Whatever stack it was compiled from, the
stack that is made of the names and arguments alone compiles to the very same script, with its
trigger and all its commands; and this is the stack that the text is read as, if its numbers are
read as they were written and containers as deep as they nest. -/
theorem compile?_reread {s : Stack} {script : Script}
    (compiled : s.compile? standard = some script) :
    script.asStack.compile? standard = some script ∧
      ∀ depth, script.toDocument.depth ≤ depth →
        (∀ n ∈ Block.numbersIn script.asStack.blocks, n.Legible) →
        Script.reread? depth script.toDocument.render = some script.asStack := by
  obtain ⟨canonical, same⟩ := compile?_asStack compiled
  exact ⟨same, fun depth shallow legible => Script.reread?_render canonical legible shallow⟩

section Example

/-- On a key, again and again: a value of each kind, given in another way than it is written in. -/
def tune : Stack :=
  ⟨1, 0, 0, [⟨1, "onKey", [("key", .text " W ")], [], []⟩,
    ⟨2, "forever", [], [⟨3, "wait", [("seconds", .number (.real 2.5))], [], []⟩,
      ⟨4, "setColor", [("color", .text "0f0")], [], []⟩], []⟩]⟩

def green : Vec3 := Color.ofPacked 0x00ff00

def tuned : Script :=
  ⟨.key "w", [("key", .text "w")], [⟨.forever, [], .container, .forever,
    [⟨.wait, [("seconds", .number 2.5)], .command, .wait (Scalar.larger 2.5 0), [], []⟩,
      ⟨.setColor, [("color", .color green)], .command, .edit (.setColor green), [], []⟩], []⟩]⟩

theorem compile?_tune : tune.compile? standard = some tuned := rfl

theorem legible_tuned : ∀ n ∈ Block.numbersIn tuned.asStack.blocks, n.Legible := by
  have seconds : (Number.real 2.5).Legible := rfl
  simp [tuned, Script.asStack, Instruction.asBlocks, Instruction.asBlock, Arguments.toValues,
    Argument.toValue, Block.numbersIn, Block.numbers, Json.Value.numbersOfMembers,
    Json.Value.numbers, seconds]

theorem tuned_reread :
    tune.compile? standard = some tuned ∧
    tuned.asStack.compile? standard = some tuned ∧
    Script.reread? Json.maxDepth tuned.toDocument.render = some tuned.asStack := by
  have shallow : tuned.toDocument.depth ≤ Json.maxDepth := by decide +kernel
  obtain ⟨again, read⟩ := compile?_reread compile?_tune
  exact ⟨compile?_tune, again, read Json.maxDepth shallow legible_tuned⟩

end Example

end Stack
end BlockStage
