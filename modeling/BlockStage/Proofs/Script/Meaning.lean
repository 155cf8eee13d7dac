import BlockStage.Palette.Standard
import BlockStage.Script.Compiled
import Mathlib.Data.List.Forall2
import Mathlib.Logic.Relation

/-!
Compiling reads the meaningful part of a canvas and nothing else. Edits of the rest, at any depth
and in any number, leave every script as it was, and what is left out does not disturb the order.
-/

namespace BlockStage

open Relation (ReflTransGen)

namespace Palette.Entry

/-- To every parameter the same value is given, or before and after none that it accepts. -/
def Indifferent (e : Entry) (raw raw' : Named Json.Value) : Prop :=
  ∀ p ∈ e.parameters, raw.get? p.name = raw'.get? p.name ∨
    (raw.get? p.name).bind p.kind.accept? = none ∧ (raw'.get? p.name).bind p.kind.accept? = none

theorem Indifferent.coerce_eq {e : Entry} {raw raw' : Named Json.Value}
    (h : e.Indifferent raw raw') {p : Parameter} (hp : p ∈ e.parameters) :
    p.kind.coerce (raw'.get? p.name) = p.kind.coerce (raw.get? p.name) := by
  obtain same | ⟨rejected, rejected'⟩ := h p hp
  · rw [same]
  · rw [ParameterKind.coerce, ParameterKind.coerce, rejected, rejected']

theorem Indifferent.check_eq {e : Entry} {raw raw' : Named Json.Value}
    (h : e.Indifferent raw raw') : e.check raw' = e.check raw := by
  rw [check, check]
  congr 1
  refine List.map_congr_left fun p hp => ?_
  rw [h.coerce_eq hp]

end Palette.Entry

section Edits

variable (palette : Palette)

/-- A block that is no command wherever it stands below the head of a stack. -/
inductive Block.Idle (b : Block) : Prop
  | unknown (h : palette.find? b.blockId = none)
  | hat {e : Palette.Entry} (h : palette.find? b.blockId = some e) (kind : e.kind = .hat)
  | reporter {e : Palette.Entry} (h : palette.find? b.blockId = some e) (kind : e.kind = .reporter)
  | commandless {e : Palette.Entry} (h : palette.find? b.blockId = some e)
      (none : ∀ r, Command.ofOpcode? e.opcode r = none)

mutual

/-- One edit of a block, or of a list inside it, that means nothing. -/
inductive Block.Edit : Block → Block → Prop
  | instanceId (i j : UInt64) (id : String) (values : Named Json.Value)
      (children others : List Block) :
      Block.Edit ⟨i, id, values, children, others⟩ ⟨j, id, values, children, others⟩
  | values {e : Palette.Entry} {id : String} (known : palette.find? id = some e)
      {raw raw' : Named Json.Value} (h : e.Indifferent raw raw') (i : UInt64)
      (children others : List Block) :
      Block.Edit ⟨i, id, raw, children, others⟩ ⟨i, id, raw', children, others⟩
  | leaf {e : Palette.Entry} {id : String} (known : palette.find? id = some e)
      (kind : e.kind ≠ .container) (i : UInt64) (values : Named Json.Value)
      (children others children' others' : List Block) :
      Block.Edit ⟨i, id, values, children, others⟩ ⟨i, id, values, children', others'⟩
  | children {children children' : List Block} (h : Block.ListEdit children children') (i : UInt64)
      (id : String) (values : Named Json.Value) (others : List Block) :
      Block.Edit ⟨i, id, values, children, others⟩ ⟨i, id, values, children', others⟩
  | elseChildren {others others' : List Block} (h : Block.ListEdit others others') (i : UInt64)
      (id : String) (values : Named Json.Value) (children : List Block) :
      Block.Edit ⟨i, id, values, children, others⟩ ⟨i, id, values, children, others'⟩

inductive Block.ListEdit : List Block → List Block → Prop
  | insert {b : Block} (h : b.Idle palette) (before after : List Block) :
      Block.ListEdit (before ++ after) (before ++ b :: after)
  | delete {b : Block} (h : b.Idle palette) (before after : List Block) :
      Block.ListEdit (before ++ b :: after) (before ++ after)
  | inside {b b' : Block} (h : Block.Edit b b') (before after : List Block) :
      Block.ListEdit (before ++ b :: after) (before ++ b' :: after)

end

/-- A stack without a head, or with one that does not start scripts. -/
inductive Stack.Idle (s : Stack) : Prop
  | empty (h : s.blocks = [])
  | unknown {head : Block} {body : List Block} (h : s.blocks = head :: body)
      (unknown : palette.find? head.blockId = none)
  | headless {head : Block} {body : List Block} (h : s.blocks = head :: body) {e : Palette.Entry}
      (known : palette.find? head.blockId = some e) (kind : e.kind ≠ .hat)

/-- One edit of a stack; no block is inserted before its head and the head is not deleted. -/
inductive Stack.Edit : Stack → Stack → Prop
  | place (id id' : UInt64) (x y x' y' : Float32) (blocks : List Block) :
      Stack.Edit ⟨id, x, y, blocks⟩ ⟨id', x', y', blocks⟩
  | head {head head' : Block} (h : head.Edit palette head') (id : UInt64) (x y : Float32)
      (body : List Block) :
      Stack.Edit ⟨id, x, y, head :: body⟩ ⟨id, x, y, head' :: body⟩
  | body {body body' : List Block} (h : Block.ListEdit palette body body') (id : UInt64)
      (x y : Float32) (head : Block) :
      Stack.Edit ⟨id, x, y, head :: body⟩ ⟨id, x, y, head :: body'⟩

inductive Stack.CanvasEdit : List Stack → List Stack → Prop
  | insert {s : Stack} (h : s.Idle palette) (before after : List Stack) :
      Stack.CanvasEdit (before ++ after) (before ++ s :: after)
  | delete {s : Stack} (h : s.Idle palette) (before after : List Stack) :
      Stack.CanvasEdit (before ++ s :: after) (before ++ after)
  | inside {s s' : Stack} (h : s.Edit palette s') (before after : List Stack) :
      Stack.CanvasEdit (before ++ s :: after) (before ++ s' :: after)

end Edits

namespace Block

variable {palette : Palette}

theorem compileList_eq (blocks : List Block) :
    compileList palette blocks = blocks.filterMap (compile? palette) := by
  induction blocks with
  | nil => rfl
  | cons b rest ih =>
    rw [compileList, ih]
    cases h : compile? palette b with
    | none => rw [List.filterMap_cons_none h]
    | some i => rw [List.filterMap_cons_some h]

theorem Idle.compile?_eq {b : Block} (h : b.Idle palette) : b.compile? palette = none := by
  obtain ⟨i, id, values, children, others⟩ := b
  rw [compile?]
  cases h with
  | unknown h => rw [h]; rfl
  | hat h kind =>
    rw [h, Option.bind_eq_bind, Option.bind_some, kind]
    exact Option.bind_eq_none_iff.mpr fun _ _ => rfl
  | reporter h kind =>
    rw [h, Option.bind_eq_bind, Option.bind_some, kind]
    exact Option.bind_eq_none_iff.mpr fun _ _ => rfl
  | commandless h none =>
    rw [h, Option.bind_eq_bind, Option.bind_some]
    exact Option.bind_eq_none_iff.mpr fun _ found => by simp [none] at found

theorem compile?_congr {b b' : Block} (id : b'.blockId = b.blockId)
    (arguments : ∀ e, palette.find? b.blockId = some e → e.check b'.values = e.check b.values)
    (inside : ∀ e, palette.find? b.blockId = some e → e.kind = .container →
      compileList palette b'.children = compileList palette b.children ∧
        compileList palette b'.elseChildren = compileList palette b.elseChildren) :
    b'.compile? palette = b.compile? palette := by
  obtain ⟨i, name, values, children, others⟩ := b
  obtain ⟨i', name', values', children', others'⟩ := b'
  dsimp only at id arguments inside
  rw [compile?, compile?, id]
  cases found : palette.find? name with
  | none => rfl
  | some e =>
    simp only [Option.bind_eq_bind, Option.bind_some, arguments e found]
    cases kind : e.kind with
    | hat | reporter | command => rfl
    | container =>
      obtain ⟨same, same'⟩ := inside e found kind
      rw [same, same']

/-- An edit changes neither the entry a block is of nor the arguments it has there. -/
theorem Edit.check_eq {b b' : Block} (h : b.Edit palette b') :
    b'.blockId = b.blockId ∧
      ∀ e, palette.find? b.blockId = some e → e.check b'.values = e.check b.values := by
  cases h with
  | values known h =>
    refine ⟨rfl, fun e found => ?_⟩
    obtain rfl := Option.some.inj (known.symm.trans found)
    exact h.check_eq
  | instanceId | leaf | children | elseChildren => exact ⟨rfl, fun _ _ => rfl⟩

theorem compileList_insert {b : Block} (h : b.Idle palette) (before after : List Block) :
    compileList palette (before ++ b :: after) = compileList palette (before ++ after) := by
  rw [compileList_eq, compileList_eq, List.filterMap_append, List.filterMap_append,
    List.filterMap_cons_none h.compile?_eq]

mutual

theorem Edit.inside_eq : {b b' : Block} → b.Edit palette b' → ∀ e,
    palette.find? b.blockId = some e → e.kind = .container →
      compileList palette b'.children = compileList palette b.children ∧
        compileList palette b'.elseChildren = compileList palette b.elseChildren
  | _, _, .instanceId .. => fun _ _ _ => ⟨rfl, rfl⟩
  | _, _, .values .. => fun _ _ _ => ⟨rfl, rfl⟩
  | _, _, .leaf known kind .. => fun e found container => by
    obtain rfl := Option.some.inj (known.symm.trans found)
    exact absurd container kind
  | _, _, .children h .. => fun _ _ _ => ⟨h.compileList_eq, rfl⟩
  | _, _, .elseChildren h .. => fun _ _ _ => ⟨rfl, h.compileList_eq⟩

theorem ListEdit.compileList_eq : {blocks blocks' : List Block} →
    ListEdit palette blocks blocks' → compileList palette blocks' = compileList palette blocks
  | _, _, .insert h before after => compileList_insert h before after
  | _, _, .delete h before after => (compileList_insert h before after).symm
  | _, _, .inside h before after => by
    have same := compile?_congr h.check_eq.1 h.check_eq.2 h.inside_eq
    rw [Block.compileList_eq, Block.compileList_eq, List.filterMap_append, List.filterMap_append,
      List.filterMap_cons, List.filterMap_cons, same]

end

end Block

/-- What the items have, one each and in their order; some may have nothing. -/
def InOrder {α β : Type} (f : α → Option β) (items : List α) (results : List β) : Prop :=
  List.Forall₂ (fun item result => f item = some result) (items.filter fun item => (f item).isSome)
    results

theorem inOrder_filterMap {α β : Type} (f : α → Option β) (items : List α) :
    InOrder f items (items.filterMap f) := by
  induction items with
  | nil => exact .nil
  | cons item rest ih =>
    rw [InOrder]
    cases h : f item with
    | none => rwa [List.filterMap_cons_none h, List.filter_cons_of_neg (by simp [h])]
    | some result =>
      rw [List.filterMap_cons_some h, List.filter_cons_of_pos (by simp [h])]
      exact .cons h ih

namespace Block

variable {palette : Palette}

theorem inOrder_compileList (blocks : List Block) :
    InOrder (compile? palette) blocks (compileList palette blocks) :=
  compileList_eq blocks ▸ inOrder_filterMap _ blocks

theorem inOrder_compile? {b : Block} {i : Instruction} (h : b.compile? palette = some i) :
    i.kind = .container ∧ InOrder (compile? palette) b.children i.children ∧
        InOrder (compile? palette) b.elseChildren i.elseChildren ∨
      i.kind = .command ∧ i.children = [] ∧ i.elseChildren = [] := by
  obtain ⟨n, id, values, children, others⟩ := b
  simp only [compile?, Option.bind_eq_bind, Option.bind_eq_some_iff] at h
  obtain ⟨e, -, command, -, h⟩ := h
  cases kind : e.kind with
  | hat | reporter => simp [kind] at h
  | command =>
    simp only [kind, Option.pure_def, Option.some.injEq] at h
    exact .inr (h ▸ ⟨rfl, rfl, rfl⟩)
  | container =>
    simp only [kind, Option.pure_def, Option.some.injEq] at h
    exact .inl (h ▸ ⟨rfl, inOrder_compileList children, inOrder_compileList others⟩)

end Block

namespace Stack

variable {palette : Palette}

theorem Idle.compile?_eq {s : Stack} (h : s.Idle palette) : s.compile? palette = none := by
  rw [compile?]
  cases h with
  | empty h => rw [h]
  | unknown h unknown => simp [h, unknown]
  | headless h known kind => simp [h, known, kind]

theorem compile?_congr {head head' : Block} {body body' : List Block} (id id' : UInt64)
    (x y x' y' : Float32) (name : head'.blockId = head.blockId)
    (arguments : ∀ e, palette.find? head.blockId = some e →
      e.check head'.values = e.check head.values)
    (same : Block.compileList palette body' = Block.compileList palette body) :
    compile? palette ⟨id', x', y', head' :: body'⟩ = compile? palette ⟨id, x, y, head :: body⟩ := by
  simp only [compile?, name, same]
  cases found : palette.find? head.blockId with
  | none => rfl
  | some e => simp only [Option.bind_eq_bind, Option.bind_some, arguments e found]

theorem Edit.compile?_eq {s s' : Stack} (h : s.Edit palette s') :
    s'.compile? palette = s.compile? palette := by
  cases h with
  | place => rfl
  | head h => exact compile?_congr _ _ _ _ _ _ h.check_eq.1 h.check_eq.2 rfl
  | body h => exact compile?_congr _ _ _ _ _ _ rfl (fun _ _ => rfl) h.compileList_eq

theorem compileAll_insert {s : Stack} (h : s.Idle palette) (before after : List Stack) :
    compileAll palette (before ++ s :: after) = compileAll palette (before ++ after) := by
  rw [compileAll, compileAll, List.filterMap_append, List.filterMap_append,
    List.filterMap_cons_none h.compile?_eq]

theorem CanvasEdit.compileAll_eq {canvas canvas' : List Stack}
    (h : CanvasEdit palette canvas canvas') :
    compileAll palette canvas' = compileAll palette canvas := by
  cases h with
  | insert h before after => exact compileAll_insert h before after
  | delete h before after => exact (compileAll_insert h before after).symm
  | inside h before after =>
    rw [compileAll, compileAll, List.filterMap_append, List.filterMap_append, List.filterMap_cons,
      List.filterMap_cons, h.compile?_eq]

theorem inOrder_body {s : Stack} {script : Script} (h : s.compile? palette = some script) :
    InOrder (Block.compile? palette) s.blocks.tail script.body := by
  obtain ⟨id, x, y, blocks⟩ := s
  cases blocks with
  | nil => simp [compile?] at h
  | cons head body =>
    simp only [compile?, Option.bind_eq_bind, Option.bind_eq_some_iff] at h
    obtain ⟨e, -, h⟩ := h
    split at h
    · simp only [Option.bind_eq_some_iff, Option.pure_def, Option.some.injEq] at h
      obtain ⟨trigger, -, rfl⟩ := h
      exact Block.inOrder_compileList body
    · cases h

/-- Any number of edits that mean nothing leave what a canvas compiles to. Its scripts stand in the
order of the stacks, and at every depth the instructions in the order of the blocks. -/
theorem compileAll_edited (palette : Palette) {canvas canvas' : List Stack}
    (edits : ReflTransGen (CanvasEdit palette) canvas canvas') :
    compileAll palette canvas' = compileAll palette canvas ∧
    InOrder (compile? palette) canvas' (compileAll palette canvas') ∧
    (∀ s script, compile? palette s = some script →
      InOrder (Block.compile? palette) s.blocks.tail script.body) ∧
    ∀ b i, Block.compile? palette b = some i →
      i.kind = .container ∧ InOrder (Block.compile? palette) b.children i.children ∧
          InOrder (Block.compile? palette) b.elseChildren i.elseChildren ∨
        i.kind = .command ∧ i.children = [] ∧ i.elseChildren = [] := by
  refine ⟨?_, inOrder_filterMap _ _, fun _ _ => inOrder_body, fun _ _ => Block.inOrder_compile?⟩
  induction edits with
  | refl => rfl
  | tail _ edit ih => exact edit.compileAll_eq.trans ih

section Example

def looping (inside : List Block) : Stack :=
  ⟨1, 0, 0, [⟨1, "onStart", [], [], []⟩, ⟨2, "forever", [], inside, []⟩]⟩

def hide : Block := ⟨3, "hide", [], [], []⟩

def stray : Block := ⟨4, "teleport", [("x", .bool true)], [hide], []⟩

/-- An unknown block goes in front of the command inside the loop, and an empty stack is added. -/
theorem compileAll_looping :
    ReflTransGen (CanvasEdit .standard) [looping [hide]] [looping [stray, hide], ⟨2, 5, 5, []⟩] ∧
    compileAll .standard [looping [stray, hide], ⟨2, 5, 5, []⟩] =
      compileAll .standard [looping [hide]] :=
  have unknown : stray.Idle .standard := .unknown (by decide)
  have inLoop : Edit .standard (looping [hide]) (looping [stray, hide]) :=
    .body (.inside (.children (.insert unknown [] [hide]) 2 "forever" [] []) [] []) 1 0 0 _
  have edits := ReflTransGen.tail (.single (.inside inLoop [] []))
    (.insert (s := ⟨2, 5, 5, []⟩) (.empty rfl) [looping [stray, hide]] [])
  ⟨edits, (compileAll_edited .standard edits).1⟩

/-- The loop is a script of its own, with one command inside it. -/
example : (compileAll .standard [looping [hide]]).map
    (·.body.map fun i => (i.opcode, i.children.map (·.opcode))) = [[(.forever, [.vanish])]] := by
  decide

end Example

end Stack
end BlockStage
