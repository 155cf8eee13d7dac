import BlockStage.Display.Instances
import BlockStage.Proofs.Scalar.Wholes
import BlockStage.Session

/-! Objects picked by their rows. A row holds the number of its object as a single, and whoever
draws it sends that number back as a word when it is clicked on. -/

namespace BlockStage

open Scalar (HasRoom IsWhole)

namespace Display

def rowNumber (row : List Float32) : Float32 := row.headD 0

/-- A conversion by which a single that is a word becomes that word. What becomes of other singles
is left open. -/
def Exact (sent : Float32 → BitVec 32) : Prop := ∀ x word, IsWhole x word.toNat → sent x = word

theorem exact_toUInt32 : Exact fun x => x.toUInt32.toBitVec := by
  intro x word whole
  have last := word.isLt
  refine BitVec.eq_of_toNat_eq ?_
  change x.toUInt32.toNat = _
  rw [whole.toNat_toUInt32]
  omega

variable {sent : Float32 → BitVec 32} (exact : Exact sent)

include exact

theorem sent_rowNumber {o : SceneObject} (room : HasRoom o.id.number) :
    (⟨sent (rowNumber (objectFloats o))⟩ : ObjectId) = o.id :=
  congrArg ObjectId.mk (exact _ o.id.word (room.isWhole o.id.word.isLt))

theorem sent_rowNumber_iff {o : SceneObject} (below : o.id.number < 4294967168) :
    (⟨sent (rowNumber (objectFloats o))⟩ : ObjectId) = o.id ↔ HasRoom o.id.number := by
  obtain ⟨m, word, whole, same⟩ := Scalar.exists_isWhole_ofNatSingle below
  have held : (BitVec.ofNat 32 m).toNat = m := Nat.mod_eq_of_lt word
  have read : sent (rowNumber (objectFloats o)) = .ofNat 32 m :=
    exact _ _ (show IsWhole (Scalar.ofNatSingle o.id.number) _ from held.symm ▸ whole)
  rw [← same, read]
  exact ⟨fun back => held.symm.trans (congrArg ObjectId.number back),
    fun eq => congrArg ObjectId.mk (BitVec.eq_of_toNat_eq (held.trans eq))⟩

theorem map_sent_rowNumber {scene : Scene} (rooms : ∀ id ∈ scene.ids, HasRoom id.number)
    (effects : Registry) : (Instances.ofScene scene effects).objects.map
      (fun row => (⟨sent (rowNumber row)⟩ : ObjectId)) = scene.ids := by
  rw [Scene.ids, List.forall_mem_map] at rooms
  rw [Instances.ofScene, Scene.ids, List.map_map]
  exact List.map_congr_left fun o there => sent_rowNumber exact (rooms o there)

end Display

def Program.onClick (p : Program) (id : ObjectId) : List Program.Entry :=
  p.entries.filter fun e =>
    decide (e.owner = id) && match e.script.trigger with
      | .click => true
      | _ => false

theorem Program.matching_click (p : Program) (id : ObjectId) :
    p.matching .click (some id) = p.onClick id := by
  refine List.filter_congr fun e _ => ?_
  have accepts : e.script.trigger.accepts .click =
      match e.script.trigger with
        | .click => true
        | _ => false := by
    cases e.script.trigger <;> rfl
  simp only [accepts, eq_comm]

open Display

/-- Under numbers of their own for which there is room, the objects of a scene have rows with
numbers of their own, and each comes back as it was; but no number does that a row holds as another
word. A click that is sent with the number of a row launches the scripts of its object that wait for
a click, and no others. -/
theorem rows_tell_objects_iff (scene : Scene) (effects : Registry) (distinct : scene.ids.Nodup)
    {sent : Float32 → BitVec 32} (exact : Exact sent) :
    let rows := (Instances.ofScene scene effects).objects
    let read (row : List Float32) : ObjectId := ⟨sent (rowNumber row)⟩
    ((∀ id ∈ scene.ids, HasRoom id.number) →
      (rows.map rowNumber).Nodup ∧ rows.map read = scene.ids) ∧
    (∀ o ∈ scene.objects, o.id.number < 4294967168 →
      (read (objectFloats o) = o.id ↔ HasRoom o.id.number)) ∧
    ∀ o ∈ scene.objects, HasRoom o.id.number → objectFloats o ∈ rows ∧
      ∀ s : Session, s.dispatcher.state = .running →
        let (_, scheduler, world) :=
          s.dispatcher.launchAll (s.dispatcher.program.onClick o.id) s.scheduler s.world
        s.handle (.click (read (objectFloats o))) = { s with scheduler, world } := by
  intro rows read
  refine ⟨fun rooms => ?_, fun o _ below => sent_rowNumber_iff exact below,
    fun o there room => ⟨List.mem_map_of_mem there, fun s running => ?_⟩⟩
  · have back : rows.map read = scene.ids := map_sent_rowNumber exact rooms effects
    refine ⟨?_, back⟩
    -- What is read from the numbers is distinct, so they are.
    rw [← back, show rows.map read = (rows.map rowNumber).map fun x => ⟨sent x⟩ by
      rw [List.map_map]; rfl] at distinct
    exact distinct.of_map _
  · have back : read (objectFloats o) = o.id := sent_rowNumber exact room
    simp only [back, Session.handle, Session.dispatch, Dispatcher.dispatch, if_pos running,
      Program.matching_click]

section Example

def scattered : Scene where
  objects := [{ id := ⟨1⟩ }, { id := ⟨16777216⟩ }, { id := ⟨16777218⟩ }, { id := ⟨2684354560⟩ }]
  nextId := 2684354561

def vanishing : Script :=
  ⟨.click, [], [⟨.vanish, [], .command, .edit (.setVisible false), [], []⟩]⟩

def clickable : Session where
  world := { World.ofConfig {} with scene := scattered, running := true }
  dispatcher := .start ⟨[⟨⟨1⟩, vanishing⟩, ⟨⟨2684354560⟩, vanishing⟩]⟩ 0
  clock := { step := 1 / 60 }

theorem rows_tell_scattered :
    let sent (x : Float32) : BitVec 32 := x.toUInt32.toBitVec
    scattered.ids.Nodup ∧ Exact sent ∧ (∀ id ∈ scattered.ids, HasRoom id.number) ∧
      (Instances.ofScene scattered {}).objects.map (fun row => ⟨sent (rowNumber row)⟩) =
        scattered.ids ∧
      let last : SceneObject := { id := ⟨2684354560⟩ }
      (clickable.handle (.click ⟨sent (rowNumber (objectFloats last))⟩)).world.scene.objects.map
        (·.visible) = [true, true, true, false] := by
  intro sent
  have distinct : scattered.ids.Nodup := by decide
  have rooms : ∀ id ∈ scattered.ids, HasRoom id.number := by
    simp only [scattered, Scene.ids, List.map_cons, List.map_nil, List.forall_mem_cons]
    exact ⟨⟨1, by decide, 0, by decide⟩, ⟨1, by decide, 24, by decide⟩,
      ⟨2 ^ 23 + 1, by decide, 1, by decide⟩, ⟨5, by decide, 29, by decide⟩, nofun⟩
  obtain ⟨told, -, click⟩ := rows_tell_objects_iff scattered {} distinct exact_toUInt32
  have there : ({ id := ⟨2684354560⟩ } : SceneObject) ∈ scattered.objects :=
    .tail _ (.tail _ (.tail _ (.head _)))
  refine ⟨distinct, exact_toUInt32, rooms, (told rooms).2, ?_⟩
  simp only [sent, (click _ there (rooms _ (List.mem_map_of_mem there))).2 clickable rfl]
  decide +kernel

/-- The first number for which there is no room, and the one before it. -/
def neighbours : Scene where
  objects := [{ id := ⟨16777216⟩ }, { id := ⟨16777217⟩ }]
  nextId := 16777218

/-- Both rows hold the same number, and nobody can tell from it which object it is. -/
theorem neighbours_not_told_apart :
    let rows := (Instances.ofScene neighbours {}).objects
    neighbours.ids.Nodup ∧ ¬ (rows.map rowNumber).Nodup ∧
      ∀ sent : Float32 → BitVec 32,
        rows.map (fun row => (⟨sent (rowNumber row)⟩ : ObjectId)) ≠ neighbours.ids := by
  intro rows
  have same : rows.map rowNumber = [16777216, 16777216] := by decide +kernel
  refine ⟨by decide, by rw [same]; decide, fun sent told => ?_⟩
  have read : rows.map (fun row => (⟨sent (rowNumber row)⟩ : ObjectId)) =
      (rows.map rowNumber).map fun x => ⟨sent x⟩ := by rw [List.map_map]; rfl
  rw [read, same] at told
  obtain ⟨first, second⟩ : sent 16777216 = 16777216 ∧ sent 16777216 = 16777217 := by
    simpa [neighbours, Scene.ids] using told
  exact absurd (first.symm.trans second) (by decide)

end Example

end BlockStage
