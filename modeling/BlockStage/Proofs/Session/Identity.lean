import BlockStage.Proofs.Run.Identity
import BlockStage.Proofs.Scene.Placing
import BlockStage.Proofs.Session.Edits
import BlockStage.Proofs.Session.Playing

/-! Numbers of objects over whole sessions. As long as they last each names one object at most, at
any time, and within a run none is handed out again. So nothing that is left of an object that is
gone can be taken for something of another one. -/

namespace BlockStage

/-! ### Scenes -/

namespace Scene

/-- A scene that was made by handing out so many numbers, and by adding objects under numbers that
were handed out and are not in use. Other edits leave the numbers alone. -/
inductive Built : Nat → Scene → Prop
  | empty : Built 0 {}
  | allocate {handed : Nat} {s : Scene} (h : Built handed s) : Built (handed + 1) s.allocate.2
  | spawn {handed : Nat} {s : Scene} {o : SceneObject} (h : Built handed s)
      (below : o.id.number < s.nextId.toNat) (unused : o.id ∉ s.ids) : Built handed (s.spawn o)
  | edit {handed : Nat} {s s' : Scene} (h : Built handed s) (ids : s'.ids = s.ids)
      (nextId : s'.nextId = s.nextId) : Built handed s'

theorem Built.toNat_nextId {handed : Nat} {s : Scene} (h : Built handed s)
    (room : 1 + handed < ObjectId.limit) : s.nextId.toNat = 1 + handed := by
  induction h with
  | empty => rfl
  | @allocate handed s _ ih =>
    have before := ih (by omega)
    have next : (s.nextId + 1).toNat = s.nextId.toNat + 1 := ObjectId.toNat_succ (by omega)
    change (s.nextId + 1).toNat = _
    omega
  | spawn _ below _ ih => rw [nextId_spawn_of_below below, ih room]
  | edit _ _ nextId ih => rw [nextId, ih room]

theorem Built.sound {handed : Nat} {s : Scene} (h : Built handed s)
    (room : 1 + handed < ObjectId.limit) : s.Sound := by
  induction h with
  | empty => exact ⟨List.nodup_nil, fun id there => absurd there List.not_mem_nil⟩
  | @allocate handed s h ih =>
    have before : 1 + handed < ObjectId.limit := by omega
    refine ⟨(ih before).nodup, fun id there => ?_⟩
    have below : id.number < s.nextId.toNat := (ih before).below id there
    rw [h.allocate.toNat_nextId room]
    rw [h.toNat_nextId before] at below
    omega
  | spawn _ below unused ih =>
    have nextId := nextId_spawn_of_below below
    exact (ih room).add unused (ids_spawn _ _) (nextId ▸ Nat.le_refl _) (by rwa [nextId])
  | edit _ ids nextId ih =>
    refine ⟨ids ▸ (ih room).nodup, ?_⟩
    rw [Numbered, ids, nextId]
    exact (ih room).below

end Scene

theorem Project.built_toScene (p : Project) (room : 1 + p.objects.length < ObjectId.limit) :
    p.toScene.Built p.objects.length := by
  have placed (objects : List SavedObject) {handed : Nat} {s : Scene} (h : s.Built handed)
      (room : 1 + (handed + objects.length) < ObjectId.limit) :
      (objects.foldl place s).Built (handed + objects.length) := by
    induction objects generalizing handed s with
    | nil => exact h
    | cons o rest ih =>
      rw [List.length_cons] at room
      have before := h.toNat_nextId (by omega)
      have after := h.allocate.toNat_nextId (by omega)
      have taken : s.nextId.toNat < s.allocate.2.nextId.toNat := by omega
      have unused : ⟨s.nextId⟩ ∉ s.ids := (h.sound (by omega)).below.unused
      have next : (place s o).Built (handed + 1) := .spawn h.allocate taken unused
      rw [List.length_cons, ← Nat.add_assoc, Nat.add_right_comm]
      exact ih next (by omega)
  have first : ({ spawnPoint := p.spawnPoint.getD ⟨0, 2, 5⟩ } : Scene).Built 0 :=
    .edit .empty rfl rfl
  have all := placed p.objects first (by omega)
  rwa [Nat.zero_add] at all

namespace Session

/-! ### Sessions -/

def ofScene (config : Config) (scene : Scene) : Session :=
  { ofConfig config with world := { World.ofConfig config with scene } }

/-- The scene is not edited from outside, other than by scripts that are replaced and by projects
that are loaded. -/
def Action.Inside : Action → Prop
  | .edit _ => False
  | _ => True

structure Sound (s : Session) : Prop where
  settled : Settled s
  scene : s.world.scene.Sound
  snapshot : ∀ scene, s.snapshot = some scene → scene.Sound

namespace Sound

variable {s : Session}

theorem savedScene (h : s.Sound) : s.savedScene.Sound := by
  cases hs : s.snapshot with
  | some scene => simpa only [Session.savedScene, hs, Option.getD_some] using h.snapshot scene hs
  | none => simpa only [Session.savedScene, hs, Option.getD_none] using h.scene

theorem stop (h : s.Sound) : s.stop.Sound where
  settled := s.settled_stop
  scene := h.savedScene
  snapshot _ hs := by cases hs

end Sound

theorem keptInWork_tends : KeptInWork Tends where
  toKept := kept_tends
  effects w dt := (w.calm_stepEffects dt).tends
  aside w look player raised countdown :=
    (show Calm w { w with input := { w.input with look }, player, raised, countdown } from
      .of_same rfl rfl rfl rfl rfl rfl).tends

theorem keptInFrames_tends : KeptInFrames Tends where
  toKeptInWork := keptInWork_tends
  input w input := (show Calm w { w with input } from .of_same rfl rfl rfl rfl rfl rfl).tends
  clock w now := (show Calm w { w with now } from .of_same rfl rfl rfl rfl rfl rfl).tends

theorem calm_setScripts {s s' : Session} {id : ObjectId} {canvas : List Stack}
    (h : s.setScripts id canvas = .ok s') :
    Calm s.world s'.world ∧ s'.snapshot = s.snapshot := by
  obtain ⟨scene, edited, rfl⟩ := setScripts_eq_ok h
  obtain ⟨-, rfl⟩ := Scene.setScripts_eq_ok edited
  exact ⟨.of_same rfl rfl (Scene.ids_modify _ _ fun _ same => same) rfl rfl rfl, rfl⟩

theorem scene_opened {s : Session} (settled : Settled s) (settings : Settings) :
    (s.opened settings).world.scene = s.savedScene := by
  simp only [opened, World.showAllVars_eq]
  exact settled.scene_ready

theorem handed_opened (s : Session) (settings : Settings) :
    (s.opened settings).world.notices.toList.filterMap Notice.handed? = [] := by
  simp only [opened, World.showAllVars_eq, Queue.toList_pushAll]
  refine List.filterMap_eq_nil_iff.2 fun n hn => ?_
  obtain ⟨p, -, rfl⟩ := List.mem_map.1 hn
  rfl

theorem targeted_opened (s : Session) (settings : Settings) :
    (s.opened settings).world.Targeted := by
  have records : (s.opened settings).world.effects.records = [] := by
    simp only [opened, World.showAllVars_eq]
    rfl
  simp [World.Targeted, records]

/-! ### Numbers that last -/

def handedBy (s : Session) : Action → List ObjectId
  | .load text =>
    match Project.parse text with
    | .ok project => project.toScene.ids
    | .error _ => []
  | .start settings => (s.start settings).world.notices.toList.filterMap Notice.handed?
  | .tick dt => s.world.handedSince (s.tickToStop dt).world
  | .dispatch event target => s.world.handedSince (s.dispatch event target).2.world
  | _ => []

def firstNumber (s : Session) : Action → Nat
  | .load _ => 1
  | .start _ => s.savedScene.nextId.toNat
  | _ => s.world.scene.nextId.toNat

/-- No scene needs more numbers than there are. -/
def NumbersLast : Session → List Action → Prop
  | _, [] => True
  | s, a :: rest =>
    s.firstNumber a + (s.handedBy a).length < ObjectId.limit ∧ (s.act a).NumbersLast rest

theorem hands_start (s : Session) (settings : Settings) :
    Hands ((s.start settings).world.notices.toList.filterMap Notice.handed?)
      (s.opened settings).world (s.start settings).world := by
  obtain ⟨handed, told, hands⟩ := (keptInWork_tends.start s settings).course.handed
  rwa [told, handed_opened, List.nil_append]

theorem targeted_act {s : Session} (h : s.world.Targeted) {a : Action} (inside : a.Inside) :
    (s.act a).world.Targeted := by
  have stopped (s : Session) : s.stop.world.Targeted := fun _ hr => absurd hr List.not_mem_nil
  cases a with
  | load text =>
    simp only [act, load]
    cases parsed : Project.parse text with
    | error e => exact h
    | ok project => exact fun _ hr => absurd hr List.not_mem_nil
  | setScripts id canvas =>
    simp only [act]
    cases edited : s.setScripts id canvas with
    | error e => exact h
    | ok s' => exact (calm_setScripts edited).1.hands.targeted h
  | edit change => exact inside.elim
  | start settings => exact (s.hands_start settings).targeted (s.targeted_opened settings)
  | stop => exact stopped s
  | receive event => exact h
  | tick dt =>
    by_cases running : s.isRunning = true
    · rcases s.proceeds_tick dt running with goesOn | ⟨last, -, ended⟩
      · have same := tick_eq_tickToStop running (goesOn.isRunning.trans running)
        simp only [act, same]
        exact (keptInFrames_tends.tickToStop s dt).hands.targeted h
      · simp only [act, ended]
        exact stopped last
    · simp only [act, Session.tick, if_neg running]
      exact h
  | dispatch event target => exact (keptInWork_tends.dispatch s event target).hands.targeted h
  | removeObject id => exact (s.world.hands_removeObject id).targeted h
  | drainNotices => exact h
  | resize width height => exact h

theorem targeted_actAll {s : Session} (h : s.world.Targeted) {actions : List Action}
    (inside : ∀ a ∈ actions, a.Inside) : (s.actAll actions).world.Targeted := by
  induction actions generalizing s with
  | nil => exact h
  | cons a rest ih =>
    rw [List.forall_mem_cons] at inside
    exact ih (targeted_act h inside.1) inside.2

theorem sound_act {s : Session} (h : s.Sound) {a : Action} (inside : a.Inside)
    (room : s.firstNumber a + (s.handedBy a).length < ObjectId.limit) : (s.act a).Sound := by
  have settled := settled_act h.settled a
  have played {s' : Session} (settled : Settled s') (scene : s'.world.scene.Sound)
      (snapshot : s'.snapshot = s.snapshot) : s'.Sound :=
    ⟨settled, scene, snapshot ▸ h.snapshot⟩
  cases a with
  | load text =>
    simp only [act, load, firstNumber, handedBy] at settled room ⊢
    cases parsed : Project.parse text with
    | error e => exact h
    | ok project =>
      rw [parsed] at settled room
      have few : 1 + project.objects.length < ObjectId.limit := by
        simpa [Scene.ids, Project.toScene_eq, Project.length_numbered] using room
      exact ⟨settled, (project.built_toScene few).sound few, fun _ hs => by cases hs⟩
  | setScripts id canvas =>
    simp only [act] at settled ⊢
    cases edited : s.setScripts id canvas with
    | error e => exact h
    | ok s' =>
      obtain ⟨calm, same⟩ := calm_setScripts edited
      rw [edited] at settled
      exact played settled (calm.hands.sound h.scene s.world.scene.nextId.isLt) same
  | edit change => exact inside.elim
  | start settings =>
    have opened : (s.opened settings).world.scene = s.savedScene := scene_opened h.settled settings
    refine ⟨settled, (s.hands_start settings).sound (opened ▸ h.savedScene) (opened ▸ room), ?_⟩
    simp only [act, (h.settled.start settings).2.1]
    rintro scene ⟨⟩
    exact h.savedScene
  | stop => exact h.stop
  | receive event => exact ⟨settled, h.scene, h.snapshot⟩
  | tick dt =>
    by_cases running : s.isRunning = true
    · rcases s.proceeds_tick dt running with goesOn | ⟨last, worked, stopped⟩
      · have same := tick_eq_tickToStop running (goesOn.isRunning.trans running)
        have worked := (keptInFrames_tends.tickToStop s dt).hands.sound h.scene room
        exact played settled (show (s.tick dt).world.scene.Sound from same ▸ worked)
          goesOn.snapshot
      · obtain ⟨scene, kept⟩ := Option.isSome_iff_exists.1 (h.settled.isRunning ▸ running)
        have saved := worked.savedScene kept
        simp only [act, stopped] at settled ⊢
        exact ⟨settled, show last.savedScene.Sound from saved ▸ h.savedScene,
          fun _ hs => by cases hs⟩
    · simp only [act, Session.tick, if_neg running] at settled ⊢
      exact ⟨settled, h.scene, h.snapshot⟩
  | dispatch event target =>
    exact played settled
      ((keptInWork_tends.dispatch s event target).hands.sound h.scene room) rfl
  | removeObject id =>
    exact played settled
      ((s.world.hands_removeObject id).sound h.scene s.world.scene.nextId.isLt) rfl
  | drainNotices => exact ⟨settled, h.scene, h.snapshot⟩
  | resize width height => exact ⟨settled, h.scene, h.snapshot⟩

theorem sound_actAll {s : Session} (h : s.Sound) {actions : List Action}
    (inside : ∀ a ∈ actions, a.Inside) (last : s.NumbersLast actions) :
    (s.actAll actions).Sound := by
  induction actions generalizing s with
  | nil => exact h
  | cons a rest ih =>
    rw [List.forall_mem_cons] at inside
    exact ih (sound_act h inside.1 last.1) inside.2 last.2

theorem sound_ofScene (config : Config) {scene : Scene} (sound : scene.Sound) :
    (ofScene config scene).Sound :=
  ⟨⟨rfl, by simp [ofScene, ofConfig]⟩, sound, fun _ hs => by cases hs⟩

/-- In a session whose numbers last, the next one is not in use. -/
theorem unused_actAll {config : Config} {scene : Scene} (sound : scene.Sound)
    {actions : List Action} (inside : ∀ a ∈ actions, a.Inside)
    (last : (ofScene config scene).NumbersLast actions) :
    let scene := ((ofScene config scene).actAll actions).world.scene
    ⟨scene.nextId⟩ ∉ scene.ids :=
  (sound_actAll (sound_ofScene config sound) inside last).scene.below.unused

/-! ### In the course of one run -/

/-- The actions happen in one run. The last of them may end it. -/
def SameRun : Session → List Action → Prop
  | _, [] => True
  | s, a :: rest =>
    s.isRunning = true ∧ a.Inside ∧ (∀ settings, a ≠ .start settings) ∧ (s.act a).SameRun rest

/-- The run after an action, or right before its end if the action ends it. -/
def after (s : Session) (a : Action) : Session :=
  if (s.act a).isRunning then s.act a
  else match a with
    | .tick dt => s.tickToStop dt
    | _ => s

theorem after_of_running {s : Session} {a : Action} (h : (s.act a).isRunning = true) :
    s.after a = s.act a := if_pos h

def afterAll (s : Session) : List Action → Session
  | [] => s
  | a :: rest => if (s.act a).isRunning then (s.act a).afterAll rest else s.after a

def drained (s : Session) : Action → List Notice
  | .drainNotices => s.world.notices.toList
  | _ => []

/-- What is told in the course of a run, in order: what is drained and what waits in the end. -/
def toldIn (s : Session) : List Action → List Notice
  | [] => s.world.notices.toList
  | a :: rest => s.drained a ++
    if (s.act a).isRunning then (s.act a).toldIn rest else (s.after a).world.notices.toList

def handed (s : Session) (actions : List Action) : List ObjectId :=
  (s.toldIn actions).filterMap Notice.handed?

/-- What an action does in a run, up to its end. -/
inductive Happens (s : Session) : Action → Session → Prop
  | frame (dt : Float32) : s.Happens (.tick dt) (s.tickToStop dt)
  | scripts (id : ObjectId) (canvas : List Stack) {s' : Session}
    (edited : s.setScripts id canvas = .ok s') : s.Happens (.setScripts id canvas) s'
  | refuses (id : ObjectId) (canvas : List Stack) {e : Failure}
    (refused : s.setScripts id canvas = .error e) : s.Happens (.setScripts id canvas) s
  | edits (change : Scene → Scene) :
    s.Happens (.edit change) { s with world := { s.world with scene := change s.world.scene } }
  | removes (id : ObjectId) : s.Happens (.removeObject id) (s.removeObject id)
  | dispatches (event : Event) (target : Option ObjectId) :
    s.Happens (.dispatch event target) (s.dispatch event target).2
  | receives (event : InputEvent) : s.Happens (.receive event) (s.receive event)
  | drains : s.Happens .drainNotices s.drainNotices.2
  | resizes (width height : Float32) :
    s.Happens (.resize width height) { s with camera := s.camera.resize width height }
  /-- Either the text cannot be read, or the run ends. -/
  | loads (text : String) : s.Happens (.load text) s
  | stops : s.Happens .stop s

theorem after_tick {s : Session} (running : s.isRunning = true) (dt : Float32) :
    s.after (.tick dt) = s.tickToStop dt := by
  unfold after
  split
  · exact tick_eq_tickToStop running ‹_›
  · rfl

theorem happens_after {s : Session} {a : Action} (running : s.isRunning = true)
    (other : ∀ settings, a ≠ .start settings) : s.Happens a (s.after a) := by
  cases a with
  | tick dt =>
    rw [after_tick running]
    exact .frame dt
  | load text =>
    have rests : s.after (.load text) = s := by
      unfold after
      split
      · rename_i still
        simp only [act, load] at still ⊢
        cases parsed : Project.parse text with
        | error e => rfl
        | ok project =>
          rw [parsed] at still
          exact absurd (still.symm.trans s.isRunning_stop) (by simp)
      · rfl
    rw [rests]
    exact .loads text
  | stop =>
    have ended : ¬ (s.act .stop).isRunning = true := by simp [act]
    have rests : s.after .stop = s := if_neg ended
    rw [rests]
    exact .stops
  | start settings => exact absurd rfl (other settings)
  | setScripts id canvas =>
    cases edited : s.setScripts id canvas with
    | error e =>
      have same : s.act (.setScripts id canvas) = s := by simp only [act, edited]; rfl
      have still : (s.act (.setScripts id canvas)).isRunning = true := by rwa [same]
      rw [after_of_running still, same]
      exact .refuses id canvas edited
    | ok s' =>
      have made : s.act (.setScripts id canvas) = s' := by simp only [act, edited]; rfl
      have still : (s.act (.setScripts id canvas)).isRunning = true := by
        obtain ⟨scene, -, rfl⟩ := setScripts_eq_ok edited
        rwa [made]
      rw [after_of_running still, made]
      exact .scripts id canvas edited
  | edit change =>
    rw [after_of_running (a := .edit change) running]
    exact .edits change
  | removeObject id =>
    have kept : (s.act (.removeObject id)).isRunning = s.isRunning :=
      congrArg (· && decide (s.dispatcher.state = .running))
        (s.world.evolves_removeObject id).running
    rw [after_of_running (kept.trans running)]
    exact .removes id
  | dispatch event target =>
    have kept : (s.act (.dispatch event target)).isRunning = s.isRunning :=
      (s.continues_dispatch event target).isRunning
    rw [after_of_running (kept.trans running)]
    exact .dispatches event target
  | receive event =>
    rw [after_of_running (a := .receive event) running]
    exact .receives event
  | drainNotices =>
    rw [after_of_running (a := .drainNotices) running]
    exact .drains
  | resize width height =>
    rw [after_of_running (a := .resize width height) running]
    exact .resizes width height

theorem course_after {s : Session} {a : Action} (running : s.isRunning = true)
    (inside : a.Inside) (same : ∀ settings, a ≠ .start settings) :
    Course (s.drained a ++ (s.after a).world.notices.toList) s.world (s.after a).world := by
  have rests : Course s.world.notices.toList s.world s.world := (Tends.refl s.world).course
  have happens := happens_after running same
  generalize s.after a = s' at happens ⊢
  cases happens with
  | frame dt => exact (keptInFrames_tends.tickToStop s dt).course
  | scripts id canvas edited => exact (calm_setScripts edited).1.tends.course
  | edits change => exact inside.elim
  | removes id => exact (s.world.tends_removeObject id).course
  | dispatches event target => exact (keptInWork_tends.dispatch s event target).course
  | drains =>
    have drained : s.drained .drainNotices ++ s.drainNotices.2.world.notices.toList =
        s.world.notices.toList := List.append_nil _
    rw [drained]
    exact .drain s.world
  | refuses | receives | resizes | loads | stops => exact rests

theorem course_afterAll {s : Session} {actions : List Action} (same : s.SameRun actions) :
    Course (s.toldIn actions) s.world (s.afterAll actions).world := by
  induction actions generalizing s with
  | nil => exact (Tends.refl s.world).course
  | cons a rest ih =>
    obtain ⟨running, inside, other, later⟩ := same
    have first := course_after running inside other
    rw [toldIn, afterAll]
    split
    · rename_i still
      rw [after_of_running still] at first
      exact first.trans (ih later)
    · exact first

theorem SameRun.take {s : Session} {earlier later : List Action}
    (same : s.SameRun (earlier ++ later)) : s.SameRun earlier := by
  induction earlier generalizing s with
  | nil => trivial
  | cons a rest ih =>
    obtain ⟨running, inside, other, same⟩ := same
    exact ⟨running, inside, other, ih same⟩

theorem hands_afterAll {s : Session} {settings : Settings} {actions : List Action}
    (same : (s.start settings).SameRun actions) :
    Hands ((s.start settings).handed actions) (s.opened settings).world
      ((s.start settings).afterAll actions).world := by
  obtain ⟨handed, told, hands⟩ := (course_afterAll same).handed
  rw [Session.handed, told]
  exact (s.hands_start settings).trans hands

theorem hands_again {s : Session} {earlier later : List Action}
    (same : s.SameRun (earlier ++ later)) :
    ∃ again, s.handed (earlier ++ later) = s.handed earlier ++ again ∧
      Hands again (s.afterAll earlier).world (s.afterAll (earlier ++ later)).world := by
  induction earlier generalizing s with
  | nil => exact (course_afterAll same).handed
  | cons a rest ih =>
    obtain ⟨running, inside, other, same⟩ := same
    simp only [handed, List.cons_append, toldIn, afterAll] at ih ⊢
    split
    · obtain ⟨again, told, hands⟩ := ih same
      exact ⟨again, by rw [List.filterMap_append, told, List.filterMap_append, List.append_assoc],
        hands⟩
    · exact ⟨[], (List.append_nil _).symm, .refl _⟩

/-- The number was handed out in the course of the run, or was the number of an object of the run
then. -/
def Known (s : Session) (actions : List Action) (id : ObjectId) : Prop :=
  id ∈ s.handed actions ∨ ∃ past, past <+: actions ∧ id ∈ (s.afterAll past).world.scene.ids

theorem below_of_known {s : Session} {settings : Settings} {actions : List Action}
    (sound : (s.opened settings).world.scene.Sound) (same : (s.start settings).SameRun actions)
    (room : (s.opened settings).world.scene.nextId.toNat +
      ((s.start settings).handed actions).length < ObjectId.limit)
    {id : ObjectId} (known : (s.start settings).Known actions id) :
    id.number < ((s.start settings).afterAll actions).world.scene.nextId.toNat := by
  rcases known with told | ⟨past, ⟨later, rfl⟩, there⟩
  · exact (((hands_afterAll same).mem_iff room).1 told).2
  · obtain ⟨between, split, hands⟩ := hands_again same
    have before := hands_afterAll same.take
    rw [split, List.length_append] at room
    have near : (s.opened settings).world.scene.nextId.toNat +
        ((s.start settings).handed past).length < ObjectId.limit := by omega
    have below := (before.sound sound near).below id there
    have nextId := before.toNat_nextId near
    have grown := hands.toNat_nextId (by omega)
    omega

end Session

/-- What is left of an object that is gone: its number names nothing, no effect is left on it, its
tasks are dropped when their turn comes, and none of its scripts is launched. -/
structure Inert (id : ObjectId) (w : World) : Prop where
  absent : id ∉ w.scene.ids
  effects : ∀ record ∈ w.effects.records, record.target ≠ id
  visit : ∀ (program : Program) (t : Task), t.owner = id →
    Scheduler.visit program t w = (none, {}, w)
  launch : ∀ (d : Dispatcher) (entry : Program.Entry) (s : Scheduler), entry.owner = id →
    d.launch entry s w = (s, w)

theorem World.Targeted.inert {w : World} (h : w.Targeted) {id : ObjectId}
    (gone : id ∉ w.scene.ids) : Inert id w := by
  have absent : w.scene.contains id = false := by
    rw [← Bool.not_eq_true, Scene.contains_iff]
    exact gone
  refine ⟨gone, fun record hr same => gone (same ▸ h record hr), ?_, ?_⟩
  · rintro program t rfl
    simp only [Scheduler.visit, absent, Bool.false_eq_true, if_false]
  · rintro d entry s rfl
    simp only [Dispatcher.launch, Scheduler.launch, absent, Bool.and_false, Bool.false_eq_true,
      if_false]

namespace Session

/-- Effects are effects of objects that are there at any time, and what is done in the name of an
object never concerns another one. As long as numbers last they never go stale: at any time they are
distinct and below the next one, and in one run none is handed out twice, nor is one that was known
before; of a known one that names nothing all that is left stays inert. -/
theorem ids_never_stale (config : Config) (scene : Scene) (made : Nat) (built : scene.Built made)
    (history : List Action) (inside : ∀ a ∈ history, a.Inside) :
    let s := (ofScene config scene).actAll history
    (∀ record ∈ s.world.effects.records, record.target ∈ s.world.scene.ids) ∧
    (1 + made < ObjectId.limit → (ofScene config scene).NumbersLast history →
      (s.world.scene.ids.Nodup ∧
        ∀ id ∈ s.world.scene.ids, id.number < s.world.scene.nextId.toNat) ∧
      ∀ settings earlier later, (s.start settings).SameRun (earlier ++ later) →
        let run := s.start settings
        s.savedScene.nextId.toNat + (run.handed (earlier ++ later)).length < ObjectId.limit →
        (run.handed (earlier ++ later)).Nodup ∧
        ∃ again, run.handed (earlier ++ later) = run.handed earlier ++ again ∧
          ∀ id, run.Known earlier id →
            id ∉ again ∧
            (id ∉ (run.afterAll earlier).world.scene.ids →
              Inert id (run.afterAll (earlier ++ later)).world)) ∧
    (∀ (i : Instruction) (owner : ObjectId) (program : Program) (w : World),
      Concerns owner w (i.execute owner program w).2) ∧
    ∀ (view : StepView) (record : EffectRecord) (scene : Scene) (other : ObjectId),
      other ≠ record.target →
        (Registry.stepRecord view record scene).1.find? other = scene.find? other := by
  intro s
  have targeted : (ofScene config scene).world.Targeted := fun _ hr => absurd hr List.not_mem_nil
  refine ⟨targeted_actAll targeted inside, fun room last => ?_, Instruction.concerns_execute,
    fun view record scene _ => Registry.find?_stepRecord view record scene⟩
  have sound : s.Sound := sound_actAll (sound_ofScene config (built.sound room)) inside last
  refine ⟨⟨sound.scene.nodup, sound.scene.below⟩, fun settings earlier later same => ?_⟩
  intro run few
  have opened : (s.opened settings).world.scene = s.savedScene :=
    scene_opened sound.settled settings
  have first_sound : (s.opened settings).world.scene.Sound := opened ▸ sound.savedScene
  rw [← opened] at few
  obtain ⟨again, handed, hands⟩ := hands_again same
  have all : Hands (run.handed (earlier ++ later)) _ _ := hands_afterAll same
  have first : Hands (run.handed earlier) _ _ := hands_afterAll same.take
  have counted : (run.handed (earlier ++ later)).length =
      (run.handed earlier).length + again.length := by rw [handed, List.length_append]
  have room_first : (s.opened settings).world.scene.nextId.toNat + (run.handed earlier).length <
      ObjectId.limit := by omega
  have room_again : (run.afterAll earlier).world.scene.nextId.toNat + again.length <
      ObjectId.limit := by
    rw [first.toNat_nextId room_first]
    omega
  refine ⟨all.nodup few, again, handed, fun id known => ?_⟩
  have used := below_of_known first_sound same.take room_first known
  exact ⟨hands.not_mem room_again used, fun gone =>
    (all.targeted (s.targeted_opened settings)).inert (hands.stays_gone room_again gone used)⟩

section Example

def cloner : Scene :=
  ({} : Scene).allocate.2.spawn
    { id := ⟨1⟩, scripts := [⟨1, 0, 0, [⟨1, "onClick", [], [], []⟩, ⟨2, "clone", [], [], []⟩]⟩] }

def cloning : Instruction := ⟨.duplicate, [], .command, .duplicate, [], []⟩

theorem drive_cloning (program : Program) (owner : ObjectId) (q : Queue Frame) {w : World}
    (running : w.running = true) :
    Task.drive program owner [.sequence [cloning]] q w = ⟨none, q, w.duplicate owner⟩ := by
  have running' : (w.duplicate owner).running = true :=
    (w.grows_duplicate owner).running.trans running
  have clones : Task.step program owner [.sequence [cloning]] w =
      (.go [.sequence []], w.duplicate owner) := by
    simp [Task.step, running, Task.mostFrames]
    rfl
  have ends : Task.step program owner [.sequence []] (w.duplicate owner) =
      (.go [], w.duplicate owner) := by
    simp [Task.step, running', Task.mostFrames]
    rfl
  rw [Task.drive_go clones, Task.drive_go ends, Task.drive_finish rfl]

theorem dispatch_of_cloning {s : Session} {event : Event} {target : Option ObjectId}
    {trigger : Trigger} {owner : ObjectId} (running : s.isRunning = true)
    (matching : s.dispatcher.program.matching event target =
      [⟨owner, ⟨trigger, [], [cloning]⟩⟩])
    (there : s.world.scene.contains owner = true) (room : 0 < s.world.config.mostTasks)
    (idle : s.scheduler.tasks = []) :
    (s.dispatch event target).2 =
      { s with scheduler := ⟨[], s.scheduler.nextId + 1⟩, world := s.world.duplicate owner } := by
  obtain ⟨on, state⟩ : s.world.running = true ∧ s.dispatcher.state = .running := by
    simpa [isRunning] using running
  have free : s.scheduler.tasks.length < s.world.config.mostTasks := by rwa [idle]
  rw [dispatch, Dispatcher.dispatch_of_drive state matching
    (drive_cloning s.dispatcher.program owner {} on) (List.cons_ne_nil _ _) on there free, idle]

theorem dispatch_cloning {s : Session} (running : s.isRunning = true)
    (program : s.dispatcher.program = .ofScene .standard cloner)
    (there : s.world.scene.contains ⟨1⟩ = true) (room : 0 < s.world.config.mostTasks)
    (idle : s.scheduler.tasks = []) :
    (s.dispatch .click (some ⟨1⟩)).2 =
      { s with scheduler := ⟨[], s.scheduler.nextId + 1⟩, world := s.world.duplicate ⟨1⟩ } :=
  dispatch_of_cloning running (by rw [program]; rfl) there room idle

/-- The first clone is removed; the second one gets a number of its own. -/
theorem clones_get_new_ids :
    let run := ((ofScene {} cloner).actAll []).start {}
    let earlier := [.dispatch .click (some ⟨1⟩), .drainNotices, .removeObject ⟨2⟩]
    let later := [.dispatch .click (some ⟨1⟩), .stop]
    run.handed (earlier ++ later) = [⟨2⟩, ⟨3⟩] ∧
    Inert ⟨2⟩ (run.afterAll (earlier ++ later)).world := by
  intro run earlier later
  have built : cloner.Built 1 := .spawn (.allocate .empty) (by decide) (by decide)
  let clicked := { run with scheduler := ⟨[], 1⟩, world := run.world.duplicate ⟨1⟩ }
  let left := clicked.drainNotices.2.removeObject ⟨2⟩
  let again := { left with scheduler := ⟨[], 2⟩, world := left.world.duplicate ⟨1⟩ }
  have first : run.act (.dispatch .click (some ⟨1⟩)) = clicked :=
    dispatch_cloning rfl rfl rfl (by decide) rfl
  have second : left.act (.dispatch .click (some ⟨1⟩)) = again :=
    dispatch_cloning rfl rfl rfl (by decide) rfl
  have same : run.SameRun (earlier ++ later) := by
    refine ⟨rfl, trivial, nofun, ?_⟩
    rw [first]
    refine ⟨rfl, trivial, nofun, rfl, trivial, nofun, ?_⟩
    refine ⟨rfl, trivial, nofun, ?_⟩
    rw [show ((clicked.act .drainNotices).act (.removeObject ⟨2⟩)) = left from rfl, second]
    exact ⟨rfl, trivial, nofun, trivial⟩
  have ended : run.afterAll earlier = left := by
    rw [afterAll, first]
    rfl
  have handed : run.handed earlier = [⟨2⟩] := by
    rw [Session.handed, toldIn, first]
    rfl
  have handed_again : left.handed later = [⟨3⟩] := by
    rw [Session.handed, toldIn, second]
    rfl
  have told : run.toldIn (earlier ++ later) =
      clicked.world.notices.toList ++ left.toldIn later := by
    rw [List.cons_append, toldIn, first]
    rfl
  have handed_all : run.handed (earlier ++ later) = [⟨2⟩, ⟨3⟩] := by
    rw [Session.handed, told, List.filterMap_append, ← Session.handed, handed_again]
    rfl
  have few : cloner.nextId.toNat + (run.handed (earlier ++ later)).length < ObjectId.limit := by
    rw [handed_all]
    decide
  obtain ⟨-, more, -, never⟩ :=
    ((ids_never_stale {} cloner 1 built [] (by simp)).2.1 (by decide) trivial).2
      {} earlier later same few
  refine ⟨handed_all, (never ⟨2⟩ (.inl ?_)).2 ?_⟩
  · rw [handed]
    decide
  · rw [ended]
    decide

end Example

end Session
end BlockStage
