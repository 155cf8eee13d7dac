import BlockStage.Page
import BlockStage.Proofs.Session.Recording
import BlockStage.Proofs.Session.Reloading
import Mathlib.Data.List.Induction

/-! What a page has in its buffers: the scene and the particles as they were when the buffers were
filled last. A start runs scripts and does not fill them. -/

namespace BlockStage

open Display (objectFloats particleFloats)

namespace Page

inductive Call
  | load (text : String)
  | start (settings : String)
  | stop
  | tick (dt : Float32)
  | resize (width height : Float32)
  | receive (event : InputEvent)

/-- What fails leaves the page as it is. -/
def call (p : Page) : Call → Page
  | .load text => (p.load text).toOption.getD p
  | .start settings => p.start settings
  | .stop => p.stop
  | .tick dt => p.tick dt
  | .resize width height => p.resize width height
  | .receive event => p.receive event

def callAll (p : Page) (calls : List Call) : Page := calls.foldl call p

/-- One row for each object, in the order of the scene, and one for each live particle. -/
structure Drawn (p : Page) : Prop where
  objects : p.instances.objects = p.session.world.scene.objects.map objectFloats
  particles : p.instances.particles = p.session.world.effects.particles.map particleFloats

def rows (p : Page) : Display.Instances := .ofScene p.session.world.scene p.session.world.effects

def Call.Redraws (p : Page) : Call → Prop
  | load text => ∃ p', p.load text = .ok p'
  | stop | tick _ => True
  | start _ | resize _ _ | receive _ => False

variable {p p' : Page}

theorem drawn_iff : p.Drawn ↔ p.instances = p.rows := by
  constructor
  · rintro ⟨objects, particles⟩
    rw [rows, Display.Instances.ofScene, ← objects, ← particles]
  · intro filled
    exact ⟨congrArg Display.Instances.objects filled, congrArg Display.Instances.particles filled⟩

theorem drawn_redraw (p : Page) : p.redraw.Drawn := ⟨rfl, rfl⟩

theorem drawn_collect : p.collect.Drawn ↔ p.Drawn := ⟨fun h => ⟨h.1, h.2⟩, fun h => ⟨h.1, h.2⟩⟩

theorem drawn_of_load {text : String} (loaded : p.load text = .ok p') : p'.Drawn := by
  unfold load at loaded
  cases read : p.session.load text with
  | error e =>
    rw [read] at loaded
    contradiction
  | ok session =>
    rw [read] at loaded
    obtain rfl := Except.ok.inj loaded
    exact drawn_redraw _

theorem Call.Redraws.drawn {c : Call} (redraws : c.Redraws p) : (p.call c).Drawn := by
  cases c with
  | load text =>
    obtain ⟨p', loaded⟩ := redraws
    simp only [call, loaded]
    exact drawn_of_load loaded
  | stop => exact drawn_collect.2 (drawn_redraw _)
  | tick dt => exact drawn_collect.2 (drawn_redraw _)
  | start settings => exact redraws.elim
  | resize width height => exact redraws.elim
  | receive event => exact redraws.elim

/-- Other calls leave the buffers alone; and of these only a start can change what should be in
them. -/
theorem call_of_not_redraws {c : Call} (h : ¬ c.Redraws p) :
    (p.call c).instances = p.instances ∧
      ((∀ settings, c ≠ .start settings) → (p.call c).rows = p.rows) := by
  cases c with
  | load text =>
    cases read : p.load text with
    | error e =>
      simp only [call, read]
      exact ⟨rfl, fun _ => rfl⟩
    | ok p' => exact absurd ⟨p', read⟩ h
  | start settings => exact ⟨rfl, fun other => absurd rfl (other settings)⟩
  | stop => exact absurd trivial h
  | tick dt => exact absurd trivial h
  | resize width height =>
    simp only [call, resize]
    split <;> exact ⟨rfl, fun _ => rfl⟩
  | receive event => exact ⟨rfl, fun _ => rfl⟩

theorem callAll_concat (p : Page) (calls : List Call) (c : Call) :
    p.callAll (calls ++ [c]) = (p.callAll calls).call c :=
  List.foldl_append ..

/-- After any calls the buffers hold what was to be drawn after the last call that filled them, or
in the beginning. So they hold what is to be drawn now exactly if these are the same rows; and they
do unless a run was started since. -/
theorem buffers_as_last_drawn (calls : List Call) :
    let now := ({} : Page).callAll calls
    ∃ earlier later, calls = earlier ++ later ∧
      (earlier = [] ∨
        ∃ before c, earlier = before ++ [c] ∧ c.Redraws (({} : Page).callAll before)) ∧
      (∀ before c after, later = before ++ c :: after →
        ¬ c.Redraws (({} : Page).callAll (earlier ++ before))) ∧
      now.instances = (({} : Page).callAll earlier).rows ∧
      (now.Drawn ↔ now.rows = (({} : Page).callAll earlier).rows) ∧
      ((∀ settings, .start settings ∉ later) → now.Drawn) := by
  intro now
  -- The last two parts follow from what the buffers hold, and from what leaves the rows alone.
  suffices ∃ earlier later, calls = earlier ++ later ∧
      (earlier = [] ∨
        ∃ before c, earlier = before ++ [c] ∧ c.Redraws (({} : Page).callAll before)) ∧
      (∀ before c after, later = before ++ c :: after →
        ¬ c.Redraws (({} : Page).callAll (earlier ++ before))) ∧
      now.instances = (({} : Page).callAll earlier).rows ∧
      ((∀ settings, .start settings ∉ later) → now.rows = (({} : Page).callAll earlier).rows) by
    obtain ⟨earlier, later, split, filled, since, held, same⟩ := this
    have drawn : now.Drawn ↔ now.rows = (({} : Page).callAll earlier).rows := by
      rw [drawn_iff, held, eq_comm]
    exact ⟨earlier, later, split, filled, since, held, drawn, fun quiet => drawn.2 (same quiet)⟩
  induction calls using List.reverseRecOn with
  | nil => exact ⟨[], [], rfl, .inl rfl, by simp, rfl, fun _ => rfl⟩
  | append_singleton calls c ih =>
    have step : now = (({} : Page).callAll calls).call c := callAll_concat _ calls c
    by_cases redraws : c.Redraws (({} : Page).callAll calls)
    · exact ⟨calls ++ [c], [], (List.append_nil _).symm, .inr ⟨calls, c, rfl, redraws⟩, by simp,
        drawn_iff.1 (step ▸ redraws.drawn), fun _ => rfl⟩
    · obtain ⟨earlier, later, rfl, filled, since, held, same⟩ := ih
      obtain ⟨kept, rows⟩ := call_of_not_redraws redraws
      refine ⟨earlier, later ++ [c], List.append_assoc .., filled, fun before d after split => ?_,
        ?_, fun quiet => ?_⟩
      · rcases List.eq_nil_or_concat after with rfl | ⟨after, last, rfl⟩
        · obtain ⟨rfl, ended⟩ := List.append_inj' split rfl
          obtain rfl := List.head_eq_of_cons_eq ended
          exact redraws
        · rw [List.concat_eq_append, ← List.cons_append, ← List.append_assoc] at split
          obtain ⟨split, -⟩ := List.append_inj' split rfl
          exact since before d after split
      · rw [step, kept, held]
      · simp only [List.mem_append, List.mem_singleton, not_or] at quiet
        rw [step, rows fun settings same => (quiet settings).2 same.symm,
          same fun settings => (quiet settings).1]

section Example

def doubling : Project :=
  ⟨[{ scripts := [⟨1, 0, 0, [⟨1, "onStart", [], [], []⟩, ⟨2, "clone", [], [], []⟩]⟩] }], none⟩

theorem parse_render_doubling : Project.parse doubling.render = .ok doubling := by
  have plain (i : UInt64) (id : String) : (⟨i, id, [], [], []⟩ : Block).Canonical :=
    .intro (.object .nil nofun) nofun nofun
  have canonical : doubling.Canonical := by
    simpa [doubling, Project.Canonical, SavedObject.Canonical, Stack.Canonical] using
      ⟨plain 1 "onStart", plain 2 "clone"⟩
  have legible : doubling.Legible := by
    refine ⟨by decide +kernel, ?_⟩
    simp [doubling, Block.numbersIn, Block.numbers, Json.Value.numbersOfMembers]
  exact (Project.parse_render_eq_ok_iff canonical legible).2
    ⟨by decide +kernel, by decide +kernel⟩

def loaded : Page :=
  let session := (Session.ofConfig {}).stop
  let loadedSession := { session with world := { session.world with scene := doubling.toScene } }
  { session := loadedSession : Page }.redraw

theorem load_doubling : ({} : Page).load doubling.render = .ok loaded := by
  rw [load, Session.load, parse_render_doubling]
  rfl

theorem start_loaded (settings : Settings) :
    (loaded.session.start settings).world.scene.ids = [⟨1⟩, ⟨2⟩] := by
  let opening := loaded.session.opened settings
  let doubled := { opening with scheduler := ⟨[], 1⟩, world := opening.world.duplicate ⟨1⟩ }
  have cloned : (opening.dispatch .start none).2 = doubled :=
    Session.dispatch_of_cloning rfl rfl rfl (show 0 < ({} : Config).mostTasks by decide) rfl
  have level : (doubled.dispatch .levelStart none).2 = doubled :=
    (Session.dispatch_of_matching rfl).1
  have flushed : doubled.flush = doubled := rfl
  rw [Session.start_eq, cloned, level, flushed]
  rfl

/-- The scene has the object and its clone; the buffers have one row still. -/
theorem start_leaves_buffers_behind :
    let page := ({} : Page).callAll [.load doubling.render, .start ""]
    page.session.world.scene.ids = [⟨1⟩, ⟨2⟩] ∧ page.instances.objects.length = 1 ∧
      ¬ page.Drawn := by
  intro page
  have started : page = loaded.start "" := by
    simp only [page, callAll, List.foldl_cons, List.foldl_nil, call, load_doubling]
    rfl
  have ids : page.session.world.scene.ids = [⟨1⟩, ⟨2⟩] := by
    rw [started]
    exact start_loaded _
  have one : page.instances.objects.length = 1 := by
    rw [started]
    rfl
  refine ⟨ids, one, fun drawn => ?_⟩
  have two := congrArg List.length ids
  rw [Scene.ids, List.length_map] at two
  rw [drawn.objects, List.length_map, two] at one
  exact absurd one (by decide)

end Example

end Page
end BlockStage
