import BlockStage.Proofs.Removal.Final
import BlockStage.Proofs.Session.Identity

/-! Runs of a session as rows of cues. Between its first event and its end a run does nothing with
its tasks and its objects but what cues do. -/

namespace BlockStage.Session

def stage (s : Session) : Stage := ⟨s.dispatcher, s.scheduler, s.world⟩

def Cued (s s' : Session) : Prop := ∃ cues, s.stage.performAll cues = s'.stage

namespace Cued

variable {s s' s'' : Session}

protected theorem refl (s : Session) : Cued s s := ⟨[], rfl⟩

protected theorem trans (first : Cued s s') (second : Cued s' s'') : Cued s s'' := by
  obtain ⟨before, first⟩ := first
  obtain ⟨after, second⟩ := second
  exact ⟨before ++ after, by rw [Stage.performAll_append, first, second]⟩

theorem of_cue (cue : Cue) (performed : s.stage.perform cue = s'.stage) : Cued s s' :=
  ⟨[cue], performed⟩

end Cued

variable (s : Session)

/-! ### The parts of a frame -/

theorem cued_dispatch (event : Event) (target : Option ObjectId) :
    Cued s (s.dispatch event target).2 := .of_cue (.dispatch event target) rfl

theorem cued_modifyInput (f : InputState → InputState) : Cued s (s.modifyInput f) :=
  .of_cue (.change (.input (f s.world.input))) rfl

theorem cued_flushUpTo (budget : Nat) : Cued s (s.flushUpTo budget) := by
  induction budget generalizing s with
  | zero => exact .refl s
  | succ budget ih =>
    rw [flushUpTo]
    split
    · exact .refl s
    · rename_i raised world popped
      obtain ⟨p, -, taken⟩ := Option.map_eq_some_iff.1 popped
      obtain ⟨-, rfl⟩ := Prod.mk.inj taken
      have first : Cued s { s with world := { s.world with raised := p.2 } } :=
        .of_cue (.change (.play s.world.input s.world.player p.2)) rfl
      exact first.trans ((cued_dispatch _ _ _).trans (ih _))

theorem cued_movePlayer (steps : Nat) : Cued s (s.movePlayer steps) :=
  .of_cue (.change (.play _ _ s.world.raised)) rfl

theorem cued_touchNearby : Cued s s.touchNearby := by
  have touched (ids : List ObjectId) (s : Session) :
      Cued s (ids.foldl (fun s id => (s.dispatch (.collide "player") (some id)).2) s) := by
    induction ids generalizing s with
    | nil => exact .refl s
    | cons id ids ih => exact (cued_dispatch s _ _).trans (ih _)
  exact touched _ s

theorem cued_stepEffects (steps : Nat) : Cued s (s.stepEffects steps) := by
  induction steps with
  | zero => exact .refl s
  | succ steps ih => exact ih.trans (.of_cue (.change (.effects s.clock.step)) rfl)

theorem cued_advance (dt : Float) : Cued s (s.advance dt) := by
  have fired : Cued s s.fireTimers := .of_cue .fireTimers rfl
  have moved (s : Session) (steps : Nat) :
      Cued s ((s.movePlayer steps).touchNearby.stepEffects steps) :=
    (cued_movePlayer s steps).trans ((cued_touchNearby _).trans (cued_stepEffects _ steps))
  have clocked (s : Session) (clock : FixedClock) (steps : Nat) :
      Cued s (({ s with clock }.movePlayer steps).touchNearby.stepEffects steps) :=
    moved { s with clock } steps
  have counted (s : Session) (camera : Camera) :
      Cued s { s with camera, world := s.world.advanceCountdown dt } :=
    .of_cue (.change (.countdown dt)) rfl
  have ticked (s : Session) : Cued s s.tickTasks.flush :=
    (Cued.of_cue .tick rfl).trans (cued_flushUpTo _ _)
  exact fired.trans ((clocked _ _ _).trans ((counted _ _).trans (ticked _)))

/-! ### Whole runs -/

theorem cued_handle (event : InputEvent) (running : (s.handle event).isRunning = true) :
    Cued s (s.handle event) := by
  cases event with
  | keyDown key =>
    simp only [handle, press] at running ⊢
    split at running
    · simp at running
    · rename_i other
      rw [if_neg other]
      exact (s.cued_modifyInput _).trans (cued_dispatch _ _ _)
  | keyUp key => exact s.cued_modifyInput _
  | click object => exact s.cued_dispatch _ _
  | pointer delta => exact s.cued_modifyInput _
  | target point => exact .of_cue (.change (.play s.world.input _ s.world.raised)) rfl

theorem cued_handleToStop (events : List InputEvent) : Cued s (s.handleToStop events) := by
  induction events generalizing s with
  | nil => exact .refl s
  | cons event rest ih =>
    rw [handleToStop]
    split
    · exact (s.cued_handle event ‹_›).trans (ih _)
    · exact .refl s

theorem cued_tickToStop (dt : Float32) : Cued s (s.tickToStop dt) := by
  have later : Cued s (s.later dt) :=
    .of_cue (.change (.clock (s.world.now + frameTime dt))) rfl
  have handled := later.trans (cued_handleToStop _ s.inbox.toList)
  unfold tickToStop
  dsimp only
  split
  · exact handled.trans (cued_advance _ _)
  · exact handled

theorem cued_start (settings : Settings) : Cued (s.opened settings) (s.start settings) :=
  (cued_dispatch _ _ _).trans ((cued_dispatch _ _ _).trans (cued_flushUpTo _ _))

variable {s}

theorem cued_after {a : Action} (running : s.isRunning = true) (inside : a.Inside)
    (same : ∀ settings, a ≠ .start settings) : Cued s (s.after a) := by
  have happens := happens_after running same
  generalize s.after a = s' at happens ⊢
  cases happens with
  | frame dt => exact s.cued_tickToStop dt
  | scripts id canvas edited =>
    obtain ⟨scene, changed, rfl⟩ := setScripts_eq_ok edited
    obtain ⟨-, rfl⟩ := Scene.setScripts_eq_ok changed
    exact .of_cue (.change (.scripts id canvas)) rfl
  | edits change => exact inside.elim
  | removes id => exact .of_cue (.remove id) rfl
  | dispatches event target => exact s.cued_dispatch event target
  | drains => exact .of_cue (.change .drain) rfl
  | refuses | receives | resizes | loads | stops => exact .refl s

theorem cued_afterAll {actions : List Action} (same : s.SameRun actions) :
    Cued s (s.afterAll actions) := by
  induction actions generalizing s with
  | nil => exact .refl s
  | cons a rest ih =>
    obtain ⟨running, inside, other, later⟩ := same
    have first := cued_after running inside other
    rw [afterAll]
    split
    · rename_i still
      rw [after_of_running still] at first
      exact first.trans (ih later)
    · exact first

/-- From the first event of a run on its tasks and objects go through a row of cues. -/
theorem run_is_cued (s : Session) (settings : Settings) {actions : List Action}
    (same : (s.start settings).SameRun actions) :
    Cued (s.opened settings) ((s.start settings).afterAll actions) :=
  (s.cued_start settings).trans (cued_afterAll same)

end BlockStage.Session
