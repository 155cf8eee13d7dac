import BlockStage.Proofs.Run.Keeping
import BlockStage.Proofs.Session.Reach

/-! Relations between worlds that a whole run keeps, frame by frame, as long as it is not stopped:
those that instructions, effects and all that touches neither the scene nor the notices keep. -/

namespace BlockStage

namespace Session

/-! ### Up to the stop -/

/-- Handles what the user did, up to the key that stops the run. -/
def handleToStop (s : Session) : List InputEvent → Session
  | [] => s
  | event :: rest =>
    if (s.handle event).isRunning then (s.handle event).handleToStop rest else s

def later (s : Session) (dt : Float32) : Session :=
  { s with world := { s.world with now := s.world.now + frameTime dt }, inbox := {} }

/-- A frame of a run, up to the key that stops the run. -/
def tickToStop (s : Session) (dt : Float32) : Session :=
  let handled := (s.later dt).handleToStop s.inbox.toList
  if (s.tick dt).isRunning then handled.advance (frameTime dt) else handled

variable {s : Session}

theorem Continues.isRunning {s' : Session} (h : Continues s s') : s'.isRunning = s.isRunning := by
  rw [Session.isRunning, h.running, h.state, Session.isRunning]

theorem handle_of_ended (running : s.isRunning = true) {event : InputEvent}
    (ended : (s.handle event).isRunning = false) : s.handle event = s.stop := by
  have goesOn {s' : Session} (h : Continues s s') (ended : s'.isRunning = false) : s' = s.stop := by
    rw [h.isRunning, running] at ended
    contradiction
  cases event with
  | keyDown key =>
    simp only [handle, press] at ended ⊢
    split
    · rfl
    · rename_i other
      rw [if_neg other] at ended
      exact goesOn ((s.continues_modifyInput _).trans (continues_dispatch _ _ _)) ended
  | keyUp key => exact goesOn (s.continues_modifyInput (·.release (keyLabel key))) ended
  | click object => exact goesOn (s.continues_dispatch _ _) ended
  | pointer delta => exact goesOn (s.continues_modifyInput (·.turn delta)) ended
  | target point => exact goesOn ⟨rfl, rfl, rfl, rfl, rfl, rfl⟩ ended

theorem handleAll_eq (running : s.isRunning = true) (events : List InputEvent) :
    handleAll events s =
      if (handleAll events s).isRunning then s.handleToStop events
      else (s.handleToStop events).stop := by
  induction events generalizing s with
  | nil => simp [handleAll, handleToStop, running]
  | cons event rest ih =>
    simp only [handleAll, handleToStop]
    by_cases still : (s.handle event).isRunning = true
    · simpa only [still, if_true] using ih still
    · simpa [still] using handle_of_ended running (Bool.eq_false_iff.2 still)

/-- A frame of a run is that frame up to the stop, and the stop if there is one. -/
theorem tick_eq (running : s.isRunning = true) (dt : Float32) :
    s.tick dt =
      if (s.tick dt).isRunning then s.tickToStop dt else (s.tickToStop dt).stop := by
  have before : (s.later dt).isRunning = true := running
  have handled := handleAll_eq before s.inbox.toList
  have worked : s.tick dt =
      if (handleAll s.inbox.toList (s.later dt)).isRunning then
        (handleAll s.inbox.toList (s.later dt)).advance (frameTime dt)
      else handleAll s.inbox.toList (s.later dt) := by
    rw [tick, if_pos running]
    rfl
  unfold tickToStop
  cases still : (handleAll s.inbox.toList (s.later dt)).isRunning with
  | true =>
    rw [still, if_pos rfl] at worked handled
    have on : (s.tick dt).isRunning = true := by
      rw [worked, (continues_advance _ _).isRunning, still]
    simp only [on, if_true]
    rw [worked, handled]
  | false =>
    rw [still, if_neg Bool.false_ne_true] at worked handled
    have ended : (s.tick dt).isRunning = false := by rw [worked, still]
    simp only [ended, Bool.false_eq_true, if_false]
    rw [worked, handled]

theorem tick_eq_tickToStop (running : s.isRunning = true) {dt : Float32}
    (still : (s.tick dt).isRunning = true) : s.tick dt = s.tickToStop dt :=
  (tick_eq running dt).trans (if_pos still)

theorem isRunning_tick_of_idle (running : s.isRunning = true)
    (idle : s.inbox.toList = []) (dt : Float32) : (s.tick dt).isRunning = true := by
  have still : (s.later dt).isRunning = true := running
  have ticked : s.tick dt = (s.later dt).advance (frameTime dt) := by
    rw [tick, if_pos running]
    simp only [processInput, idle, handleAll]
    exact if_pos still
  rw [ticked, (continues_advance _ _).isRunning, still]

end Session

/-- What a run does by itself keeps the relation. -/
structure KeptInWork (R : World → World → Prop) : Prop extends Kept R where
  effects : ∀ (w : World) (dt : Float32), R w (w.stepEffects dt)
  /-- The player turns and moves, and events are taken from the queue or raised. -/
  aside : ∀ (w : World) (look : Vec2) (player : Player) (raised : Queue RaisedEvent)
    (countdown : Option Float),
    R w { w with input := { w.input with look }, player, raised, countdown }

structure KeptInPlay (R : World → World → Prop) : Prop extends KeptInWork R where
  input : ∀ (w : World) (input : InputState), R w { w with input }

structure KeptInFrames (R : World → World → Prop) : Prop extends KeptInPlay R where
  clock : ∀ (w : World) (now : Float), R w { w with now }

namespace KeptInWork

variable {R : World → World → Prop} (kept : KeptInWork R) (s : Session)

include kept

theorem advanceCountdown (w : World) (dt : Float) : R w (w.advanceCountdown dt) := by
  have counting (w : World) (countdown : Option Float) : R w { w with countdown } :=
    kept.aside w w.input.look w.player w.raised countdown
  have raising (w : World) (event : Event) : R w ({ w with countdown := none }.raise event) :=
    kept.aside w w.input.look w.player _ none
  unfold World.advanceCountdown
  split
  · exact kept.refl w
  · rename_i left _
    have counted := counting w (some (left - dt))
    have shown := kept.trans counted
      (kept.setVar _ "timer" (Scalar.ceil (Scalar.larger (left - dt) 0)))
    dsimp only
    split <;> split
    · exact kept.trans counted (raising _ _)
    · exact kept.trans shown (raising _ _)
    · exact counted
    · exact shown

/-! ### The parts of a frame -/

theorem dispatch (event : Event) (target : Option ObjectId) :
    R s.world (s.dispatch event target).2.world :=
  kept.toKept.dispatch s.dispatcher event target s.scheduler s.world

theorem flushUpTo (budget : Nat) : R s.world (s.flushUpTo budget).world := by
  induction budget generalizing s with
  | zero => exact kept.refl s.world
  | succ budget ih =>
    rw [Session.flushUpTo]
    split
    · exact kept.refl s.world
    · rename_i raised world popped
      have taken : R s.world world := by
        obtain ⟨p, -, h⟩ := Option.map_eq_some_iff.1 popped
        obtain ⟨-, rfl⟩ := Prod.mk.inj h
        exact kept.aside s.world s.world.input.look s.world.player _ s.world.countdown
      exact kept.trans taken (kept.trans (kept.dispatch { s with world } _ _) (ih _))

theorem movePlayer (steps : Nat) : R s.world (s.movePlayer steps).world :=
  kept.aside s.world _ _ s.world.raised s.world.countdown

theorem touchNearby : R s.world s.touchNearby.world := by
  have touched (ids : List ObjectId) (s : Session) :
      R s.world
        (ids.foldl (fun s id => (s.dispatch (.collide "player") (some id)).2) s).world := by
    induction ids generalizing s with
    | nil => exact kept.refl s.world
    | cons id ids ih => exact kept.trans (kept.dispatch s _ _) (ih _)
  exact touched _ s

theorem stepEffects (steps : Nat) : R s.world (s.stepEffects steps).world := by
  have stepped (dt : Float32) (w : World) : R w (Nat.repeat (·.stepEffects dt) steps w) := by
    induction steps with
    | zero => exact kept.refl w
    | succ steps ih => exact kept.trans ih (kept.effects _ dt)
  exact stepped _ _

theorem tickTasks : R s.world s.tickTasks.world :=
  kept.toKept.tick s.dispatcher.program s.scheduler s.world

theorem advance (dt : Float) : R s.world (s.advance dt).world := by
  have fired : R s.world s.fireTimers.world :=
    kept.toKept.fireTimers s.dispatcher s.scheduler s.world
  have moved (s : Session) (steps : Nat) :
      R s.world ((s.movePlayer steps).touchNearby.stepEffects steps).world :=
    kept.trans (kept.movePlayer s steps)
      (kept.trans (kept.touchNearby _) (kept.stepEffects _ steps))
  have clocked (s : Session) (clock : FixedClock) (steps : Nat) : R s.world
      (({ s with clock }.movePlayer steps).touchNearby.stepEffects steps).world :=
    moved { s with clock } steps
  have ended (s : Session) (camera : Camera) : R s.world
      ({ s with camera, world := s.world.advanceCountdown dt }.tickTasks.flush).world :=
    kept.trans (kept.advanceCountdown s.world dt)
      (kept.trans (kept.tickTasks { s with camera, world := s.world.advanceCountdown dt })
        (kept.flushUpTo _ _))
  exact kept.trans fired (kept.trans (clocked s.fireTimers _ _) (ended _ _))

theorem start (settings : Settings) :
    R (s.opened settings).world (s.start settings).world :=
  kept.trans (kept.dispatch _ _ _) (kept.trans (kept.dispatch _ _ _) (kept.flushUpTo _ _))

end KeptInWork

namespace KeptInPlay

variable {R : World → World → Prop} (kept : KeptInPlay R) (s : Session)

include kept

/-! ### Whole frames -/

theorem handle (event : InputEvent) (running : (s.handle event).isRunning = true) :
    R s.world (s.handle event).world := by
  have modified (f : InputState → InputState) : R s.world (s.modifyInput f).world :=
    kept.input s.world _
  cases event with
  | keyDown key =>
    simp only [Session.handle, Session.press] at running ⊢
    split at running
    · simp at running
    · rename_i other
      rw [if_neg other]
      exact kept.trans (modified _) (kept.toKeptInWork.dispatch _ _ _)
  | keyUp key => exact modified _
  | click object => exact kept.toKeptInWork.dispatch s _ _
  | pointer delta => exact modified _
  | target point =>
    exact kept.aside s.world s.world.input.look _ s.world.raised s.world.countdown

theorem handleToStop (events : List InputEvent) : R s.world (s.handleToStop events).world := by
  induction events generalizing s with
  | nil => exact kept.refl s.world
  | cons event rest ih =>
    rw [Session.handleToStop]
    split
    · rename_i still
      exact kept.trans (kept.handle s event still) (ih _)
    · exact kept.refl s.world

theorem tickToStop_later (dt : Float32) : R (s.later dt).world (s.tickToStop dt).world := by
  have handled := kept.handleToStop (s.later dt) s.inbox.toList
  unfold Session.tickToStop
  dsimp only
  split
  · exact kept.trans handled (kept.toKeptInWork.advance _ _)
  · exact handled

end KeptInPlay

theorem KeptInFrames.tickToStop {R : World → World → Prop} (kept : KeptInFrames R) (s : Session)
    (dt : Float32) : R s.world (s.tickToStop dt).world :=
  kept.trans (kept.clock s.world (s.world.now + Session.frameTime dt))
    (kept.toKeptInPlay.tickToStop_later s dt)

end BlockStage
