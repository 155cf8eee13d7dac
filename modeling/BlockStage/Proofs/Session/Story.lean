import BlockStage.Proofs.Log.Passing
import BlockStage.Proofs.Run.Quiet

/-! The story of a run: its log, with what is heard of the user and how the player is steered at
their places. At every point of it the keys that are held are those that were pressed and not
released since. -/

namespace BlockStage

/-! ### Keys that are held -/

/-- The key under a label was pressed, and not released since. -/
def IsDown (label : String) (heard : List InputEvent) : Prop :=
  ∃ before key after, heard = before ++ .keyDown key :: after ∧ keyLabel key = label ∧
    ∀ released, .keyUp released ∈ after → keyLabel released ≠ label

theorem isDown_concat {label : String} {heard : List InputEvent} {event : InputEvent} :
    IsDown label (heard ++ [event]) ↔ (∃ key, event = .keyDown key ∧ keyLabel key = label) ∨
      IsDown label heard ∧ ∀ released, event = .keyUp released → keyLabel released ≠ label := by
  constructor
  · rintro ⟨before, key, after, split, same, kept⟩
    rcases List.eq_nil_or_concat after with rfl | ⟨after, last, rfl⟩
    · obtain ⟨-, pressed⟩ := List.append_inj' split rfl
      exact .inl ⟨key, List.head_eq_of_cons_eq pressed, same⟩
    · rw [List.concat_eq_append, ← List.cons_append, ← List.append_assoc] at split
      obtain ⟨rfl, ended⟩ := List.append_inj' split rfl
      obtain rfl := List.head_eq_of_cons_eq ended
      simp only [List.concat_eq_append, List.mem_append, List.mem_singleton] at kept
      exact .inr ⟨⟨before, key, after, rfl, same, fun r hr => kept r (.inl hr)⟩,
        fun r hr => kept r (.inr hr.symm)⟩
  · rintro (⟨key, rfl, same⟩ | ⟨⟨before, key, after, rfl, same, kept⟩, last⟩)
    · exact ⟨heard, key, [], rfl, same, by simp⟩
    · refine ⟨before, key, after ++ [event], by simp, same, fun r hr => ?_⟩
      rcases List.mem_append.1 hr with old | new
      · exact kept r old
      · exact last r (List.mem_singleton.1 new).symm

namespace InputState

/-- The keys that are held are those that are down, each once. -/
structure Follows (s : InputState) (heard : List InputEvent) : Prop where
  distinct : s.held.Nodup
  mem_held : ∀ label, label ∈ s.held ↔ IsDown label heard

namespace Follows

variable {s s' : InputState} {heard : List InputEvent}

theorem isHeld_iff (h : s.Follows heard) (label : String) :
    s.isHeld label = true ↔ IsDown label heard := by
  rw [isHeld, List.contains_iff_mem, h.mem_held]

theorem of_same (h : s.Follows heard) (same : s'.held = s.held) : s'.Follows heard :=
  ⟨same ▸ h.distinct, same ▸ h.mem_held⟩

theorem fresh : ({} : InputState).Follows [] where
  distinct := List.nodup_nil
  mem_held label := by simp [IsDown]

theorem press (h : s.Follows heard) (key : String) :
    (s.press (keyLabel key)).Follows (heard ++ [.keyDown key]) := by
  have down (label : String) : IsDown label (heard ++ [.keyDown key]) ↔
      keyLabel key = label ∨ label ∈ s.held := by
    simp [isDown_concat, h.mem_held]
  unfold InputState.press
  split
  · rename_i held
    rw [isHeld, List.contains_iff_mem] at held
    exact ⟨h.distinct, fun label => by rw [down]; grind⟩
  · rename_i released
    rw [isHeld, List.contains_iff_mem] at released
    exact ⟨List.nodup_cons.2 ⟨released, h.distinct⟩, fun label => by
      rw [down, List.mem_cons, eq_comm]⟩

theorem release (h : s.Follows heard) (key : String) :
    (s.release (keyLabel key)).Follows (heard ++ [.keyUp key]) where
  distinct := h.distinct.erase _
  mem_held label := by
    have down : IsDown label (heard ++ [.keyUp key]) ↔ label ∈ s.held ∧ keyLabel key ≠ label := by
      simp [isDown_concat, h.mem_held]
    rw [down, InputState.release, h.distinct.mem_erase_iff]
    grind

theorem other (h : s.Follows heard) {event : InputEvent} (unpressed : ∀ key, event ≠ .keyDown key)
    (unreleased : ∀ key, event ≠ .keyUp key) : s.Follows (heard ++ [event]) where
  distinct := h.distinct
  mem_held label := by simp [isDown_concat, h.mem_held, unpressed, unreleased]

end Follows

end InputState

/-! ### Work leaves the keys alone -/

def World.SameKeys (w w' : World) : Prop := w'.input.held = w.input.held

theorem keptBetween_keys : KeptBetween World.SameKeys where
  refl _ := rfl
  trans first second := second.trans first
  execute i owner program w := congrArg InputState.held (i.input_now_execute owner program w).1
  effects _ _ := rfl
  aside _ _ _ _ _ := rfl
  scene _ _ := rfl

/-! ### Stories -/

inductive Beat
  /-- What the user did is handled. -/
  | hears (event : InputEvent)
  /-- The player's keys are looked at. -/
  | steers (intent : MoveIntent)
  | sees (x : Happening)

abbrev Story := List Beat

namespace MoveIntent

def ofDown (down : String → Bool) (keys : KeyBindings) : MoveIntent where
  forward := match down keys.forward, down keys.backward with
    | true, false => 1
    | false, true => -1
    | _, _ => 0
  right := match down keys.right, down keys.left with
    | true, false => 1
    | false, true => -1
    | _, _ => 0
  jump := down keys.jump

theorem ofKeys_map (s : InputState) (f : String → String) (keys : KeyBindings) :
    ofKeys s (keys.map f) = ofDown (fun key => s.isHeld (f key)) keys := rfl

/-- Each binding counts as held just if a key under its label is down. -/
def Obeys (intent : MoveIntent) (keys : KeyBindings) (heard : List InputEvent) : Prop :=
  ∃ down : String → Bool, (∀ key, down key = true ↔ IsDown (keyLabel key) heard) ∧
    intent = ofDown down keys

theorem obeys_ofKeys {s : InputState} {heard : List InputEvent} (h : s.Follows heard)
    (keys : KeyBindings) : (ofKeys s (keys.map keyLabel)).Obeys keys heard :=
  ⟨fun key => s.isHeld (keyLabel key), fun key => h.isHeld_iff (keyLabel key),
    ofKeys_map s keyLabel keys⟩

end MoveIntent

namespace Beat

def heard : Beat → List InputEvent
  | hears event => [event]
  | _ => []

def seen? : Beat → Option Happening
  | sees x => some x
  | _ => none

/-- The keys are as they should be after what was heard before. -/
def Fits (keys : KeyBindings) (heard : List InputEvent) : Beat → Prop
  | hears _ => True
  | steers intent => intent.Obeys keys heard
  | sees x => x.world.input.Follows heard

end Beat

namespace Story

def heard (story : Story) : List InputEvent := story.flatMap Beat.heard

/-- Every beat fits to what was heard up to it. -/
def Fits (keys : KeyBindings) : (heard : List InputEvent) → Story → Prop
  | _, [] => True
  | heard, beat :: rest => beat.Fits keys heard ∧ Fits keys (heard ++ beat.heard) rest

variable {keys : KeyBindings} {before : List InputEvent} {story story' : Story}

theorem heard_append : heard (story ++ story') = heard story ++ heard story' := List.flatMap_append

theorem Fits.append (first : story.Fits keys before)
    (second : story'.Fits keys (before ++ heard story)) : Fits keys before (story ++ story') := by
  induction story generalizing before with
  | nil =>
    rw [heard, List.flatMap_nil, List.append_nil] at second
    exact second
  | cons beat rest ih =>
    rw [heard, List.flatMap_cons, ← List.append_assoc] at second
    exact ⟨first.1, ih first.2 second⟩

theorem hears_of_mem_heard {event : InputEvent} (h : event ∈ heard story) :
    .hears event ∈ story := by
  obtain ⟨beat, hb, he⟩ := List.mem_flatMap.1 h
  cases beat with
  | hears other => rwa [List.mem_singleton.1 he]
  | steers intent => contradiction
  | sees x => contradiction

theorem Fits.split {earlier later : Story} {beat : Beat}
    (h : Fits keys before (earlier ++ beat :: later)) :
    beat.Fits keys (before ++ heard earlier) := by
  induction earlier generalizing before with
  | nil =>
    rw [heard, List.flatMap_nil, List.append_nil]
    exact h.1
  | cons b rest ih =>
    rw [heard, List.flatMap_cons, ← List.append_assoc]
    exact ih h.2

theorem Fits.at_beat {earlier later : Story} {beat : Beat}
    (h : story.Fits keys []) (parts : story = earlier ++ beat :: later) :
    beat.Fits keys (heard earlier) := by
  rw [parts] at h
  exact List.nil_append (heard earlier) ▸ h.split

theorem fits_sees {log : Log} (h : ∀ x ∈ log, x.world.input.Follows before) :
    Fits keys before (log.map .sees) := by
  induction log with
  | nil => trivial
  | cons x rest ih =>
    rw [List.forall_mem_cons] at h
    refine ⟨h.1, ?_⟩
    rw [show before ++ (Beat.sees x).heard = before from List.append_nil before]
    exact ih h.2

@[simp] theorem heard_sees (log : Log) : heard (log.map .sees) = [] := by
  simp [heard, List.flatMap_map, Beat.heard]

@[simp] theorem seen_sees (log : Log) : (log.map .sees).filterMap Beat.seen? = log := by
  simp [List.filterMap_map, Function.comp_def, Beat.seen?]

end Story

namespace Session

/-! ### Stories of frames -/

def intent (s : Session) : MoveIntent := .ofKeys s.world.input s.settings.keys

def handleStory (s : Session) (event : InputEvent) : Story :=
  .hears event :: (s.handleLog event).map .sees

/-- The key that stops the run is not heard any more. -/
def handleToStopStory (s : Session) : List InputEvent → Story
  | [] => []
  | event :: rest =>
    if (s.handle event).isRunning then
      s.handleStory event ++ (s.handle event).handleToStopStory rest
    else []

/-- The player is steered as soon as the timers are fired. -/
def advanceStory (s : Session) (dt : Float) : Story :=
  let fired := s.dispatcher.fireLog s.scheduler s.world
  fired.map .sees ++ .steers s.fireTimers.intent :: ((s.advanceLog dt).drop fired.length).map .sees

def tickStory (s : Session) (dt : Float32) : Story :=
  (s.later dt).handleToStopStory s.inbox.toList ++
    if (s.tick dt).isRunning then
      ((s.later dt).handleToStop s.inbox.toList).advanceStory (frameTime dt)
    else []

def actStory (s : Session) : Action → Story
  | .tick dt => s.tickStory dt
  | a => (s.actLog a).map .sees

def playStory (s : Session) : List Action → Story
  | [] => []
  | a :: rest => s.actStory a ++ if (s.act a).isRunning then (s.act a).playStory rest else []

theorem seen_handleToStopStory (s : Session) (events : List InputEvent) :
    (s.handleToStopStory events).filterMap Beat.seen? = s.handleToStopLog events := by
  induction events generalizing s with
  | nil => rfl
  | cons event rest ih =>
    rw [handleToStopStory, handleToStopLog]
    split
    · rw [List.filterMap_append, ih, handleStory, List.filterMap_cons_none rfl, Story.seen_sees]
    · rfl

theorem advanceLog_prefix (s : Session) (dt : Float) :
    s.dispatcher.fireLog s.scheduler s.world <+: s.advanceLog dt := by
  simp only [advanceLog, List.append_assoc]
  exact List.prefix_append _ _

theorem seen_advanceStory (s : Session) (dt : Float) :
    (s.advanceStory dt).filterMap Beat.seen? = s.advanceLog dt := by
  obtain ⟨rest, split⟩ := s.advanceLog_prefix dt
  rw [advanceStory, List.filterMap_append, List.filterMap_cons_none rfl, Story.seen_sees,
    Story.seen_sees, ← split, List.drop_left]

theorem seen_actStory (s : Session) (a : Action) :
    (s.actStory a).filterMap Beat.seen? = s.actLog a := by
  cases a with
  | tick dt =>
    rw [actStory, tickStory, actLog, tickLog, List.filterMap_append, seen_handleToStopStory]
    split
    · rw [seen_advanceStory]
    · rfl
  | _ => exact Story.seen_sees _

theorem seen_playStory (s : Session) (actions : List Action) :
    (s.playStory actions).filterMap Beat.seen? = s.playLog actions := by
  induction actions generalizing s with
  | nil => rfl
  | cons a rest ih =>
    rw [playStory, playLog, List.filterMap_append, seen_actStory]
    split
    · rw [ih]
    · rfl

/-! ### The settings of a run -/

theorem settings_flushUpTo (budget : Nat) (s : Session) :
    (s.flushUpTo budget).settings = s.settings := by
  induction budget generalizing s with
  | zero => rfl
  | succ budget ih =>
    rw [flushUpTo]
    split
    · rfl
    · exact ih _

theorem settings_handle (s : Session) (event : InputEvent) :
    (s.handle event).settings = s.settings := by
  cases event with
  | keyDown key =>
    simp only [handle, press]
    split <;> rfl
  | _ => rfl

theorem settings_handleToStop (s : Session) (events : List InputEvent) :
    (s.handleToStop events).settings = s.settings := by
  induction events generalizing s with
  | nil => rfl
  | cons event rest ih =>
    rw [handleToStop]
    split
    · exact (ih _).trans (s.settings_handle event)
    · rfl

theorem settings_touchNearby (s : Session) : s.touchNearby.settings = s.settings := by
  have touched (ids : List ObjectId) (s : Session) :
      (ids.foldl (fun s id => (s.dispatch (.collide "player") (some id)).2) s).settings =
        s.settings := by
    induction ids generalizing s with
    | nil => rfl
    | cons id rest ih => exact ih _
  exact touched _ s

theorem settings_advance (s : Session) (dt : Float) : (s.advance dt).settings = s.settings :=
  (settings_flushUpTo _ _).trans (settings_touchNearby _)

theorem settings_tickToStop (s : Session) (dt : Float32) :
    (s.tickToStop dt).settings = s.settings := by
  unfold tickToStop
  dsimp only
  split
  · exact (settings_advance _ _).trans (settings_handleToStop _ _)
  · exact settings_handleToStop _ _

theorem Does.settings {s s' : Session} {a : Action} {log : Log} (did : s.Does a log s') :
    s'.settings = s.settings := by
  cases did with
  | frame dt => exact s.settings_tickToStop dt
  | _ => rfl

theorem settings_afterAll {s : Session} {actions : List Action} (lasts : s.OneRun actions) :
    (s.afterAll actions).settings = s.settings :=
  forall_afterAll (R := fun s s' => s'.settings = s.settings) (fun _ => rfl)
    (fun first second => second.trans first) Does.settings lasts

theorem keys_start (s : Session) (settings : Settings) :
    (s.start settings).settings.keys = settings.keys.map keyLabel :=
  congrArg Settings.keys (settings_flushUpTo _ _)

/-! ### Every story fits -/

/-- A story that fits to what was heard before, and the keys at its end. -/
structure Tells (keys : KeyBindings) (before : List InputEvent) (story : Story) (w : World) :
    Prop where
  fits : story.Fits keys before
  follows : w.input.Follows (before ++ story.heard)

variable {s : Session} {keys : KeyBindings} {before : List InputEvent} {story story' : Story}
  {w w' : World}

theorem Tells.nothing (h : w.input.Follows before) : Tells keys before [] w :=
  ⟨trivial, (List.append_nil before).symm ▸ h⟩

theorem Tells.append (first : Tells keys before story w)
    (second : Tells keys (before ++ story.heard) story' w') :
    Tells keys before (story ++ story') w' where
  fits := first.fits.append second.fits
  follows := by
    rw [Story.heard_append, ← List.append_assoc]
    exact second.follows

theorem Tells.of_passes {log : Log} (h : w.input.Follows before)
    (p : Passes World.SameKeys w log w') : Tells keys before (log.map .sees) w' where
  fits := Story.fits_sees fun x hx => h.of_same (p.along x hx)
  follows := by
    rw [Story.heard_sees, List.append_nil]
    exact h.of_same p.worked

theorem Tells.hears {log : Log} {event : InputEvent} (h : w.input.Follows (before ++ [event]))
    (p : Passes World.SameKeys w log w') :
    Tells keys before (.hears event :: log.map .sees) w' where
  fits := ⟨trivial, (Tells.of_passes h p).fits⟩
  follows := by
    have told : Tells keys (before ++ [event]) (log.map .sees) w' := .of_passes h p
    have ended := told.follows
    rwa [List.append_assoc] at ended

theorem tells_handle (h : s.world.input.Follows before) {event : InputEvent}
    (running : (s.handle event).isRunning = true) :
    Tells keys before (s.handleStory event) (s.handle event).world := by
  have kept := keptBetween_keys
  cases event with
  | keyDown key =>
    simp only [handle, handleStory, handleLog, press] at running ⊢
    split at running
    · simp at running
    · rename_i other
      rw [if_neg other, if_neg other]
      exact .hears (h.press key) (kept.passes_dispatch (s.modifyInput (·.press (keyLabel key))) _ _)
  | keyUp key => exact .hears (h.release key) (kept.passes_refl _)
  | click object => exact .hears (h.other (by simp) (by simp)) (kept.passes_dispatch s _ _)
  | pointer delta =>
    exact .hears (w := (s.handle (.pointer delta)).world)
      ((h.other (by simp) (by simp)).of_same rfl) (kept.passes_refl _)
  | target point =>
    exact .hears (h.other (by simp) (by simp)) ⟨rfl, (kept.passes_refl s.world).along⟩

theorem tells_handleToStop (h : s.world.input.Follows before) (events : List InputEvent) :
    Tells keys before (s.handleToStopStory events) (s.handleToStop events).world := by
  induction events generalizing s before with
  | nil => exact .nothing h
  | cons event rest ih =>
    rw [handleToStopStory, handleToStop]
    split
    · have handled : Tells keys before (s.handleStory event) (s.handle event).world :=
        tells_handle h ‹_›
      exact handled.append (ih handled.follows)
    · exact .nothing h

theorem tells_advance (h : s.world.input.Follows before)
    (bound : s.settings.keys = keys.map keyLabel) (dt : Float) :
    Tells keys before (s.advanceStory dt) (s.advance dt).world := by
  have fired := keptBetween_keys.passes_fireTimers s
  have advanced := keptBetween_keys.passes_advance s dt
  have steered := MoveIntent.obeys_ofKeys (h.of_same fired.worked) keys
  have launched : Tells keys before ((s.dispatcher.fireLog s.scheduler s.world).map .sees)
      s.fireTimers.world := .of_passes h fired
  rw [← bound] at steered
  have heard : (s.advanceStory dt).heard = [] := by
    rw [advanceStory, Story.heard_append, Story.heard_sees, List.nil_append]
    exact Story.heard_sees _
  refine ⟨launched.fits.append ?_, ?_⟩
  · rw [Story.heard_sees, List.append_nil]
    refine ⟨steered, ?_⟩
    rw [show before ++ (Beat.steers s.fireTimers.intent).heard = before from List.append_nil before]
    exact Story.fits_sees fun x hx => h.of_same (advanced.along x (List.mem_of_mem_drop hx))
  · rw [heard, List.append_nil]
    exact h.of_same advanced.worked

theorem tells_tick (h : s.world.input.Follows before)
    (bound : s.settings.keys = keys.map keyLabel) (dt : Float32) :
    Tells keys before (s.tickStory dt) (s.tickToStop dt).world := by
  have later : (s.later dt).world.input.Follows before := h.of_same rfl
  have handled : Tells keys before ((s.later dt).handleToStopStory s.inbox.toList)
      ((s.later dt).handleToStop s.inbox.toList).world := tells_handleToStop later _
  refine handled.append ?_
  unfold tickToStop
  dsimp only
  split
  · refine tells_advance handled.follows ?_ _
    rw [settings_handleToStop]
    exact bound
  · exact .nothing handled.follows

theorem tells_after (h : s.world.input.Follows before)
    (bound : s.settings.keys = keys.map keyLabel) {a : Action} (running : s.isRunning = true)
    (other : ∀ settings, a ≠ .start settings) :
    Tells keys before (s.actStory a) (s.after a).world := by
  by_cases frame : ∃ dt, a = .tick dt
  · obtain ⟨dt, rfl⟩ := frame
    rw [after_tick running]
    exact tells_tick h bound dt
  · have told : s.actStory a = (s.actLog a).map .sees := by
      cases a with
      | tick dt => exact absurd ⟨dt, rfl⟩ frame
      | _ => rfl
    rw [told]
    by_cases drains : a = .drainNotices
    · subst drains
      rw [after_of_running (show (s.act .drainNotices).isRunning = true from running)]
      exact .nothing (h.of_same rfl)
    · exact .of_passes h (keptBetween_keys.passes_between (does_after running other)
        (fun dt h => frame ⟨dt, h⟩) drains)

theorem tells_afterAll (h : s.world.input.Follows before)
    (bound : s.settings.keys = keys.map keyLabel) {actions : List Action}
    (lasts : s.OneRun actions) :
    Tells keys before (s.playStory actions) (s.afterAll actions).world := by
  induction actions generalizing s before with
  | nil => exact .nothing h
  | cons a rest ih =>
    obtain ⟨running, other, lasts⟩ := lasts
    have first := tells_after h bound running other
    have same := (does_after running other).settings
    rw [playStory, afterAll]
    split
    · rename_i still
      rw [after_of_running still] at first same
      exact first.append (ih first.follows (same ▸ bound) lasts)
    · rw [List.append_nil]
      exact first

def startStory (s : Session) (settings : Settings) : Story := (s.startLog settings).map .sees

theorem tells_start (s : Session) (settings : Settings) :
    Tells settings.keys [] (s.startStory settings) (s.start settings).world := by
  have opened : (s.opened settings).world.input.Follows [] := by
    have fresh : (s.opened settings).world.input = {} := by
      simp only [Session.opened, World.showAllVars_eq]
      rfl
    rw [fresh]
    exact .fresh
  exact .of_passes opened (keptBetween_keys.passes_start s settings)

def runStory (s : Session) (settings : Settings) (actions : List Action) : Story :=
  s.startStory settings ++ (s.start settings).playStory actions

theorem seen_runStory (s : Session) (settings : Settings) (actions : List Action) :
    (s.runStory settings actions).filterMap Beat.seen? =
      s.startLog settings ++ (s.start settings).playLog actions := by
  rw [runStory, List.filterMap_append, startStory, Story.seen_sees, seen_playStory]

theorem tells_run {settings : Settings} {actions : List Action}
    (one_run : (s.start settings).OneRun actions) :
    Tells settings.keys [] (s.runStory settings actions)
      ((s.start settings).afterAll actions).world := by
  have started := tells_start s settings
  exact started.append (tells_afterAll started.follows (s.keys_start settings) one_run)

end Session

end BlockStage
