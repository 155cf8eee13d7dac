import BlockStage.Proofs.Session.Reach

/-! What becomes of edited scripts: an edit between two runs reaches every later run and every
later save, and an edit during a run is undone with the run. -/

namespace BlockStage

def Scene.scripts? (s : Scene) (id : ObjectId) : Option (List Stack) := (s.find? id).map (·.scripts)

namespace Scene

variable {s s' : Scene} {id other : ObjectId} {canvas : List Stack}

theorem setScripts_eq_ok (h : s.setScripts id canvas = .ok s') :
    id ∈ s.ids ∧ s' = s.modify id fun o => { o with scripts := canvas } := by
  unfold setScripts at h
  split at h
  · rename_i there
    exact ⟨(s.contains_iff id).1 there, (Except.ok.inj h).symm⟩
  · contradiction

theorem scripts?_of_setScripts (h : s.setScripts id canvas = .ok s') :
    s'.scripts? id = some canvas := by
  obtain ⟨present, rfl⟩ := setScripts_eq_ok h
  have found : s.find? id ≠ none := fun missing => (s.find?_eq_none_iff id).1 missing present
  obtain ⟨o, ho⟩ := Option.ne_none_iff_exists'.1 found
  rw [scripts?, find?_modify_self s id (by exact fun _ same => same), ho]
  rfl

theorem scripts?_of_setScripts_other (ne : other ≠ id) (h : s.setScripts other canvas = .ok s') :
    s'.scripts? id = s.scripts? id := by
  obtain ⟨-, rfl⟩ := setScripts_eq_ok h
  rw [scripts?, find?_modify_of_ne s ne fun _ _ => by rfl, scripts?]

end Scene

namespace Program

def scriptsOf (p : Program) (id : ObjectId) : List Script :=
  (p.entries.filter (·.owner = id)).map (·.script)

theorem scriptsOf_ofScene_cons (palette : Palette) (o : SceneObject) (rest : List SceneObject)
    (id : ObjectId) (scene : Scene) :
    (ofScene palette { scene with objects := o :: rest }).scriptsOf id =
      (if o.id = id then Stack.compileAll palette o.scripts else []) ++
        (ofScene palette { scene with objects := rest }).scriptsOf id := by
  by_cases h : o.id = id <;> simp [scriptsOf, ofScene, h, Function.comp_def, List.filter_map]

theorem scriptsOf_ofScene (palette : Palette) (scene : Scene) (unique : scene.ids.Nodup)
    (id : ObjectId) :
    (ofScene palette scene).scriptsOf id =
      ((scene.scripts? id).map (Stack.compileAll palette)).getD [] := by
  obtain ⟨objects, nextId, spawnPoint⟩ := scene
  induction objects with
  | nil => rfl
  | cons o rest ih =>
    obtain ⟨own, unique⟩ := List.nodup_cons.1 unique
    rw [scriptsOf_ofScene_cons palette o rest id ⟨rest, nextId, spawnPoint⟩, ih unique]
    by_cases h : o.id = id
    · subst h
      have missing : Scene.scripts? ⟨rest, nextId, spawnPoint⟩ o.id = none := by
        rw [Scene.scripts?, (Scene.find?_eq_none_iff _ _).2 own, Option.map_none]
      rw [missing]
      simp [Scene.scripts?, Scene.find?]
    · simp [Scene.scripts?, Scene.find?, h]

end Program

namespace Session

/-- The action does not concern the scripts of that object. -/
def Action.Spares (id : ObjectId) : Action → Prop
  | load _ => False
  | edit _ => False
  | setScripts other _ => other ≠ id
  | removeObject other => other ≠ id
  | _ => True

theorem savedScene_withWorld (s : Session) (world : World) :
    { s with world }.savedScene = s.snapshot.getD world.scene := rfl

theorem setScripts_eq_ok {s s' : Session} {id : ObjectId} {canvas : List Stack}
    (h : s.setScripts id canvas = .ok s') :
    ∃ scene, s.world.scene.setScripts id canvas = .ok scene ∧
      s' = { s with world := { s.world with scene } } := by
  unfold setScripts at h
  cases hs : s.world.scene.setScripts id canvas with
  | error e =>
    rw [hs] at h
    contradiction
  | ok scene =>
    rw [hs] at h
    exact ⟨scene, rfl, (Except.ok.inj h).symm⟩

theorem scripts_withWorld {s : Session} {world : World} {id : ObjectId}
    (same : world.scene.scripts? id = s.world.scene.scripts? id) :
    { s with world }.savedScene.scripts? id = s.savedScene.scripts? id := by
  rw [savedScene_withWorld, savedScene]
  cases s.snapshot with
  | none => exact same
  | some kept => rfl

theorem scripts_act {s : Session} (h : Settled s) {a : Action} {id : ObjectId}
    (spares : a.Spares id) : (s.act a).savedScene.scripts? id = s.savedScene.scripts? id := by
  cases a with
  | load text => exact spares.elim
  | edit change => exact spares.elim
  | setScripts other canvas =>
    rw [act]
    cases hs : s.setScripts other canvas with
    | error e => rfl
    | ok s' =>
      obtain ⟨scene, edited, rfl⟩ := setScripts_eq_ok hs
      exact scripts_withWorld (Scene.scripts?_of_setScripts_other spares edited)
  | removeObject other =>
    refine scripts_withWorld ?_
    change (s.world.removeObject other).scene.scripts? id = _
    unfold World.removeObject
    split
    · exact congrArg (Option.map _) (s.world.scene.find?_despawn_of_ne spares)
    · rfl
  | start settings => rw [act, savedScene, (h.start settings).2.1, Option.getD_some]
  | stop => rfl
  | receive event => rfl
  | tick dt => rw [act, (h.tick dt).2]
  | dispatch event target => rw [act, (h.dispatch event target).2]
  | drainNotices => rfl
  | resize width height => rfl

theorem scripts_actAll {s : Session} (h : Settled s) {actions : List Action} {id : ObjectId}
    (spare : ∀ a ∈ actions, a.Spares id) :
    (s.actAll actions).savedScene.scripts? id = s.savedScene.scripts? id := by
  induction actions generalizing s with
  | nil => rfl
  | cons a rest ih =>
    rw [List.forall_mem_cons] at spare
    exact (ih (settled_act h a) spare.2).trans (scripts_act h spare.1)

/-- After an edit, what is saved of the object: during a run the old scripts, else the new ones. -/
theorem scripts_of_setScripts {s s' : Session} {id : ObjectId} {canvas : List Stack}
    (h : Settled s) (edit : s.setScripts id canvas = .ok s') :
    s'.savedScene.scripts? id =
      if s.isRunning then s.savedScene.scripts? id else some canvas := by
  obtain ⟨scene, edited, rfl⟩ := setScripts_eq_ok edit
  rw [h.isRunning, savedScene_withWorld, savedScene]
  cases s.snapshot with
  | none => exact Scene.scripts?_of_setScripts edited
  | some kept => rfl

/-- An edit reaches the next start and every save from now on just if it was not made during a run
or changed nothing; during a run it is undone. What is compiled and saved is the saved scene. -/
theorem edit_takes_effect_iff (config : Config) (before after : List Action) (id : ObjectId)
    (canvas : List Stack) (s' : Session)
    (edit : ((ofConfig config).actAll before).setScripts id canvas = .ok s')
    (spare : ∀ a ∈ after, a.Spares id) :
    let s := (ofConfig config).actAll before
    let t := s'.actAll after
    (t.savedScene.scripts? id = some canvas ↔
      s.isRunning = false ∨ s.savedScene.scripts? id = some canvas) ∧
    (s.isRunning = true → t.savedScene.scripts? id = s.savedScene.scripts? id) ∧
    t.save = (Project.ofScene t.savedScene).render ∧
    ∀ settings,
      (t.start settings).dispatcher.program = .ofScene .standard t.savedScene ∧
      (t.savedScene.ids.Nodup → (t.start settings).dispatcher.program.scriptsOf id =
        ((t.savedScene.scripts? id).map (Stack.compileAll .standard)).getD []) ∧
      (t.start settings).save = t.save := by
  intro s t
  have settled : Settled s := settled_actAll (settled_ofConfig config) before
  have settled' : Settled s' := by
    obtain ⟨scene, -, rfl⟩ := setScripts_eq_ok edit
    exact settled.withScene _ rfl
  have settled_t : Settled t := settled_actAll settled' after
  have kept : t.savedScene.scripts? id =
      if s.isRunning then s.savedScene.scripts? id else some canvas :=
    (scripts_actAll settled' spare).trans (scripts_of_setScripts settled edit)
  refine ⟨?_, fun running => ?_, rfl, fun settings => ?_⟩
  · rw [kept]
    cases s.isRunning <;> simp
  · rw [kept, if_pos running]
  · obtain ⟨-, snapshot, program⟩ := settled_t.start settings
    refine ⟨program, fun unique => ?_, ?_⟩
    · rw [program, Program.scriptsOf_ofScene .standard _ unique]
    · rw [save, savedScene, snapshot, Option.getD_some, save]

section Examples

def clickStack : Stack :=
  ⟨1, 0, 0, [⟨1, "onClick", [], [], []⟩, ⟨2, "vanish", [], [], []⟩]⟩

def place : Action := .edit (·.spawn { id := ⟨1⟩ })

def placed : Session := (ofConfig {}).actAll [place]

def placedRunning : Session := (ofConfig {}).actAll [place, .start {}]

def withClick (s : Session) : Session :=
  { s with world := { s.world with
    scene := s.world.scene.modify ⟨1⟩ fun o => { o with scripts := [clickStack] } } }

/-- An edit before a run outlives the run. -/
theorem edit_before_run_kept :
    placed.setScripts ⟨1⟩ [clickStack] = .ok placed.withClick ∧
    (∀ a ∈ [Action.start {}, .receive (.keyDown "Escape"), .tick 0], a.Spares ⟨1⟩) ∧
    (placed.withClick.actAll [.start {}, .receive (.keyDown "Escape"), .tick 0]).savedScene.scripts?
      ⟨1⟩ = some [clickStack] :=
  have spare : ∀ a ∈ [Action.start {}, .receive (.keyDown "Escape"), .tick 0], a.Spares ⟨1⟩ := by
    simp [Action.Spares]
  ⟨rfl, spare, (edit_takes_effect_iff {} [place] _ ⟨1⟩ [clickStack] _ rfl spare).1.2
    (.inl (by decide))⟩

/-- An edit during a run succeeds, and is gone after the stop: neither is it saved nor does the
next start compile it. -/
theorem edit_in_run_undone :
    placedRunning.setScripts ⟨1⟩ [clickStack] = .ok placedRunning.withClick ∧
    ⟨1⟩ ∈ placedRunning.savedScene.ids ∧
    placedRunning.withClick.stop.savedScene.scripts? ⟨1⟩ = some [] ∧
    (placedRunning.withClick.stop.start {}).dispatcher.program.scriptsOf ⟨1⟩ = [] ∧
    (Stack.compileAll .standard [clickStack]).length = 1 := by
  refine ⟨rfl, by decide, rfl, rfl, by decide⟩

end Examples

end Session
end BlockStage
