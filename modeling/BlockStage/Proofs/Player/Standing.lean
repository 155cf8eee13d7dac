import BlockStage.Player.Motion
import BlockStage.Proofs.Scalar.Sums

/-! What one step leaves of the player. The boxes in the way are met one after the other, and each
may move the player again; what holds between any two of them is that a player who stands does not
move up or down and stands on one of the boxes already met. The ground and the death plane come
last. -/

namespace BlockStage

/-! ### The higher of a speed and zero -/

theorem Scalar.zero_le_larger_zero (v : Float32) : 0 ≤ Scalar.larger v 0 := by
  unfold Scalar.larger
  split
  · exact of_decide_eq_true (by decide)
  next negative =>
  split
  next number =>
    have self : (v.toModel.unpack.compare v.toModel.unpack == some Ordering.eq) = true := number
    have known : v.toModel.unpack.isNaN = false := by
      generalize v.toModel.unpack = u at self
      cases u <;> first | rfl | contradiction
    obtain ⟨o, compared⟩ :=
      Scalar.compare_isSome (u := (0 : Float32).toModel.unpack) (v := v.toModel.unpack) rfl known
    have below : ¬ v.toModel.unpack.lt (0 : Float32).toModel.unpack = true :=
      fun lt => negative (decide_eq_true lt)
    rw [Float.Model.UnpackedFloat.lt, Scalar.compare_swap, compared] at below
    refine decide_eq_true
      (?_ : (0 : Float32).toModel.unpack.le v.toModel.unpack = true)
    rw [Float.Model.UnpackedFloat.le, compared]
    cases o with
    | lt => rfl
    | eq => rfl
    | gt => exact absurd rfl below
  · exact of_decide_eq_true (by decide)

namespace Player

/-! ### What a step does not touch -/

/-- The same player elsewhere: as `p` is, but for where it is, how it moves and whether it stands.
A point to walk to may have been given up. -/
structure Elsewhere (p q : Player) : Prop where
  yaw : q.yaw = p.yaw
  pitch : q.pitch = p.pitch
  speed : q.speed = p.speed
  jumpForce : q.jumpForce = p.jumpForce
  gravity : q.gravity = p.gravity
  sensitivity : q.sensitivity = p.sensitivity
  scheme : q.scheme = p.scheme
  spawnPoint : q.spawnPoint = p.spawnPoint
  moveTarget : q.moveTarget = p.moveTarget ∨ q.moveTarget = none

namespace Elsewhere

theorem refl (p : Player) : Elsewhere p p := ⟨rfl, rfl, rfl, rfl, rfl, rfl, rfl, rfl, .inl rfl⟩

theorem trans {p q r : Player} (first : Elsewhere p q) (second : Elsewhere q r) :
    Elsewhere p r where
  yaw := second.yaw.trans first.yaw
  pitch := second.pitch.trans first.pitch
  speed := second.speed.trans first.speed
  jumpForce := second.jumpForce.trans first.jumpForce
  gravity := second.gravity.trans first.gravity
  sensitivity := second.sensitivity.trans first.sensitivity
  scheme := second.scheme.trans first.scheme
  spawnPoint := second.spawnPoint.trans first.spawnPoint
  moveTarget := second.moveTarget.elim (fun same => same ▸ first.moveTarget) .inr

end Elsewhere

variable {p : Player}

theorem elsewhere_moved (p : Player) (position velocity : Vec3) (grounded : Bool) :
    Elsewhere p { p with position := position, velocity := velocity, grounded := grounded } :=
  ⟨rfl, rfl, rfl, rfl, rfl, rfl, rfl, rfl, .inl rfl⟩

theorem elsewhere_stopped (p : Player) : Elsewhere p { p with moveTarget := none } :=
  ⟨rfl, rfl, rfl, rfl, rfl, rfl, rfl, rfl, .inr rfl⟩

theorem elsewhere_walk (p : Player) (intent : MoveIntent) (dt : Float32) :
    Elsewhere p (p.walk intent dt).2 := by
  unfold walk
  dsimp only
  split
  · exact .refl p
  · exact .refl p
  · exact .refl p
  split
  · exact .refl p
  split
  · exact elsewhere_stopped p
  · exact .refl p

theorem elsewhere_jump (p : Player) (intent : MoveIntent) : Elsewhere p (p.jump intent) := by
  unfold jump
  split
  · exact elsewhere_moved p _ _ _
  · exact .refl p

theorem elsewhere_advance (p : Player) (way : Vec3) (dt : Float32) :
    Elsewhere p (p.advance way dt) :=
  elsewhere_moved p _ _ _

theorem elsewhere_pushOut (p : Player) (body bounds : Box) :
    Elsewhere p (p.pushOut body bounds) := by
  unfold pushOut
  dsimp only
  repeat' split
  all_goals exact elsewhere_moved p _ _ _

theorem elsewhere_meet (p : Player) (bounds : Box) : Elsewhere p (p.meet bounds) := by
  unfold meet
  dsimp only
  repeat' split
  · exact .refl p
  · exact elsewhere_moved p _ _ _
  · exact elsewhere_moved p _ _ _
  · exact elsewhere_pushOut p _ _
  · exact .refl p

theorem elsewhere_foldl_meet (boxes : List Box) (p : Player) :
    Elsewhere p (boxes.foldl meet p) := by
  induction boxes generalizing p with
  | nil => exact .refl p
  | cons bounds boxes ih => exact (elsewhere_meet p bounds).trans (ih _)

theorem elsewhere_resolve (p : Player) (scene : Scene) : Elsewhere p (p.resolve scene) :=
  (elsewhere_moved p p.position p.velocity false).trans (elsewhere_foldl_meet _ _)

theorem elsewhere_stayAboveGround (p : Player) (config : Config) :
    Elsewhere p (p.stayAboveGround config) := by
  unfold stayAboveGround
  split
  · exact elsewhere_moved p _ _ _
  · exact .refl p

theorem elsewhere_respawn (p : Player) : Elsewhere p p.respawn :=
  (elsewhere_stopped p).trans (elsewhere_moved _ _ _ _)

/-! ### Standing -/

/-- A player who stands is at rest upright, right on top of one of these boxes. -/
def StandsOn (boxes : List Box) (p : Player) : Prop :=
  p.grounded = true →
    p.velocity.y = 0 ∧ ∃ bounds ∈ boxes, p.position.y = bounds.max.y + halfExtents.y

theorem StandsOn.mono {boxes more : List Box} (h : p.StandsOn boxes) (sub : boxes ⊆ more) :
    p.StandsOn more := fun grounded =>
  have ⟨still, bounds, mem, top⟩ := h grounded
  ⟨still, bounds, sub mem, top⟩

theorem pushOut_upright (p : Player) (body bounds : Box) :
    (p.pushOut body bounds).position.y = p.position.y ∧
      (p.pushOut body bounds).velocity = p.velocity ∧
      (p.pushOut body bounds).grounded = p.grounded := by
  unfold pushOut
  dsimp only
  repeat' split
  all_goals exact ⟨rfl, rfl, rfl⟩

/-- Whoever stands has not the speed to hit its head: it lands on the box, or the box at most
pushes it sideways. -/
theorem StandsOn.meet {boxes : List Box} (h : p.StandsOn boxes) (bounds : Box) :
    (p.meet bounds).StandsOn (boxes ++ [bounds]) := by
  have before : p.StandsOn (boxes ++ [bounds]) := h.mono (List.subset_append_left _ _)
  unfold Player.meet
  dsimp only
  split
  · exact before
  split
  · exact fun _ => ⟨rfl, bounds, by simp, rfl⟩
  split
  next rising =>
    simp only [Bool.and_eq_true, decide_eq_true_eq] at rising
    intro grounded
    have fast : 0 < p.velocity.y := rising.1.1
    rw [(h grounded).1] at fast
    exact absurd fast (of_decide_eq_false (by decide))
  split
  · obtain ⟨height, velocity, grounded⟩ := pushOut_upright p p.box bounds
    unfold StandsOn at before ⊢
    rwa [height, velocity, grounded]
  · exact before

theorem StandsOn.foldl_meet {boxes : List Box} (h : p.StandsOn boxes) (later : List Box) :
    (later.foldl Player.meet p).StandsOn (boxes ++ later) := by
  induction later generalizing p boxes with
  | nil => rwa [List.append_nil]
  | cons bounds later ih =>
    rw [List.append_cons]
    exact ih (h.meet bounds)

theorem standsOn_resolve (p : Player) (scene : Scene) :
    (p.resolve scene).StandsOn (obstacles scene) :=
  have falls : StandsOn [] { p with grounded := false } :=
    fun grounded => absurd grounded Bool.false_ne_true
  falls.foldl_meet _

theorem mem_obstacles {scene : Scene} {bounds : Box} :
    bounds ∈ obstacles scene ↔
      ∃ o ∈ scene.objects, o.collidable = true ∧ o.visible = true ∧ o.box = bounds := by
  simp only [obstacles, List.mem_map, List.mem_filter, Bool.and_eq_true, and_assoc]

/-- The heights at which a player can stand: on the ground plane, and on top of an object that is
solid and seen. -/
def Footing (scene : Scene) (config : Config) (height : Float32) : Prop :=
  (config.groundPlane = true ∧ height = halfExtents.y) ∨
    ∃ o ∈ scene.objects, o.collidable = true ∧ o.visible = true ∧
      height = o.box.max.y + halfExtents.y

/-- A player who stands has its feet on something and does not fall. -/
def Stands (p : Player) (scene : Scene) (config : Config) : Prop :=
  p.grounded = true → 0 ≤ p.velocity.y ∧ Footing scene config p.position.y

theorem stands_stayAboveGround {scene : Scene} (h : p.StandsOn (obstacles scene))
    (config : Config) : (p.stayAboveGround config).Stands scene config := by
  unfold stayAboveGround
  split
  next below =>
    simp only [Bool.and_eq_true, decide_eq_true_eq] at below
    exact fun _ => ⟨Scalar.zero_le_larger_zero _, .inl ⟨below.1, rfl⟩⟩
  · intro grounded
    obtain ⟨still, bounds, mem, height⟩ := h grounded
    obtain ⟨o, there, collidable, visible, rfl⟩ := mem_obstacles.mp mem
    rw [still]
    exact ⟨of_decide_eq_true (by decide), .inr ⟨o, there, collidable, visible, height⟩⟩

theorem not_below_stayAboveGround (p : Player) {config : Config}
    (ground : config.groundPlane = true) :
    ¬ (p.stayAboveGround config).position.y < halfExtents.y := by
  unfold stayAboveGround
  rw [ground, Bool.true_and]
  split
  · exact (of_decide_eq_false (by decide) : ¬ halfExtents.y < halfExtents.y)
  next above => simpa using above

/-! ### One step -/

variable (p) (intent : MoveIntent) (scene : Scene) (config : Config) (dt : Float32)

def moved : Player :=
  let (way, p) := p.walk intent dt
  (((p.jump intent).advance way dt).resolve scene).stayAboveGround config

theorem step_eq_startOver :
    p.step intent scene config dt = (p.moved intent scene config dt).startOver config := rfl

theorem elsewhere_moved_step : Elsewhere p (p.moved intent scene config dt) :=
  ((((elsewhere_walk p intent dt).trans (elsewhere_jump _ intent)).trans
    (elsewhere_advance _ _ dt)).trans (elsewhere_resolve _ scene)).trans
    (elsewhere_stayAboveGround _ config)

theorem stands_moved : (p.moved intent scene config dt).Stands scene config :=
  stands_stayAboveGround (standsOn_resolve _ scene) config

/-- After a step the player is back at its start, at rest, in the air and with nowhere to go if the
step took it below the death plane; otherwise it is neither below that plane nor sunk into the
ground. If it stands, it does not fall and its feet are exactly on the ground or on an object that
is solid and seen. The step changes no setting of it and sets it no new point to walk to. -/
theorem step_stands_or_starts_over (p : Player) (intent : MoveIntent) (scene : Scene)
    (config : Config) (dt : Float32) :
    let q := p.step intent scene config dt
    (if (p.moved intent scene config dt).position.y < config.deathHeight then
      q.position = p.spawnPoint ∧ q.velocity = .zero ∧ q.grounded = false ∧ q.moveTarget = none
    else
      ¬ q.position.y < config.deathHeight ∧
        (config.groundPlane = true → ¬ q.position.y < halfExtents.y)) ∧
    q.Stands scene config ∧ p.Elsewhere q := by
  have same := elsewhere_moved_step p intent scene config dt
  rw [step_eq_startOver, startOver]
  split
  · exact ⟨⟨same.spawnPoint, rfl, rfl, rfl⟩, fun grounded => absurd grounded Bool.false_ne_true,
      same.trans (elsewhere_respawn _)⟩
  next above =>
    exact ⟨⟨above, not_below_stayAboveGround _⟩, stands_moved p intent scene config dt, same⟩

end Player
end BlockStage
