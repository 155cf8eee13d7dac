import BlockStage.Proofs.Page.Drawing

/-! The viewport of a page and the shape that its camera projects with. Both are told the sizes of
the viewport and each of them guards itself: one refuses a side that is zero or below, the other one
that is not above zero. What is not a number gets past the first alone. -/

namespace BlockStage

namespace Camera

theorem aspect_place (c : Camera) (p : Player) (keep : Float32) :
    (c.place p keep).aspect = c.aspect := by
  unfold place
  cases p.scheme <;> rfl

end Camera

namespace Session

variable (s : Session)

/-! ### The camera in a run -/

theorem camera_flushUpTo (budget : Nat) : (s.flushUpTo budget).camera = s.camera := by
  induction budget generalizing s with
  | zero => rfl
  | succ budget ih =>
    rw [flushUpTo]
    split
    · rfl
    · exact ih _

theorem camera_handle (event : InputEvent) : (s.handle event).camera = s.camera := by
  cases event with
  | keyDown key =>
    rw [handle, press]
    split <;> rfl
  | keyUp key | click object | pointer delta | target point => rfl

theorem camera_handleAll (events : List InputEvent) : (handleAll events s).camera = s.camera := by
  induction events generalizing s with
  | nil => rfl
  | cons event rest ih =>
    rw [handleAll]
    split
    · exact (ih _).trans (s.camera_handle event)
    · exact s.camera_handle event

theorem camera_touchNearby : s.touchNearby.camera = s.camera := by
  have touched (ids : List ObjectId) (s : Session) :
      (ids.foldl (fun s id => (s.dispatch (.collide "player") (some id)).2) s).camera =
        s.camera := by
    induction ids generalizing s with
    | nil => rfl
    | cons id rest ih => exact ih _
  exact touched _ s

theorem aspect_advance (dt : Float) : (s.advance dt).camera.aspect = s.camera.aspect := by
  simp only [advance, flush, camera_flushUpTo, tickTasks, Camera.follow, Camera.aspect_place]
  exact congrArg Camera.aspect (camera_touchNearby _)

theorem aspect_tick (dt : Float32) : (s.tick dt).camera.aspect = s.camera.aspect := by
  have handled (s : Session) : s.processInput.camera = s.camera := camera_handleAll _ _
  unfold tick
  dsimp only
  split
  · split
    · rw [aspect_advance, handled]
    · rw [handled]
  · rfl

theorem aspect_start (settings : Settings) :
    (s.start settings).camera.aspect = s.camera.aspect := by
  have ready : s.ready.camera = s.camera := by
    unfold ready
    split <;> rfl
  rw [start_eq, flush, camera_flushUpTo]
  change (s.ready.camera.snap _).aspect = _
  rw [Camera.snap, Camera.aspect_place, ready]

end Session

/-! ### Sides of a viewport -/

theorem Scalar.zero_lt_single_iff (x : Float32) : 0 < x ↔ ¬ x ≤ 0 ∧ x.isNaN = false := by
  have above : 0 < x ↔ (Float.Model.UnpackedFloat.zero .positive).lt x.toModel.unpack = true :=
    decide_eq_true_iff
  have below : x ≤ 0 ↔ x.toModel.unpack.le (Float.Model.UnpackedFloat.zero .positive) = true :=
    decide_eq_true_iff
  rw [above, below]
  change _ ↔ _ ∧ x.toModel.unpack.isNaN = false
  generalize x.toModel.unpack = u
  cases u with
  | notANumber => decide
  | infinity sign | zero sign => cases sign <;> decide
  | finite sign digits exponent pos =>
    cases sign with
    | positive => exact iff_of_true rfl ⟨Bool.false_ne_true, rfl⟩
    | negative => exact iff_of_false Bool.false_ne_true fun h => h.1 rfl

namespace Page

/-- Both sides of the viewport are above zero, and the camera projects with their shape. -/
structure Agrees (p : Page) : Prop where
  width : 0 < p.viewport.x
  height : 0 < p.viewport.y
  aspect : p.session.camera.aspect = p.viewport.x / p.viewport.y

def Call.size? : Call → Option Vec2
  | .resize width height => if width ≤ 0 || height ≤ 0 then none else some ⟨width, height⟩
  | _ => none

/-- The viewport was not refused, and the camera has its shape unless a side is not a number. -/
structure Shaped (p : Page) : Prop where
  width : ¬ p.viewport.x ≤ 0
  height : ¬ p.viewport.y ≤ 0
  aspect : p.viewport.x.isNaN = false → p.viewport.y.isNaN = false →
    p.session.camera.aspect = p.viewport.x / p.viewport.y

variable {p : Page}

theorem Shaped.agrees_iff (h : p.Shaped) :
    p.Agrees ↔ p.viewport.x.isNaN = false ∧ p.viewport.y.isNaN = false := by
  constructor
  · intro agrees
    exact ⟨((Scalar.zero_lt_single_iff _).1 agrees.width).2,
      ((Scalar.zero_lt_single_iff _).1 agrees.height).2⟩
  · rintro ⟨x, y⟩
    exact ⟨(Scalar.zero_lt_single_iff _).2 ⟨h.width, x⟩,
      (Scalar.zero_lt_single_iff _).2 ⟨h.height, y⟩, h.aspect x y⟩

theorem Shaped.of_kept {p' : Page} (h : p.Shaped) (viewport : p'.viewport = p.viewport)
    (aspect : p'.session.camera.aspect = p.session.camera.aspect) : p'.Shaped := by
  obtain ⟨x, y, same⟩ := h
  rw [← viewport] at x y
  rw [← viewport, ← aspect] at same
  exact ⟨x, y, same⟩

theorem shaped_new : ({} : Page).Shaped :=
  ⟨by decide +kernel, by decide +kernel, fun _ _ => by decide +kernel⟩

theorem call_of_size?_eq_none {c : Call} (none : c.size? = none) :
    (p.call c).viewport = p.viewport ∧
      (p.call c).session.camera.aspect = p.session.camera.aspect := by
  cases c with
  | load text =>
    rw [call, load]
    cases read : p.session.load text with
    | error e => exact ⟨rfl, rfl⟩
    | ok session =>
      refine ⟨rfl, ?_⟩
      rw [Session.load] at read
      cases parsed : Project.parse text with
      | error e =>
        rw [parsed] at read
        contradiction
      | ok project =>
        rw [parsed] at read
        obtain rfl := Except.ok.inj read
        rfl
  | start settings => exact ⟨rfl, p.session.aspect_start _⟩
  | stop => exact ⟨rfl, rfl⟩
  | tick dt => exact ⟨rfl, p.session.aspect_tick dt⟩
  | resize width height =>
    rw [call, resize]
    split
    · exact ⟨rfl, rfl⟩
    · rename_i taken
      rw [Call.size?, if_neg taken] at none
      contradiction
  | receive event => exact ⟨rfl, rfl⟩

theorem call_of_size?_eq_some {c : Call} {size : Vec2} (some : c.size? = some size) :
    (p.call c).viewport = size ∧ (p.call c).Shaped := by
  cases c with
  | resize width height =>
    rw [Call.size?] at some
    split at some
    · contradiction
    · rename_i taken
      obtain rfl := Option.some.inj some
      rw [call, resize, if_neg taken]
      simp only [Bool.or_eq_true, decide_eq_true_eq, not_or] at taken
      refine ⟨rfl, taken.1, taken.2, fun x y => ?_⟩
      have sides : (decide (0 < width) && decide (0 < height)) = true := by
        simp only [Bool.and_eq_true, decide_eq_true_eq]
        exact ⟨(Scalar.zero_lt_single_iff _).2 ⟨taken.1, x⟩,
          (Scalar.zero_lt_single_iff _).2 ⟨taken.2, y⟩⟩
      simp only [Camera.resize, sides, if_true]
  | load text | start settings | stop | tick dt | receive event => contradiction

/-- After any calls the viewport is the last size that was not refused, and the camera agrees with
it just if both its sides are numbers. -/
theorem agrees_callAll_iff (calls : List Call) :
    let now := ({} : Page).callAll calls
    let size := (calls.filterMap Call.size?).getLast?.getD ({} : Page).viewport
    now.viewport = size ∧ (now.Agrees ↔ size.x.isNaN = false ∧ size.y.isNaN = false) := by
  intro now size
  suffices h : now.viewport = size ∧ now.Shaped from
    ⟨h.1, h.1 ▸ h.2.agrees_iff⟩
  induction calls using List.reverseRecOn with
  | nil => exact ⟨rfl, shaped_new⟩
  | append_singleton calls c ih =>
    have step : now = (({} : Page).callAll calls).call c := callAll_concat _ calls c
    rw [step]
    cases taken : c.size? with
    | none =>
      obtain ⟨viewport, aspect⟩ := call_of_size?_eq_none (p := ({} : Page).callAll calls) taken
      refine ⟨viewport.trans (ih.1.trans ?_), ih.2.of_kept viewport aspect⟩
      simp only [size, List.filterMap_append, List.filterMap_cons, taken, List.filterMap_nil,
        List.append_nil]
    | some taken_on =>
      obtain ⟨viewport, shaped⟩ := call_of_size?_eq_some (p := ({} : Page).callAll calls) taken
      refine ⟨viewport.trans ?_, shaped⟩
      simp only [size, List.filterMap_append, List.filterMap_cons, taken, List.filterMap_nil,
        List.getLast?_append, List.getLast?_singleton, Option.some_or, Option.getD_some]

/-- A width that is no number becomes the viewport's; the camera keeps its shape. -/
theorem unnumbered_width_disagrees :
    let page := ({} : Page).callAll [.resize (0 / 0) 600]
    page.viewport.x.isNaN = true ∧ page.session.camera.aspect = 16 / 9 ∧ ¬ page.Agrees := by
  intro page
  have unnumbered : page.viewport.x.isNaN = true := by decide +kernel
  refine ⟨unnumbered, by decide +kernel, fun agrees => ?_⟩
  rw [((Scalar.zero_lt_single_iff _).1 agrees.width).2] at unnumbered
  contradiction

end Page
end BlockStage
