import BlockStage.Proofs.Run.Drive

/-! Where spawned frames come from: from the forever blocks in the code of the stack, in what its
instructions contain and in the definitions they call. -/

namespace BlockStage

def Frame.code : Frame → List Instruction
  | sequence rest => rest
  | repeatTimes body _ => body
  | forever body _ => body
  | whileHolds _ body _ => body
  | forEach _ _ _ body => body

inductive Comes (program : Program) (owner : ObjectId) : List Instruction → Instruction → Prop
  | here {code : List Instruction} {i : Instruction} (h : i ∈ code) : Comes program owner code i
  | inside {code : List Instruction} {i j : Instruction} {frame : Frame} (h : i ∈ code)
      (entered : frame ∈ i.framesFor owner program) (later : Comes program owner frame.code j) :
      Comes program owner code j

/-- Running `code` may ask for a task that runs `body` for ever. -/
def Spawns (program : Program) (owner : ObjectId) (code body : List Instruction) : Prop :=
  ∃ i, Comes program owner code i ∧ i.command = .forever ∧ i.children = body

variable {program : Program} {owner : ObjectId}

theorem Comes.of_tail {i j : Instruction} {rest : List Instruction}
    (h : Comes program owner rest j) : Comes program owner (i :: rest) j := by
  cases h with
  | here h => exact .here (List.mem_cons_of_mem i h)
  | inside h entered later => exact .inside (List.mem_cons_of_mem i h) entered later

namespace Frame

variable {top self : Frame} {w w' : World}

theorem code_of_advance_push {body : List Instruction}
    (h : top.advance owner w = (.push body self, w')) : body = top.code ∧ self.code = top.code := by
  fun_cases advance top owner w
  all_goals simp only [advance, *, Prod.mk.injEq, Advance.push.injEq, reduceCtorEq, false_and] at h
  all_goals
    obtain ⟨⟨rfl, rfl⟩, -⟩ := h
    exact ⟨rfl, rfl⟩

theorem code_of_advance_rest {wake : Wake} (h : top.advance owner w = (.rest wake self, w')) :
    self.code = top.code := by
  fun_cases advance top owner w
  all_goals simp only [advance, *, Prod.mk.injEq, Advance.rest.injEq, reduceCtorEq, false_and] at h
  all_goals
    obtain ⟨⟨-, rfl⟩, -⟩ := h
    rfl

end Frame

namespace Task

variable {frames frames' spawned : List Frame} {frame : Frame} {w w' : World}

/-- Only a forever block that is not empty asks for a task, and it does nothing else. -/
theorem step_spawn (h : step program owner frames w = (.spawn frames' frame, w')) :
    ∃ i rest below, frames = .sequence (i :: rest) :: below ∧
      frames' = .sequence rest :: below ∧ i.command = .forever ∧ i.children ≠ [] ∧
      frame = .forever i.children false ∧ w' = w := by
  cases steps_of_step h with
  | spawn _ execute =>
    cases Instruction.asks_of_execute execute with
    | spawn forever nonempty => exact ⟨_, _, _, rfl, rfl, forever, nonempty, rfl, rfl⟩

def Move.left : Move → List Frame
  | go frames => frames
  | spawn frames _ => frames
  | suspend frames _ => frames
  | finish => []

theorem comes_of_step {move : Move} (h : step program owner frames w = (move, w')) :
    ∀ f ∈ move.left, ∃ g ∈ frames,
      ∀ j, Comes program owner f.code j → Comes program owner g.code j := by
  have kept {top : Frame} {below : List Frame} : ∀ f ∈ below, ∃ g ∈ top :: below,
      ∀ j, Comes program owner f.code j → Comes program owner g.code j :=
    fun f hf => ⟨f, List.mem_cons_of_mem _ hf, fun _ hj => hj⟩
  have kept_tail {i : Instruction} {rest : List Instruction} {below : List Frame} :
      ∀ f ∈ Frame.sequence rest :: below, ∃ g ∈ Frame.sequence (i :: rest) :: below,
        ∀ j, Comes program owner f.code j → Comes program owner g.code j := by
    rintro f (_ | ⟨_, hf⟩)
    · exact ⟨_, List.mem_cons_self, fun _ hj => Comes.of_tail hj⟩
    · exact kept f hf
  cases steps_of_step h with
  | empty => simp [Move.left]
  | givenUp => simp [Move.left]
  | pop _ advance => exact kept
  | push _ advance =>
    obtain ⟨rfl, same⟩ := Frame.code_of_advance_push advance
    rintro f (_ | ⟨_, _ | ⟨_, hf⟩⟩)
    · exact ⟨_, List.mem_cons_self, fun _ hj => hj⟩
    · exact ⟨_, List.mem_cons_self, fun _ hj => same ▸ hj⟩
    · exact kept f hf
  | rest _ advance =>
    have same := Frame.code_of_advance_rest advance
    rintro f (_ | ⟨_, hf⟩)
    · exact ⟨_, List.mem_cons_self, fun _ hj => same ▸ hj⟩
    · exact kept f hf
  | next _ execute => exact kept_tail
  | enter _ execute =>
    rintro f (_ | ⟨_, hf⟩)
    · exact ⟨_, List.mem_cons_self, fun j hj =>
        .inside List.mem_cons_self (Instruction.mem_framesFor execute) hj⟩
    · exact kept_tail f hf
  | spawn _ execute => exact kept_tail
  | suspend _ execute => exact kept_tail
  | stop => simp [Move.left]

/-- Every spawned frame is a loop over a forever block that the stack can come to. -/
theorem spawns_of_passes (h : Passes program owner frames w spawned frames' w') :
    ∀ f ∈ spawned, ∃ g ∈ frames, ∃ body, body ≠ [] ∧ f = .forever body false ∧
      Spawns program owner g.code body := by
  induction h with
  | refl => simp
  | go move _ ih =>
    intro f hf
    obtain ⟨g, hg, body, nonempty, rfl, i, hi, forever, children⟩ := ih f hf
    obtain ⟨g', hg', comes⟩ := comes_of_step move g hg
    exact ⟨g', hg', body, nonempty, rfl, i, comes i hi, forever, children⟩
  | spawn move _ ih =>
    obtain ⟨i, rest, below, rfl, rfl, forever, nonempty, rfl, rfl⟩ := step_spawn move
    rintro f (_ | ⟨_, hf⟩)
    · exact ⟨_, List.mem_cons_self, i.children, nonempty, rfl, i,
        .here List.mem_cons_self, forever, rfl⟩
    · obtain ⟨g, hg, body, nonempty, rfl, j, hj, spawns⟩ := ih f hf
      rcases List.mem_cons.1 hg with rfl | hg
      · exact ⟨_, List.mem_cons_self, body, nonempty, rfl, j, Comes.of_tail hj, spawns⟩
      · exact ⟨g, List.mem_cons_of_mem _ hg, body, nonempty, rfl, j, hj, spawns⟩

theorem spawns_of_drive (program : Program) (owner : ObjectId) (frames : List Frame) (w : World) :
    ∃ spawned, (∀ f ∈ spawned, ∃ g ∈ frames, ∃ body, body ≠ [] ∧ f = .forever body false ∧
        Spawns program owner g.code body) ∧
      ∀ q, (drive program owner frames q w).spawned = q.pushAll spawned := by
  obtain ⟨spawned, last, w₁, path, h⟩ := drive_eq program owner frames w
  refine ⟨spawned, spawns_of_passes path, fun q => ?_⟩
  rcases h with ⟨_, _, _, _, eq⟩ | ⟨_, _, eq⟩ <;> rw [eq]

end Task

theorem Scheduler.spawned_of_visit (program : Program) {t : Task} {w : World} {f : Frame}
    (h : f ∈ (Scheduler.visit program t w).2.1.toList) :
    t.owner ∈ w.scene.ids ∧ ∃ g ∈ t.frames, ∃ body, body ≠ [] ∧ f = .forever body false ∧
      Spawns program t.owner g.code body := by
  unfold Scheduler.visit at h
  split at h
  · rename_i there
    refine ⟨(w.scene.contains_iff t.owner).1 there, ?_⟩
    split at h
    · simp [Queue.toList] at h
    · rename_i w' _
      obtain ⟨spawned, origin, drive⟩ := Task.spawns_of_drive program t.owner t.frames w'
      simp only [drive, Queue.toList_pushAll] at h
      exact origin f (by simpa [Queue.toList] using h)
  · simp [Queue.toList] at h

end BlockStage
