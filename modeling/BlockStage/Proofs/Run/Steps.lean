import BlockStage.Proofs.Run.Evolution
import BlockStage.Run.Work

/-! What a step of a stack can do, once and for all; every other fact about steps is read off from
`Steps`, one case for each of its rules. -/

namespace BlockStage

namespace Frame

variable {owner : ObjectId} {top self : Frame} {w w' : World}

theorem advance_run {i : Instruction} (h : top.advance owner w = (.run i self, w')) :
    ∃ rest, top = .sequence (i :: rest) ∧ self = .sequence rest ∧ w' = w := by
  fun_cases advance top owner w <;> simp_all [advance]

theorem wake_of_advance_rest {wake : Wake} (h : top.advance owner w = (.rest wake self, w')) :
    wake = loopWake w := by
  fun_cases advance top owner w
  all_goals simp only [advance, *, Prod.mk.injEq, Advance.rest.injEq, reduceCtorEq, false_and] at h
  all_goals exact h.1.1.symm

end Frame

namespace Instruction

/-- What an instruction can ask its task for, and which commands ask for it. -/
inductive Asks (i : Instruction) (owner : ObjectId) (program : Program) (w : World) :
    Flow → World → Prop
  | next (w' : World) : Asks i owner program w .next w'
  | enter {frame : Frame} (entered : frame ∈ i.framesFor owner program) (w' : World) :
      Asks i owner program w (.enter frame) w'
  | spawn (command : i.command = .forever) (nonempty : i.children ≠ []) :
      Asks i owner program w (.spawn (.forever i.children false)) w
  | wait {seconds : Float} (command : i.command = .wait seconds) :
      Asks i owner program w (.suspend (.time (w.now + seconds))) w
  | poll {condition : Condition} (command : i.command = .waitUntil condition) (nextCheck : Float)
      (w' : World) : Asks i owner program w (.suspend (.poll condition nextCheck)) w'
  | glide {target : Vec3} {seconds : Float} {relative : Bool}
      (command : i.command = .glide target seconds relative) (record : RecordId) (w' : World) :
      Asks i owner program w (.suspend (.effect record)) w'
  | stop (w' : World) : Asks i owner program w .stop w'

theorem asks_of_execute {i : Instruction} {owner : ObjectId} {program : Program} {w w' : World}
    {flow : Flow} (h : i.execute owner program w = (flow, w')) : i.Asks owner program w flow w' := by
  have entered {frame : Frame} (eq : flow = .enter frame) : i.Asks owner program w flow w' := by
    subst eq
    exact .enter (mem_framesFor h) w'
  obtain ⟨opcode, arguments, kind, command, children, elseChildren⟩ := i
  cases command with
  | glide target seconds relative =>
    simp only [execute, World.glide] at h
    split at h
    · obtain ⟨rfl, rfl⟩ := Prod.mk.inj h
      exact .next _
    · split at h
      · obtain ⟨rfl, rfl⟩ := Prod.mk.inj h
        exact .next _
      · obtain ⟨rfl, rfl⟩ := Prod.mk.inj h
        exact .glide rfl _ _
  | wait seconds =>
    obtain ⟨rfl, rfl⟩ := Prod.mk.inj h
    exact .wait rfl
  | waitUntil condition =>
    simp only [execute] at h
    split at h
    · obtain ⟨rfl, rfl⟩ := Prod.mk.inj h
      exact .next _
    · obtain ⟨rfl, rfl⟩ := Prod.mk.inj h
      exact .poll rfl _ _
  | forever =>
    simp only [execute] at h
    split at h
    · obtain ⟨rfl, rfl⟩ := Prod.mk.inj h
      exact .next _
    · rename_i nonempty
      obtain ⟨rfl, rfl⟩ := Prod.mk.inj h
      exact .spawn rfl (by simpa using nonempty)
  | repeatTimes count =>
    simp only [execute] at h
    split at h
    · obtain ⟨rfl, rfl⟩ := Prod.mk.inj h
      exact .next _
    · exact entered (Prod.mk.inj h).1.symm
  | ifThen condition =>
    simp only [execute, enterBody] at h
    split at h
    · split at h
      · obtain ⟨rfl, rfl⟩ := Prod.mk.inj h
        exact .next _
      · exact entered (Prod.mk.inj h).1.symm
    · obtain ⟨rfl, rfl⟩ := Prod.mk.inj h
      exact .next _
  | ifElse condition =>
    simp only [execute, enterBody] at h
    split at h
    all_goals
      split at h
      · obtain ⟨rfl, rfl⟩ := Prod.mk.inj h
        exact .next _
      · exact entered (Prod.mk.inj h).1.symm
  | call name =>
    simp only [execute] at h
    split at h
    · exact entered (Prod.mk.inj h).1.symm
    · obtain ⟨rfl, rfl⟩ := Prod.mk.inj h
      exact .next _
  | whileHolds | forEach => exact entered (Prod.mk.inj h).1.symm
  | stop | destroy =>
    obtain ⟨rfl, rfl⟩ := Prod.mk.inj h
    exact .stop _
  | _ =>
    obtain ⟨rfl, rfl⟩ := Prod.mk.inj h
    exact .next _

end Instruction

namespace Task

inductive Steps (program : Program) (owner : ObjectId) :
    List Frame → World → Move → World → Prop
  | empty (w : World) : Steps program owner [] w .finish w
  | givenUp {top : Frame} {below : List Frame} {w : World}
      (h : ¬ (w.running = true ∧ below.length < mostFrames)) :
      Steps program owner (top :: below) w .finish w
  | pop {top : Frame} {below : List Frame} {w w' : World}
      (ready : w.running = true ∧ below.length < mostFrames)
      (advance : top.advance owner w = (.pop, w')) :
      Steps program owner (top :: below) w (.go below) w'
  | push {top self : Frame} {body : List Instruction} {below : List Frame} {w w' : World}
      (ready : w.running = true ∧ below.length < mostFrames)
      (advance : top.advance owner w = (.push body self, w')) :
      Steps program owner (top :: below) w (.go (.sequence body :: self :: below)) w'
  | rest {top self : Frame} {wake : Wake} {below : List Frame} {w w' : World}
      (ready : w.running = true ∧ below.length < mostFrames)
      (advance : top.advance owner w = (.rest wake self, w')) :
      Steps program owner (top :: below) w (.suspend (self :: below) wake) w'
  | next {i : Instruction} {rest : List Instruction} {below : List Frame} {w w' : World}
      (ready : w.running = true ∧ below.length < mostFrames)
      (execute : i.execute owner program w = (.next, w')) :
      Steps program owner (.sequence (i :: rest) :: below) w (.go (.sequence rest :: below)) w'
  | enter {i : Instruction} {rest : List Instruction} {frame : Frame} {below : List Frame}
      {w w' : World} (ready : w.running = true ∧ below.length < mostFrames)
      (execute : i.execute owner program w = (.enter frame, w')) :
      Steps program owner (.sequence (i :: rest) :: below) w
        (.go (frame :: .sequence rest :: below)) w'
  | spawn {i : Instruction} {rest : List Instruction} {frame : Frame} {below : List Frame}
      {w w' : World} (ready : w.running = true ∧ below.length < mostFrames)
      (execute : i.execute owner program w = (.spawn frame, w')) :
      Steps program owner (.sequence (i :: rest) :: below) w
        (.spawn (.sequence rest :: below) frame) w'
  | suspend {i : Instruction} {rest : List Instruction} {wake : Wake} {below : List Frame}
      {w w' : World} (ready : w.running = true ∧ below.length < mostFrames)
      (execute : i.execute owner program w = (.suspend wake, w')) :
      Steps program owner (.sequence (i :: rest) :: below) w
        (.suspend (.sequence rest :: below) wake) w'
  | stop {i : Instruction} {rest : List Instruction} {below : List Frame} {w w' : World}
      (ready : w.running = true ∧ below.length < mostFrames)
      (execute : i.execute owner program w = (.stop, w')) :
      Steps program owner (.sequence (i :: rest) :: below) w .finish w'

theorem steps_of_step {program : Program} {owner : ObjectId} {frames : List Frame}
    {w w' : World} {move : Move} (h : step program owner frames w = (move, w')) :
    Steps program owner frames w move w' := by
  cases frames with
  | nil =>
    obtain ⟨rfl, rfl⟩ := Prod.mk.inj h
    exact .empty w
  | cons top below =>
    simp only [step, Bool.and_eq_true, decide_eq_true_eq] at h
    split at h
    · rename_i ready
      rcases ha : top.advance owner w with ⟨ask, w₁⟩
      cases ask with
      | pop =>
        simp only [stepTop, ha] at h
        obtain ⟨rfl, rfl⟩ := Prod.mk.inj h
        exact .pop ready ha
      | push body self =>
        simp only [stepTop, ha] at h
        obtain ⟨rfl, rfl⟩ := Prod.mk.inj h
        exact .push ready ha
      | rest wake self =>
        simp only [stepTop, ha] at h
        obtain ⟨rfl, rfl⟩ := Prod.mk.inj h
        exact .rest ready ha
      | run i self =>
        obtain ⟨rest, rfl, rfl, rfl⟩ := Frame.advance_run ha
        rcases he : i.execute owner program w₁ with ⟨flow, w₂⟩
        simp only [stepTop, ha, he] at h
        obtain ⟨rfl, rfl⟩ := Prod.mk.inj h
        cases flow with
        | next => exact .next ready he
        | enter frame => exact .enter ready he
        | spawn frame => exact .spawn ready he
        | suspend wake => exact .suspend ready he
        | stop => exact .stop ready he
    · rename_i unready
      obtain ⟨rfl, rfl⟩ := Prod.mk.inj h
      exact .givenUp unready

theorem grows_of_step {program : Program} {owner : ObjectId} {frames : List Frame} {w w' : World}
    {move : Move} (h : step program owner frames w = (move, w')) (unfinished : move ≠ .finish) :
    Grows w w' := by
  have grows_run {i : Instruction} {flow : Flow} (hf : flow ≠ .stop)
      (he : i.execute owner program w = (flow, w')) : Grows w w' := by
    have grown := i.grows_execute owner program w fun destroy => hf <| by
      rw [Instruction.execute_destroy i owner program w destroy] at he
      exact (Prod.mk.inj he).1.symm
    rw [he] at grown
    exact grown
  have grows_top {top : Frame} {ask : Frame.Advance}
      (ha : top.advance owner w = (ask, w')) : Grows w w' := by
    have grown := top.grows_advance owner w
    rw [ha] at grown
    exact grown
  cases steps_of_step h with
  | empty => exact absurd rfl unfinished
  | givenUp => exact absurd rfl unfinished
  | pop _ advance => exact grows_top advance
  | push _ advance => exact grows_top advance
  | rest _ advance => exact grows_top advance
  | next _ execute => exact grows_run (by simp) execute
  | enter _ execute => exact grows_run (by simp) execute
  | spawn _ execute => exact grows_run (by simp) execute
  | suspend _ execute => exact grows_run (by simp) execute
  | stop => exact absurd rfl unfinished

theorem grows_of_go {program : Program} {owner : ObjectId} {frames frames' : List Frame}
    {w w' : World} (h : step program owner frames w = (.go frames', w')) : Grows w w' :=
  grows_of_step h (by simp)

end Task
end BlockStage
