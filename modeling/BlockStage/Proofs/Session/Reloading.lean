import BlockStage.Proofs.Scene.Placing
import BlockStage.Proofs.Scene.Saving
import BlockStage.Session

/-! What was loaded can be saved; the saved text can be loaded again just if every single was within
range and the text does not nest deeper than what is read, and it gives the same scene then. -/

namespace BlockStage

theorem Project.forall_scripts_ofScene_toScene {P : Stack → Prop} {p : Project}
    (h : ∀ o ∈ p.objects, ∀ s ∈ o.scripts, P s) :
    ∀ o ∈ (ofScene p.toScene).objects, ∀ s ∈ o.scripts, P s := by
  have numbered (objects : List SavedObject) (h : ∀ o ∈ objects, ∀ s ∈ o.scripts, P s)
      (first : BitVec 32) :
      ∀ o ∈ (numbered first objects).map SavedObject.ofObject, ∀ s ∈ o.scripts, P s := by
    induction objects generalizing first with
    | nil => exact nofun
    | cons o rest ih =>
      obtain ⟨now, later⟩ := List.forall_mem_cons.1 h
      refine List.forall_mem_cons.2 ⟨fun s hs => now s ?_, ih later (first + 1)⟩
      exact (List.mem_filter.1 hs).1
  rw [toScene_eq]
  exact numbered p.objects h 1

theorem Project.canonical_ofScene_toScene {p : Project} (h : p.Canonical) :
    (ofScene p.toScene).Canonical :=
  forall_scripts_ofScene_toScene h

namespace Session

theorem load_eq_ok {s s' : Session} {text : String} (h : s.load text = .ok s') :
    ∃ p, Project.parse text = .ok p ∧ s'.savedScene = p.toScene := by
  unfold load at h
  cases parsed : Project.parse text with
  | error e =>
    rw [parsed] at h
    contradiction
  | ok p =>
    rw [parsed] at h
    obtain rfl := Except.ok.inj h
    exact ⟨p, rfl, rfl⟩

theorem load_of_parse (s : Session) {text : String} {p : Project}
    (h : Project.parse text = .ok p) :
    ∃ s', s.load text = .ok s' ∧ s'.savedScene = p.toScene := by
  simp only [load, h]
  exact ⟨_, rfl, rfl⟩

/-- What was loaded is saved as a text. It can be loaded again just if all singles of the scene are
finite, since others are written as `null`, and if the text does not nest deeper than what is read,
since fields that were not written nest as well; and then it gives the same scene, up to the
colours. -/
theorem reload_iff {s s' : Session} {text : String} (loaded : s.load text = .ok s')
    (legible : (Project.ofScene s'.savedScene).Legible) :
    let saved := Project.ofScene s'.savedScene
    ((∃ s'', s'.load s'.save = .ok s'') ↔
      (∀ x ∈ saved.singles, x.isFinite) ∧ saved.toDocument.depth ≤ Json.maxDepth) ∧
    ∀ s'', s'.load s'.save = .ok s'' →
      s''.savedScene.uncoloured = s'.savedScene.uncoloured := by
  intro saved
  obtain ⟨p, parsed, scene⟩ := load_eq_ok loaded
  have canonical : saved.Canonical := by
    simp only [saved, scene]
    exact Project.canonical_ofScene_toScene (Project.canonical_of_parse parsed)
  have parse : Project.parse s'.save = _ := Project.parse_render canonical legible
  refine ⟨⟨fun ⟨s'', again⟩ => ?_, fun ok => ?_⟩, fun s'' again => ?_⟩
  · obtain ⟨_, read, -⟩ := load_eq_ok again
    rw [parse] at read
    split at read
    · assumption
    · exact nomatch read
  · rw [if_pos ok] at parse
    obtain ⟨s'', again, -⟩ := s'.load_of_parse parse
    exact ⟨s'', again⟩
  · obtain ⟨p', read, scene'⟩ := load_eq_ok again
    rw [parse] at read
    split at read
    · obtain rfl := Except.ok.inj read
      rw [scene']
      simp only [scene]
      exact p.toScene_ofScene_toScene
    · exact nomatch read

section Examples

open Json (Document Numeral)
open Json.Document

theorem ofDocument?_brief (depth : Nat) (position scripts : Document) :
    SavedObject.ofDocument? (depth + 1)
        (.record [("position", position), ("scripts", scripts)]) =
      (Vec3.ofDocument? depth position).bind fun position =>
      (Stack.listOfDocument? depth scripts).bind fun scripts => some { position, scripts } := by
  rw [SavedObject.ofDocument?, fields?_record]
  rfl

def oneAndHalf : Document := .number ⟨false, ['1'], some ['5'], none⟩

def twoAndHalf : Document := .number ⟨false, ['2'], some ['5'], none⟩

theorem isDigits_single {c : Char} (h : c.isDigit) : Numeral.IsDigits [c] :=
  ⟨List.cons_ne_nil c [], List.forall_mem_singleton.2 h⟩

theorem proper_oneAndHalf : oneAndHalf.Proper :=
  .number ⟨isDigits_single rfl, by decide, by rintro _ ⟨⟩; exact isDigits_single rfl, nofun⟩

theorem proper_twoAndHalf : twoAndHalf.Proper :=
  .number ⟨isDigits_single rfl, by decide, by rintro _ ⟨⟩; exact isDigits_single rfl, nofun⟩

/-- An object with a script that leaves out what can be left out. -/
def nearWritten : Document :=
  .record [("objects", .array [.record [
    ("position", .array [oneAndHalf, .nat 0, .nat 0]),
    ("scripts", .array [.record [("id", .nat 1), ("blocks", .array [.record [
      ("blockId", .string "wait"), ("values", .record [("seconds", twoAndHalf)])]])]])]])]

def nearText : String :=
  "\x7b\"objects\":[\x7b\"position\":[1.5,0,0],\"scripts\":[\x7b\"id\":1,\"blocks\":[" ++
  "\x7b\"blockId\":\"wait\",\"values\":\x7b\"seconds\":2.5\x7d\x7d]\x7d]\x7d]\x7d"

def near : Project :=
  ⟨[{ position := ⟨1.5, 0, 0⟩
      scripts := [⟨1, 0, 0, [⟨0, "wait", [("seconds", .number (.real 2.5))], [], []⟩]⟩] }], none⟩

theorem parse_near : Project.parse nearText = .ok near := by
  have proper : nearWritten.Proper := by
    have block : (record [("blockId", .string "wait"),
        ("values", .record [("seconds", twoAndHalf)])]).Proper :=
      proper_record (by simpa using
        ⟨.text "wait", proper_record (List.forall_mem_singleton.2 proper_twoAndHalf)⟩)
    have script : (record [("id", .nat 1), ("blocks", .array [.record [("blockId", .string "wait"),
        ("values", .record [("seconds", twoAndHalf)])]])]).Proper :=
      proper_record (by simpa using ⟨proper_nat 1, .array (by simpa using block)⟩)
    have position : (array [oneAndHalf, .nat 0, .nat 0]).Proper :=
      .array (by simpa using ⟨proper_oneAndHalf, proper_nat 0⟩)
    refine proper_record (List.forall_mem_singleton.2 (.array (List.forall_mem_singleton.2 ?_)))
    exact proper_record (by simpa using ⟨position, .array (by simpa using script)⟩)
  have parsed : Document.parse? nearText = some nearWritten := by
    have written : nearWritten.render = nearText := by decide +kernel
    rw [← written, parse?_render proper]
  have across : oneAndHalf.single? = some 1.5 := by decide +kernel
  have zero : (nat 0).single? = some 0 := by decide +kernel
  have one : (nat 1).word? = some 1 := by decide +kernel
  have name : (string "wait").text? = some "wait" := rfl
  have values : Block.values? 120 (.record [("seconds", twoAndHalf)]) =
      some [("seconds", .number (.real 2.5))] := by
    have seconds : Numeral.toDouble ⟨false, ['2'], some ['5'], none⟩ = 2.5 := by decide +kernel
    have finite : (2.5 : Float).isFinite = true := by decide +kernel
    simp [Block.values?, Document.value?, Document.record, named?, twoAndHalf,
      Json.Number.ofNumeral?, Numeral.isWhole, Named.ofList, Named.insert, seconds, finite]
  rw [Project.parse, parsed, Option.bind_some]
  simp [Project.ofDocument?, ofDocument?_brief, Vec3.ofDocument?, Stack.listOfDocument?,
    Stack.ofDocument?, Block.listOfDocument?, Block.ofFields?, Block.fieldNames, list?,
    fields?_record, orElse, optional_none, Json.maxDepth, across, zero, one, name, values, near,
    nearWritten]

/-- Loaded and saved, it is loaded again. -/
theorem near_reloaded :
    ∃ s' s'', (ofConfig {}).load nearText = .ok s' ∧
      (Project.ofScene s'.savedScene).Legible ∧ s'.load s'.save = .ok s'' ∧
      s''.savedScene.uncoloured = s'.savedScene.uncoloured := by
  obtain ⟨s', loaded, scene⟩ := (ofConfig {}).load_of_parse parse_near
  have legible : (Project.ofScene near.toScene).Legible := by
    refine ⟨by decide +kernel, ?_⟩
    have seconds : (Json.Number.real 2.5).Legible := by
      have written : Numeral.ofDouble 2.5 = ⟨false, ['2'], some ['5'], none⟩ := by decide +kernel
      have read : Numeral.toDouble ⟨false, ['2'], some ['5'], none⟩ = 2.5 := by decide +kernel
      have finite : (2.5 : Float).isFinite = true := by decide +kernel
      simp [Json.Number.Legible, written, Json.Number.ofNumeral?, Numeral.isWhole, read, finite]
    apply Project.forall_scripts_ofScene_toScene
    simp [near, Block.numbersIn, Block.numbers, Json.Value.numbersOfMembers, Json.Value.numbers,
      seconds]
  have within : (∀ x ∈ (Project.ofScene near.toScene).singles, x.isFinite) ∧
      (Project.ofScene near.toScene).toDocument.depth ≤ Json.maxDepth := by
    decide +kernel
  rw [← scene] at legible within
  have again := reload_iff loaded legible
  obtain ⟨s'', reloaded⟩ := again.1.2 within
  exact ⟨s', s'', loaded, legible, reloaded, again.2 s'' reloaded⟩

def farOut : Document := .number ⟨false, ['1'], none, some (none, ['3', '9'])⟩

theorem proper_farOut : farOut.Proper :=
  .number ⟨isDigits_single rfl, by decide, nofun, by
    rintro _ _ ⟨⟩
    exact ⟨(isDigits_single rfl).append (by simp), nofun⟩⟩

def farWritten : Document :=
  .record [("objects", .array [.record [
    ("position", .array [farOut, .nat 0, .nat 0]), ("scripts", .array [])]])]

def farText : String := "\x7b\"objects\":[\x7b\"position\":[1e39,0,0],\"scripts\":[]\x7d]\x7d"

def far : Project := ⟨[{ position := ⟨.ofBits 0x7f800000, 0, 0⟩ }], none⟩

theorem parse_far : Project.parse farText = .ok far := by
  have proper : farWritten.Proper := by
    have position : (array [farOut, .nat 0, .nat 0]).Proper :=
      .array (by simpa using ⟨proper_farOut, proper_nat 0⟩)
    refine proper_record (List.forall_mem_singleton.2 (.array (List.forall_mem_singleton.2 ?_)))
    exact proper_record (by simpa using ⟨position, .array nofun⟩)
  have parsed : Document.parse? farText = some farWritten := by
    have written : farWritten.render = farText := by decide +kernel
    rw [← written, parse?_render proper]
  have beyond : farOut.single? = some (.ofBits 0x7f800000) := by decide +kernel
  have zero : (nat 0).single? = some 0 := by decide +kernel
  rw [Project.parse, parsed, Option.bind_some]
  simp [Project.ofDocument?, ofDocument?_brief, Vec3.ofDocument?, Stack.listOfDocument?, list?,
    fields?_record, orElse, optional_none, Json.maxDepth, beyond, zero, far,
    farWritten]

def farSaved : String :=
  "\x7b\"objects\":[\x7b\"type\":\"box\",\"name\":\"\",\"position\":[null,0.0,0.0]," ++
  "\"rotation\":[0.0,0.0,0.0],\"scale\":[1.0,1.0,1.0],\"color\":\"#4a8fd9\",\"opacity\":1.0," ++
  "\"visible\":true,\"collidable\":true,\"anchored\":false,\"scripts\":[]\x7d]," ++
  "\"spawnPoint\":[0.0,2.0,5.0]\x7d"

theorem render_far : (Project.ofScene far.toScene).render = farSaved := by decide +kernel

/-- The infinite coordinate is saved as `null`, which is no coordinate. -/
theorem far_not_reloaded :
    ∃ s', (ofConfig {}).load farText = .ok s' ∧ s'.save = farSaved ∧
      s'.load farSaved = .error .malformed := by
  obtain ⟨s', loaded, scene⟩ := (ofConfig {}).load_of_parse parse_far
  have canonical : far.Canonical := by simp [Project.Canonical, SavedObject.Canonical, far]
  have legible : (Project.ofScene far.toScene).Legible :=
    ⟨by decide +kernel, Project.forall_scripts_ofScene_toScene (by simp [far])⟩
  have infinite : ¬ ∀ x ∈ (Project.ofScene far.toScene).singles, x.isFinite := by decide +kernel
  have parse := Project.parse_render (Project.canonical_ofScene_toScene canonical) legible
  rw [if_neg fun ok => infinite ok.1, render_far] at parse
  refine ⟨s', loaded, ?_, ?_⟩
  · rw [save, scene, render_far]
  · rw [load, parse]
    rfl

end Examples

end Session
end BlockStage
