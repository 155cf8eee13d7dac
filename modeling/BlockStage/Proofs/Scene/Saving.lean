import BlockStage.Proofs.Block.Saving
import BlockStage.Scene.Project

/-! Projects are read as they were written, if all their singles are finite and they do not nest too
deep; otherwise they are not read at all. -/

namespace BlockStage

open Json (Document Number)
open Json.Document

namespace Vec3

def singles (v : Vec3) : List Float32 := [v.x, v.y, v.z]

theorem ofDocument?_toDocument {v : Vec3} (legible : ∀ x ∈ v.singles, LegibleSingle x)
    (depth : Nat) :
    ofDocument? depth v.toDocument =
      if (∀ x ∈ v.singles, x.isFinite) ∧ v.toDocument.depth ≤ depth then some v else none := by
  cases depth with
  | zero =>
    rw [if_neg fun ok => absurd ok.2 (by simp [toDocument, depth])]
    rfl
  | succ depth =>
    have x := single?_single (legible v.x (by simp [singles]))
    have y := single?_single (legible v.y (by simp [singles]))
    have z := single?_single (legible v.z (by simp [singles]))
    simp [ofDocument?, toDocument, list?, x, y, z, bind_ite, ite_ite, singles, depth_array_le]

theorem proper_toDocument (v : Vec3) : v.toDocument.Proper := by
  refine .array ?_
  simpa using ⟨proper_single _, proper_single _, proper_single _⟩

end Vec3

namespace SavedObject

def singles (o : SavedObject) : List Float32 :=
  o.position.singles ++ o.rotation.singles ++ o.scale.singles ++ [o.opacity] ++
    o.scripts.flatMap Stack.singles

def Canonical (o : SavedObject) : Prop := ∀ s ∈ o.scripts, s.Canonical

structure Legible (o : SavedObject) : Prop where
  singles : ∀ x ∈ o.singles, LegibleSingle x
  numbers : ∀ s ∈ o.scripts, ∀ n ∈ Block.numbersIn s.blocks, n.Legible

theorem depth_toDocument_le {o : SavedObject} {n : Nat} :
    o.toDocument.depth ≤ n + 1 ↔
      o.position.toDocument.depth ≤ n ∧ o.rotation.toDocument.depth ≤ n ∧
      o.scale.toDocument.depth ≤ n ∧ (array (o.scripts.map Stack.toDocument)).depth ≤ n := by
  rw [toDocument, depth_record_le]
  cases o.category <;> cases o.color <;> simp [whenSome]

theorem fields?_toDocument (o : SavedObject) :
    o.toDocument.fields? fieldNames =
      some [some (.string o.shape), some (.string o.name), o.category.map .string,
        some o.position.toDocument, some o.rotation.toDocument, some o.scale.toDocument,
        o.color.map .string, some (.single o.opacity), some (.bool o.visible),
        some (.bool o.collidable), some (.bool o.anchored),
        some (.array (o.scripts.map Stack.toDocument))] := by
  rw [toDocument, fields?_record]
  cases o.category <;> cases o.color <;> rfl

theorem ofDocument?_toDocument {o : SavedObject} (h : o.Canonical) (legible : o.Legible)
    (depth : Nat) :
    ofDocument? depth o.toDocument =
      if (∀ x ∈ o.singles, x.isFinite) ∧ o.toDocument.depth ≤ depth then some o else none := by
  cases depth with
  | zero =>
    rw [if_neg fun ok => depth_record_pos _ ok.2, ofDocument?]
  | succ depth =>
    have singles := legible.singles
    simp only [SavedObject.singles, List.forall_mem_append, List.forall_mem_singleton] at singles
    obtain ⟨⟨⟨⟨positions, rotations⟩, scales⟩, opacity⟩, scripted⟩ := singles
    have position := Vec3.ofDocument?_toDocument positions depth
    have rotation := Vec3.ofDocument?_toDocument rotations depth
    have scale := Vec3.ofDocument?_toDocument scales depth
    have opacity := single?_single opacity
    have scripts := Stack.listOfDocument?_toDocuments h (fun s hs =>
      ⟨fun x hx => scripted x (List.mem_flatMap.2 ⟨s, hs, hx⟩), legible.numbers s hs⟩) depth
    have fields : ofDocument? (depth + 1) o.toDocument =
        (Vec3.ofDocument? depth o.position.toDocument).bind fun position =>
        (Vec3.ofDocument? depth o.rotation.toDocument).bind fun rotation =>
        (Vec3.ofDocument? depth o.scale.toDocument).bind fun scale =>
        (single o.opacity).single?.bind fun opacity =>
        (Stack.listOfDocument? depth (.array (o.scripts.map Stack.toDocument))).bind fun scripts =>
        some { o with position, rotation, scale, opacity, scripts } := by
      obtain ⟨shape, name, category, _, _, _, color, _⟩ := o
      rw [ofDocument?, fields?_toDocument]
      cases category <;> cases color <;> rfl
    rw [fields, position, bind_ite, rotation, bind_ite, scale, bind_ite, opacity, bind_ite, scripts,
      bind_ite]
    simp only [ite_ite, depth_toDocument_le, SavedObject.singles, List.forall_mem_append,
      List.forall_mem_singleton, and_assoc, and_left_comm]

theorem canonical_of_ofDocument? {depth : Nat} {d : Document} {o : SavedObject}
    (h : ofDocument? depth d = some o) : o.Canonical := by
  cases depth with
  | zero => contradiction
  | succ depth =>
    obtain ⟨fields, -, h⟩ := Option.bind_eq_some_iff.1 h
    split at h
    · obtain ⟨shape, -, h⟩ := Option.bind_eq_some_iff.1 h
      obtain ⟨name, -, h⟩ := Option.bind_eq_some_iff.1 h
      obtain ⟨category, -, h⟩ := Option.bind_eq_some_iff.1 h
      obtain ⟨position, -, h⟩ := Option.bind_eq_some_iff.1 h
      obtain ⟨rotation, -, h⟩ := Option.bind_eq_some_iff.1 h
      obtain ⟨scale, -, h⟩ := Option.bind_eq_some_iff.1 h
      obtain ⟨color, -, h⟩ := Option.bind_eq_some_iff.1 h
      obtain ⟨opacity, -, h⟩ := Option.bind_eq_some_iff.1 h
      obtain ⟨visible, -, h⟩ := Option.bind_eq_some_iff.1 h
      obtain ⟨collidable, -, h⟩ := Option.bind_eq_some_iff.1 h
      obtain ⟨anchored, -, h⟩ := Option.bind_eq_some_iff.1 h
      obtain ⟨scripts, read, h⟩ := Option.bind_eq_some_iff.1 h
      obtain rfl := Option.some.inj h
      exact forall_of_orElse read fun _ _ inner => Stack.canonical_of_listOfDocument? inner
    · contradiction

theorem Legible.script {o : SavedObject} (legible : o.Legible) {s : Stack} (hs : s ∈ o.scripts) :
    s.Legible where
  singles x hx := legible.singles x
    (List.mem_append_right _ (List.mem_flatMap.2 ⟨s, hs, hx⟩))
  numbers := legible.numbers s hs

theorem proper_toDocument {o : SavedObject} (h : o.Canonical) (legible : o.Legible) :
    o.toDocument.Proper := by
  have scripts : (array (o.scripts.map Stack.toDocument)).Proper :=
    .array (List.forall_mem_map.2 fun s hs => Stack.proper_toDocument (h s hs) (legible.script hs))
  have string (s : String) : (string s).Proper := .text s
  rw [toDocument]
  refine proper_record ?_
  cases o.category <;> cases o.color <;>
    simp [whenSome, string, Vec3.proper_toDocument, proper_single, Document.Proper.bool, scripts]

end SavedObject

namespace Project

def singles (p : Project) : List Float32 :=
  p.objects.flatMap SavedObject.singles ++ p.spawnPoint.toList.flatMap Vec3.singles

/-- The project as it is read: so are all values of its blocks. -/
def Canonical (p : Project) : Prop := ∀ o ∈ p.objects, o.Canonical

/-- All that is written as a number is read as it is written. -/
structure Legible (p : Project) : Prop where
  singles : ∀ x ∈ p.singles, LegibleSingle x
  numbers : ∀ o ∈ p.objects, ∀ s ∈ o.scripts, ∀ n ∈ Block.numbersIn s.blocks, n.Legible

theorem Legible.object {p : Project} (legible : p.Legible) {o : SavedObject} (ho : o ∈ p.objects) :
    o.Legible where
  singles x hx := legible.singles x
    (List.mem_append_left _ (List.mem_flatMap.2 ⟨o, ho, hx⟩))
  numbers := legible.numbers o ho

theorem depth_toDocument_le {p : Project} {n : Nat} :
    p.toDocument.depth ≤ n + 1 ↔
      (array (p.objects.map SavedObject.toDocument)).depth ≤ n ∧
      ∀ point ∈ p.spawnPoint, point.toDocument.depth ≤ n := by
  rw [toDocument, depth_record_le]
  cases p.spawnPoint <;> simp

theorem optional_spawnPoint {point : Option Vec3}
    (legible : ∀ x ∈ point.toList.flatMap Vec3.singles, LegibleSingle x) (depth : Nat) :
    optional (Vec3.ofDocument? depth) (point.map Vec3.toDocument) =
      if (∀ x ∈ point.toList.flatMap Vec3.singles, x.isFinite) ∧
        ∀ v ∈ point, v.toDocument.depth ≤ depth then some point else none := by
  cases point with
  | none => simp [optional_none]
  | some v =>
    rw [Option.toList_some, List.flatMap_singleton] at legible ⊢
    change (Vec3.ofDocument? depth v.toDocument).map some = _
    rw [Vec3.ofDocument?_toDocument legible, apply_ite (Option.map some)]
    simp only [Option.map_some, Option.map_none, Option.mem_some_iff, forall_eq']

theorem ofDocument?_toDocument {p : Project} (h : p.Canonical) (legible : p.Legible)
    (depth : Nat) :
    ofDocument? depth p.toDocument =
      if (∀ x ∈ p.singles, x.isFinite) ∧ p.toDocument.depth ≤ depth then some p else none := by
  cases depth with
  | zero => rw [if_neg fun ok => depth_record_pos _ ok.2, ofDocument?]
  | succ depth =>
    have fields : ofDocument? (depth + 1) p.toDocument =
        (list? SavedObject.ofDocument? depth
          (.array (p.objects.map SavedObject.toDocument))).bind fun objects =>
        (optional (Vec3.ofDocument? depth) (p.spawnPoint.map Vec3.toDocument)).bind
          fun spawnPoint => some ⟨objects, spawnPoint⟩ := by
      rw [ofDocument?, toDocument, fields?_record]
      cases p.spawnPoint <;> rfl
    have objects := list?_eq_ite (fun o ho =>
      SavedObject.ofDocument?_toDocument (h o ho) (legible.object ho)) depth
    have spawnPoint := optional_spawnPoint (fun x hx =>
      legible.singles x (List.mem_append_right _ hx)) depth
    rw [fields, objects, bind_ite, spawnPoint, bind_ite]
    simp only [ite_ite, depth_toDocument_le, singles, List.forall_mem_append, and_assoc,
      and_left_comm]

theorem canonical_of_parse {text : String} {p : Project} (h : parse text = .ok p) :
    p.Canonical := by
  unfold parse at h
  split at h
  · rename_i parsed
    obtain rfl := Except.ok.inj h
    obtain ⟨d, -, read⟩ := Option.bind_eq_some_iff.1 parsed
    obtain ⟨fields, -, read⟩ := Option.bind_eq_some_iff.1 read
    split at read
    · obtain ⟨objects, list, read⟩ := Option.bind_eq_some_iff.1 read
      obtain ⟨spawnPoint, -, read⟩ := Option.bind_eq_some_iff.1 read
      obtain rfl := Option.some.inj read
      refine forall_of_orElse list fun d saved list o ho => ?_
      obtain ⟨item, depth, read⟩ := exists_of_list? list o ho
      exact SavedObject.canonical_of_ofDocument? read
    · contradiction
  · contradiction

theorem proper_toDocument {p : Project} (h : p.Canonical) (legible : p.Legible) :
    p.toDocument.Proper := by
  have objects : (array (p.objects.map SavedObject.toDocument)).Proper :=
    .array (List.forall_mem_map.2 fun o ho =>
      SavedObject.proper_toDocument (h o ho) (legible.object ho))
  rw [toDocument]
  refine proper_record ?_
  cases p.spawnPoint <;> simp [objects, Vec3.proper_toDocument]

theorem parse_render {p : Project} (h : p.Canonical) (legible : p.Legible) :
    parse p.render =
      if (∀ x ∈ p.singles, x.isFinite) ∧ p.toDocument.depth ≤ Json.maxDepth then .ok p
      else .error .malformed := by
  rw [parse, render, parse?_render (proper_toDocument h legible), Option.bind_some,
    ofDocument?_toDocument h legible]
  by_cases ok : (∀ x ∈ p.singles, x.isFinite) ∧ p.toDocument.depth ≤ Json.maxDepth
  · rw [if_pos ok, if_pos ok]
  · rw [if_neg ok, if_neg ok]

/-- Saving loses nothing: a project is read back as itself, however its blocks nest and whichever
of its fields are left out, just if all its singles are finite and it does not nest too deep. -/
theorem parse_render_eq_ok_iff {p : Project} (h : p.Canonical) (legible : p.Legible) :
    parse p.render = .ok p ↔
      (∀ x ∈ p.singles, x.isFinite) ∧ p.toDocument.depth ≤ Json.maxDepth := by
  rw [parse_render h legible]
  split
  · exact iff_of_true rfl ‹_›
  · exact iff_of_false nofun ‹_›

section Example

def listed : List Json.Value := [.null, .bool true, .object [("deep", .text "\"\\\n")]]

def assorted : Named Json.Value :=
  [("condition", .array listed), ("distance", .number (.real 2.5)),
    ("value", .number (.negative (-3)))]

/-- An object with both branches of a choice and with all that can be left out, beside one with
none of it. -/
def branching : Project :=
  ⟨[{ category := some "", color := some "no colour", position := ⟨1.5, 0, 0⟩
      scripts := [⟨7, 0, 0, []⟩, ⟨8, 0.25, 0, [⟨1, "ifElse", assorted,
        [⟨2, "forever", [], [⟨3, "hide", [], [], []⟩], []⟩], [⟨4, "show", [], [], []⟩]⟩]⟩] }, {}],
    some ⟨0, 4, 0⟩⟩

theorem canonical_branching : branching.Canonical := by
  have inner : (Json.Value.object [("deep", .text "\"\\\n")]).Canonical :=
    .object (List.pairwise_singleton _ _) (List.forall_mem_singleton.2 (.text _))
  have list : (Json.Value.array listed).Canonical :=
    .array (by simpa [listed] using ⟨.null, .bool true, inner⟩)
  have finite : (2.5 : Float).isFinite = true := by decide +kernel
  have negative : (Number.negative (-3)).Sound := show (-3 : Int64).toInt < 0 by decide
  have sorted : assorted.Sorted := by
    unfold Named.Sorted assorted
    decide +kernel
  have values : (Json.Value.object assorted).Canonical :=
    .object sorted (by simpa [assorted] using ⟨list, .number finite, .number negative⟩)
  have plain (i : UInt64) (id : String) : (⟨i, id, [], [], []⟩ : Block).Canonical :=
    .intro (.object .nil nofun) nofun nofun
  have loop : (⟨2, "forever", [], [⟨3, "hide", [], [], []⟩], []⟩ : Block).Canonical :=
    .intro (.object .nil nofun) (List.forall_mem_singleton.2 (plain 3 "hide")) nofun
  have choice : (⟨1, "ifElse", assorted, [⟨2, "forever", [], [⟨3, "hide", [], [], []⟩], []⟩],
      [⟨4, "show", [], [], []⟩]⟩ : Block).Canonical :=
    .intro values (List.forall_mem_singleton.2 loop) (List.forall_mem_singleton.2 (plain 4 "show"))
  simpa [branching, Canonical, SavedObject.Canonical, Stack.Canonical] using choice

theorem legible_branching : branching.Legible := by
  refine ⟨by decide +kernel, ?_⟩
  have distance : (Number.real 2.5).Legible := by
    have written : Json.Numeral.ofDouble 2.5 = ⟨false, ['2'], some ['5'], none⟩ := by decide +kernel
    have read : Json.Numeral.toDouble ⟨false, ['2'], some ['5'], none⟩ = 2.5 := by decide +kernel
    have finite : (2.5 : Float).isFinite = true := by decide +kernel
    simp [Number.Legible, written, Number.ofNumeral?, Json.Numeral.isWhole, read, finite]
  have value : (Number.negative (-3)).Legible := trivial
  simp [branching, assorted, listed, Block.numbersIn, Block.numbers, Json.Value.numbersOfMembers,
    Json.Value.numbers, Json.Value.numbersOfItems, distance, value]

theorem branching_parse_render : parse branching.render = .ok branching :=
  (parse_render_eq_ok_iff canonical_branching legible_branching).2
    ⟨by decide +kernel, by decide +kernel⟩

end Example

end Project
end BlockStage
