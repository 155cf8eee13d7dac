import BlockStage.Block.Saved
import BlockStage.Proofs.Json.Records

/-! Blocks and stacks are read as they were written, as deep as they may nest. -/

namespace BlockStage

open Json (Document Number)
open Json.Document

namespace Block

/-- A block as it is read, with everything inside it. -/
inductive Canonical : Block → Prop
  | intro {b : Block} (values : (Json.Value.object b.values).Canonical)
      (children : ∀ c ∈ b.children, Canonical c)
      (elseChildren : ∀ c ∈ b.elseChildren, Canonical c) : Canonical b

mutual

def numbers : Block → List Number
  | ⟨_, _, values, children, elseChildren⟩ =>
    Json.Value.numbersOfMembers values ++ numbersIn children ++ numbersIn elseChildren

def numbersIn : List Block → List Number
  | [] => []
  | b :: rest => numbers b ++ numbersIn rest

end

theorem numbersIn_eq (blocks : List Block) : numbersIn blocks = blocks.flatMap numbers := by
  induction blocks with
  | nil => rfl
  | cons b rest ih => rw [numbersIn, ih, List.flatMap_cons]

theorem listToDocuments_eq (blocks : List Block) :
    listToDocuments blocks = blocks.map toDocument := by
  induction blocks with
  | nil => rfl
  | cons b rest ih => rw [listToDocuments, ih, List.map_cons]

theorem values?_toDocument {values : Named Json.Value} (h : (Json.Value.object values).Canonical)
    (legible : ∀ n ∈ Json.Value.numbersOfMembers values, n.Legible) (depth : Nat) :
    values? depth (.object (Json.Value.membersToDocuments values)) =
      if (Document.object (Json.Value.membersToDocuments values)).depth ≤ depth then some values
      else none := by
  have read := Json.Value.value?_toDocument h legible depth
  rw [Json.Value.toDocument] at read
  rw [values?, read]
  by_cases shallow : (Document.object (Json.Value.membersToDocuments values)).depth ≤ depth
  · rw [if_pos shallow, if_pos shallow]
  · rw [if_neg shallow, if_neg shallow]

theorem ofFields?_toDocument {b : Block} (h : (Json.Value.object b.values).Canonical)
    (legible : ∀ n ∈ Json.Value.numbersOfMembers b.values, n.Legible)
    {read : Document → Option (List Block)} {depth : Nat}
    (children : read (.array (listToDocuments b.children)) =
      if (array (listToDocuments b.children)).depth ≤ depth then some b.children else none)
    (elseChildren : read (.array (listToDocuments b.elseChildren)) =
      if (array (listToDocuments b.elseChildren)).depth ≤ depth then some b.elseChildren
      else none) :
    ofFields? read depth b.toDocument =
      if b.toDocument.depth ≤ depth + 1 then some b else none := by
  obtain ⟨instanceId, blockId, values, first, second⟩ := b
  have values := values?_toDocument h legible depth
  cases second with
  | nil =>
    simp [toDocument, ofFields?, fields?_record, depth_record_le, fieldNames, orElse, word?_nat,
      text?_string, values, children, bind_ite, ite_ite]
  | cons c second =>
    simp [toDocument, ofFields?, fields?_record, depth_record_le, fieldNames, orElse, word?_nat,
      text?_string, values, children, elseChildren, bind_ite, ite_ite]

theorem depth_pos (b : Block) : ¬ b.toDocument.depth ≤ 0 := by
  obtain ⟨instanceId, blockId, values, first, second⟩ := b
  rw [toDocument]
  exact depth_record_pos _

theorem listOfDocument?_toDocuments (depth : Nat) {blocks : List Block}
    (h : ∀ b ∈ blocks, b.Canonical) (legible : ∀ n ∈ numbersIn blocks, n.Legible) :
    listOfDocument? depth (.array (listToDocuments blocks)) =
      if (array (listToDocuments blocks)).depth ≤ depth then some blocks else none := by
  match depth with
  | 0 => rfl
  | 1 =>
    cases blocks with
    | nil => rfl
    | cons b rest =>
      have deep : ¬ (array (listToDocuments (b :: rest))).depth ≤ 1 := by
        rw [depth_array_le]
        exact fun flat => depth_pos b (flat _ List.mem_cons_self)
      rw [if_neg deep]
      rfl
  | depth + 2 =>
    rw [numbersIn_eq] at legible
    have read : ∀ b ∈ blocks, ofFields? (listOfDocument? depth) depth b.toDocument =
        if b.toDocument.depth ≤ depth + 1 then some b else none := by
      intro b hb
      have within : ∀ n ∈ b.numbers, n.Legible := fun n hn =>
        legible n (List.mem_flatMap.2 ⟨b, hb, hn⟩)
      obtain ⟨instanceId, blockId, values, first, second⟩ := b
      simp only [numbers, List.forall_mem_append] at within
      cases h _ hb with
      | intro values children elseChildren =>
        exact ofFields?_toDocument values within.1.1
          (listOfDocument?_toDocuments depth children within.1.2)
          (listOfDocument?_toDocuments depth elseChildren within.2)
    simp only [listToDocuments_eq, listOfDocument?, mapM_eq_ite read, depth_array_le,
      List.forall_mem_map]

theorem canonical_of_values? {depth : Nat} {d : Option Document} {values : Named Json.Value}
    (h : orElse [] (values? depth) d = some values) : (Json.Value.object values).Canonical := by
  rcases orElse_eq_some h with rfl | ⟨d, h⟩
  · exact .object List.Pairwise.nil nofun
  · rw [values?] at h
    split at h
    · rename_i members read
      obtain rfl : members = values := Option.some.inj h
      exact Json.Value.canonical_of_value? read
    · contradiction

theorem canonical_of_ofFields? {children? : Document → Option (List Block)} {depth : Nat}
    {d : Document} {b : Block} (h : ofFields? children? depth d = some b)
    (inner : ∀ d blocks, children? d = some blocks → ∀ c ∈ blocks, c.Canonical) :
    b.Canonical := by
  obtain ⟨fields, -, h⟩ := Option.bind_eq_some_iff.1 h
  split at h
  · obtain ⟨instanceId, -, h⟩ := Option.bind_eq_some_iff.1 h
    obtain ⟨blockId, -, h⟩ := Option.bind_eq_some_iff.1 h
    obtain ⟨values, read, h⟩ := Option.bind_eq_some_iff.1 h
    obtain ⟨children, first, h⟩ := Option.bind_eq_some_iff.1 h
    obtain ⟨elseChildren, second, h⟩ := Option.bind_eq_some_iff.1 h
    obtain rfl := Option.some.inj h
    exact .intro (canonical_of_values? read) (forall_of_orElse first inner)
      (forall_of_orElse second inner)
  · contradiction

theorem canonical_of_listOfDocument? {depth : Nat} {d : Document} {blocks : List Block}
    (h : listOfDocument? depth d = some blocks) : ∀ b ∈ blocks, b.Canonical := by
  match depth, d with
  | 0, _ => contradiction
  | 1, .array [] =>
    obtain rfl : [] = blocks := Option.some.inj h
    simp
  | depth + 2, .array items =>
    intro b hb
    obtain ⟨d, -, read⟩ := exists_of_mapM h b hb
    exact canonical_of_ofFields? read fun _ _ inner => canonical_of_listOfDocument? inner

theorem proper_toDocument {b : Block} (h : b.Canonical) (legible : ∀ n ∈ b.numbers, n.Legible) :
    b.toDocument.Proper := by
  induction h with
  | @intro b values _ _ first second =>
    obtain ⟨instanceId, blockId, members, children, elseChildren⟩ := b
    simp only [numbers, List.forall_mem_append, numbersIn_eq] at legible
    obtain ⟨⟨legible, below⟩, others⟩ := legible
    have valued : (Document.object (Json.Value.membersToDocuments members)).Proper :=
      Json.Value.proper_toDocument values legible
    have firsts : (array (listToDocuments children)).Proper := by
      rw [listToDocuments_eq]
      exact .array (List.forall_mem_map.2 fun c hc => first c hc fun n hn =>
        below n (List.mem_flatMap.2 ⟨c, hc, hn⟩))
    have seconds : (array (listToDocuments elseChildren)).Proper := by
      rw [listToDocuments_eq]
      exact .array (List.forall_mem_map.2 fun c hc => second c hc fun n hn =>
        others n (List.mem_flatMap.2 ⟨c, hc, hn⟩))
    rw [toDocument]
    refine proper_record ?_
    cases elseChildren with
    | nil => simpa using ⟨proper_nat _, .text _, valued, firsts⟩
    | cons c rest => simpa using ⟨proper_nat _, .text _, valued, firsts, seconds⟩

end Block

namespace Stack

def singles (s : Stack) : List Float32 := [s.x, s.y]

def Canonical (s : Stack) : Prop := ∀ b ∈ s.blocks, b.Canonical

/-- All that is written as a number is read as it is written. -/
structure Legible (s : Stack) : Prop where
  singles : ∀ x ∈ s.singles, LegibleSingle x
  numbers : ∀ n ∈ Block.numbersIn s.blocks, n.Legible

theorem ofDocument?_toDocument {s : Stack} (h : s.Canonical) (legible : s.Legible) (depth : Nat) :
    ofDocument? depth s.toDocument =
      if (∀ x ∈ s.singles, x.isFinite) ∧ s.toDocument.depth ≤ depth then some s else none := by
  cases depth with
  | zero => rw [if_neg fun ok => depth_record_pos _ ok.2, ofDocument?]
  | succ depth =>
    have blocks := Block.listOfDocument?_toDocuments depth h legible.numbers
    have x := single?_single (legible.singles s.x (by simp [singles]))
    have y := single?_single (legible.singles s.y (by simp [singles]))
    simp [toDocument, ofDocument?, fields?_record, depth_record_le, orElse, word?_nat, x, y,
      blocks, bind_ite, ite_ite, singles, and_assoc]

theorem listOfDocument?_toDocuments {canvas : List Stack} (h : ∀ s ∈ canvas, s.Canonical)
    (legible : ∀ s ∈ canvas, s.Legible) (depth : Nat) :
    listOfDocument? depth (.array (canvas.map toDocument)) =
      if (∀ x ∈ canvas.flatMap singles, x.isFinite) ∧
        (array (canvas.map toDocument)).depth ≤ depth then some canvas else none :=
  list?_eq_ite (fun s hs => ofDocument?_toDocument (h s hs) (legible s hs)) depth

theorem canonical_of_ofDocument? {depth : Nat} {d : Document} {s : Stack}
    (h : ofDocument? depth d = some s) : s.Canonical := by
  cases depth with
  | zero => contradiction
  | succ depth =>
    obtain ⟨fields, -, h⟩ := Option.bind_eq_some_iff.1 h
    split at h
    · obtain ⟨id, -, h⟩ := Option.bind_eq_some_iff.1 h
      obtain ⟨x, -, h⟩ := Option.bind_eq_some_iff.1 h
      obtain ⟨y, -, h⟩ := Option.bind_eq_some_iff.1 h
      obtain ⟨blocks, read, h⟩ := Option.bind_eq_some_iff.1 h
      obtain rfl := Option.some.inj h
      exact forall_of_orElse read fun _ _ inner => Block.canonical_of_listOfDocument? inner
    · contradiction

theorem canonical_of_listOfDocument? {depth : Nat} {d : Document} {canvas : List Stack}
    (h : listOfDocument? depth d = some canvas) : ∀ s ∈ canvas, s.Canonical := by
  intro s hs
  obtain ⟨d, n, read⟩ := exists_of_list? h s hs
  exact canonical_of_ofDocument? read

theorem proper_toDocument {s : Stack} (h : s.Canonical) (legible : s.Legible) :
    s.toDocument.Proper := by
  have numbers := legible.numbers
  rw [Block.numbersIn_eq] at numbers
  have blocks : (array (Block.listToDocuments s.blocks)).Proper := by
    rw [Block.listToDocuments_eq]
    exact .array (List.forall_mem_map.2 fun b hb => Block.proper_toDocument (h b hb) fun n hn =>
      numbers n (List.mem_flatMap.2 ⟨b, hb, hn⟩))
  refine proper_record ?_
  simpa using ⟨proper_nat _, proper_single _, proper_single _, blocks⟩

end Stack
end BlockStage
