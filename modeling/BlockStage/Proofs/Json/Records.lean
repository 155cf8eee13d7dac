import BlockStage.Proofs.Json.Values
import BlockStage.Json.Record

/-! Fields are read as they were written. A field that is not written stands for its default, and a
single that is not finite is not read at all. -/

namespace BlockStage.Json.Document

theorem bind_ite {α β : Type} {p : Prop} [Decidable p] {a : α} {next : α → Option β} :
    (if p then some a else none).bind next = if p then next a else none := by
  split <;> rfl

theorem ite_ite {α : Type} {p q : Prop} [Decidable p] [Decidable q] {a : Option α} :
    (if p then (if q then a else none) else none) = if p ∧ q then a else none := by
  by_cases hp : p <;> simp [hp]

theorem fields?_record (names : List String) (fields : List (String × Document)) :
    (record fields).fields? names = names.mapM fun name =>
      match fields.filter (·.1 = name) with
      | [] => some none
      | [(_, d)] => some (some d)
      | _ => none := by
  rw [record, fields?, named?_map]
  rfl

theorem orElse_eq_some {α : Type} {missing : α} {read : Document → Option α} {d : Option Document}
    {x : α} (h : orElse missing read d = some x) : x = missing ∨ ∃ d, read d = some x := by
  cases d with
  | none => exact .inl (Option.some.inj h).symm
  | some d => exact .inr ⟨d, h⟩

theorem forall_of_orElse {α : Type} {P : α → Prop} {read : Document → Option (List α)}
    {d : Option Document} {xs : List α} (h : orElse [] read d = some xs)
    (inner : ∀ d xs, read d = some xs → ∀ x ∈ xs, P x) : ∀ x ∈ xs, P x := by
  rcases orElse_eq_some h with rfl | ⟨d, h⟩
  · exact nofun
  · exact inner d xs h

theorem proper_record {fields : List (String × Document)} (h : ∀ p ∈ fields, p.2.Proper) :
    (record fields).Proper :=
  .object (List.forall_mem_map.2 fun _ _ => rfl) (List.forall_mem_map.2 h)

theorem depth_record_le {fields : List (String × Document)} {n : Nat} :
    (record fields).depth ≤ n + 1 ↔ ∀ p ∈ fields, p.2.depth ≤ n := by
  rw [record, depth_object_le, List.forall_mem_map]

theorem depth_record_pos (fields : List (String × Document)) : ¬ (record fields).depth ≤ 0 := by
  simp [record, depth]

/-! ### Plain fields -/

theorem word?_nat (n : UInt64) : (nat n.toNat).word? = some n := by
  simp only [word?, nat, number?, Number.ofNumeral?_natural]

theorem text?_string (s : String) : (string s).text? = some s := rfl

theorem optional_none {α : Type} (read : Document → Option α) : optional read none = some none :=
  rfl

theorem proper_nat (n : Nat) : (nat n).Proper := .number (Numeral.proper_whole false n)

def LegibleSingle (x : Float32) : Prop := x.isFinite → (single x).single? = some x

instance : DecidablePred LegibleSingle := fun x =>
  inferInstanceAs (Decidable (x.isFinite → (single x).single? = some x))

theorem single?_single {x : Float32} (legible : LegibleSingle x) :
    (single x).single? = if x.isFinite then some x else none := by
  by_cases finite : x.isFinite
  · rw [if_pos finite, legible finite]
  · rw [if_neg finite, single, if_neg finite]
    rfl

theorem proper_single (x : Float32) : (single x).Proper := by
  unfold single
  split
  · exact .number (Numeral.proper_ofSingle x)
  · exact .null

@[simp] theorem depth_nat (n : Nat) : (nat n).depth = 0 := rfl

@[simp] theorem depth_string (s : String) : (string s).depth = 0 := rfl

@[simp] theorem depth_bool (b : Bool) : (bool b).depth = 0 := rfl

@[simp] theorem depth_single (x : Float32) : (single x).depth = 0 := by
  unfold single
  split <;> rfl

theorem exists_of_list? {α : Type} {read : Nat → Document → Option α} {depth : Nat} {d : Document}
    {xs : List α} (h : list? read depth d = some xs) : ∀ x ∈ xs, ∃ d n, read n d = some x := by
  match depth, d with
  | depth + 1, .array items =>
    intro x hx
    obtain ⟨d, -, read⟩ := exists_of_mapM h x hx
    exact ⟨d, depth, read⟩

theorem list?_eq_ite {α : Type} {read : Nat → Document → Option α} {write : α → Document}
    {singles : α → List Float32} {xs : List α}
    (h : ∀ x ∈ xs, ∀ n, read n (write x) =
      if (∀ s ∈ singles x, s.isFinite) ∧ (write x).depth ≤ n then some x else none) (depth : Nat) :
    list? read depth (.array (xs.map write)) =
      if (∀ s ∈ xs.flatMap singles, s.isFinite) ∧ (array (xs.map write)).depth ≤ depth then some xs
      else none := by
  cases depth with
  | zero =>
    rw [if_neg fun ok => absurd ok.2 (by simp [Document.depth])]
    rfl
  | succ depth =>
    have items := mapM_eq_ite fun x hx => h x hx depth
    simp only [list?, items, depth_array_le, List.forall_mem_map, List.forall_mem_flatMap,
      forall_and]

end BlockStage.Json.Document
