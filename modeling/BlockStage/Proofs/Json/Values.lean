import BlockStage.Proofs.Json.Grammar
import BlockStage.Json.Value

/-! Values are read as they were written, as deep as containers may nest: names in their order,
whole numbers as such, and every other number that reads back. -/

namespace BlockStage

namespace Named

variable {α : Type}

def Sorted (entries : Named α) : Prop := entries.Pairwise (·.1 < ·.1)

theorem mem_insert {name : String} {value : α} {entries : Named α} {p : String × α}
    (h : p ∈ insert name value entries) : p = (name, value) ∨ p ∈ entries := by
  induction entries with
  | nil => exact .inl (List.mem_singleton.1 h)
  | cons entry rest ih =>
    rw [insert] at h
    split at h
    · exact List.mem_cons.1 h
    · split at h
      · exact (List.mem_cons.1 h).imp_right (List.mem_cons_of_mem _)
      · rcases List.mem_cons.1 h with rfl | later
        · exact .inr List.mem_cons_self
        · exact (ih later).imp_right (List.mem_cons_of_mem _)

theorem sorted_insert {entries : Named α} (h : Sorted entries) (name : String) (value : α) :
    Sorted (insert name value entries) := by
  induction entries with
  | nil => exact List.pairwise_singleton _ _
  | cons entry rest ih =>
    obtain ⟨other, old⟩ := entry
    obtain ⟨first, later⟩ := List.pairwise_cons.1 h
    rw [insert]
    split
    · rename_i before
      refine List.pairwise_cons.2 ⟨fun p hp => ?_, h⟩
      rcases List.mem_cons.1 hp with rfl | hp
      · exact before
      · exact String.lt_trans before (first p hp)
    · split
      · rename_i same
        exact List.pairwise_cons.2 ⟨same ▸ first, later⟩
      · rename_i not_before other_name
        refine List.pairwise_cons.2 ⟨fun p hp => ?_, ih later⟩
        rcases mem_insert hp with rfl | old
        · grind
        · exact first p old

theorem sorted_ofList (entries : List (String × α)) : Sorted (ofList entries) := by
  have folded (entries : List (String × α)) {done : Named α} (h : Sorted done) :
      Sorted (entries.foldl (fun done p => insert p.1 p.2 done) done) := by
    induction entries generalizing done with
    | nil => exact h
    | cons p rest ih => exact ih (sorted_insert h p.1 p.2)
  exact folded entries List.Pairwise.nil

theorem mem_ofList {entries : List (String × α)} {p : String × α} (h : p ∈ ofList entries) :
    p ∈ entries := by
  have folded (entries : List (String × α)) {done : Named α}
      (h : p ∈ entries.foldl (fun done p => insert p.1 p.2 done) done) :
      p ∈ done ∨ p ∈ entries := by
    induction entries generalizing done with
    | nil => exact .inl h
    | cons entry rest ih =>
      rcases ih h with now | later
      · exact (mem_insert now).elim (fun same => .inr (same ▸ List.mem_cons_self)) .inl
      · exact .inr (List.mem_cons_of_mem _ later)
  exact (folded entries h).resolve_left List.not_mem_nil

theorem insert_last {entries : Named α} {name : String} (value : α)
    (h : ∀ p ∈ entries, p.1 < name) : insert name value entries = entries ++ [(name, value)] := by
  induction entries with
  | nil => rfl
  | cons entry rest ih =>
    obtain ⟨before, later⟩ := List.forall_mem_cons.1 h
    rw [insert, if_neg (String.lt_asymm before),
      if_neg (fun same => String.lt_irrefl _ (same ▸ before)), ih later]
    rfl

theorem ofList_of_sorted {entries : Named α} (h : Sorted entries) : ofList entries = entries := by
  have folded (rest done : Named α) (h : Sorted (done ++ rest)) :
      rest.foldl (fun done p => insert p.1 p.2 done) done = done ++ rest := by
    induction rest generalizing done with
    | nil => exact (List.append_nil done).symm
    | cons p rest ih =>
      obtain ⟨name, value⟩ := p
      have last : insert name value done = done ++ [(name, value)] :=
        insert_last value fun q hq => (List.pairwise_append.1 h).2.2 q hq _ List.mem_cons_self
      rw [List.append_cons] at h ⊢
      simp only [List.foldl_cons, last]
      exact ih _ h
  exact folded entries [] h

end Named

namespace Json

namespace Number

/-- A number as it is read: a word with a minus sign is below zero, and a double is finite. -/
def Sound : Number → Prop
  | natural _ => True
  | negative n => n.toInt < 0
  | real x => x.isFinite

/-- What is written for the number is read as that number. -/
def Legible : Number → Prop
  | real x => ofNumeral? (.ofDouble x) = some (real x)
  | _ => True

theorem sound_of_ofNumeral? {n : Number} {written : Numeral} (h : ofNumeral? written = some n) :
    n.Sound := by
  unfold ofNumeral? at h
  dsimp only at h
  split at h
  · obtain rfl := Option.some.inj h
    trivial
  · split at h
    · rename_i cond
      obtain rfl := Option.some.inj h
      simp only [Bool.and_eq_true, decide_eq_true_eq] at cond
      change (Int64.ofInt _).toInt < 0
      rw [Int64.toInt_ofInt_of_le (by omega) (by omega)]
      omega
    · split at h
      · obtain rfl := Option.some.inj h
        assumption
      · contradiction

theorem ofNumeral?_natural (n : UInt64) : ofNumeral? (.ofNat n.toNat) = some (natural n) := by
  simp [ofNumeral?, Numeral.ofNat, Numeral.isWhole, Decimal.ofDigits_digitChars,
    UInt64.toNat_lt_size]

theorem ofNumeral?_negative {n : Int64} (h : n.toInt < 0) :
    ofNumeral? (.ofInt n.toInt) = some (negative n) := by
  have least := n.le_toInt
  have positive : 0 < n.toInt.natAbs := by omega
  have fits : n.toInt.natAbs ≤ 0x8000000000000000 := by omega
  have value : (-(n.toInt.natAbs : Int)) = n.toInt := by omega
  simp only [ofNumeral?, Numeral.ofInt, Numeral.isWhole, Decimal.ofDigits_digitChars, h, positive,
    fits, value, Int64.ofInt_toInt]
  rfl

theorem toDocument_eq {n : Number} (sound : n.Sound) (legible : n.Legible) :
    ∃ numeral : Numeral, n.toDocument = .number numeral ∧ numeral.Proper ∧
      ofNumeral? numeral = some n := by
  cases n with
  | natural n => exact ⟨_, rfl, Numeral.proper_whole _ _, ofNumeral?_natural n⟩
  | negative n => exact ⟨_, rfl, Numeral.proper_whole _ _, ofNumeral?_negative sound⟩
  | real x =>
    have written : toNumeral? (real x) = some (.ofDouble x) := if_pos sound
    exact ⟨_, by rw [toDocument, written], Numeral.proper_ofDouble x, legible⟩

end Number
/-! ### Depth -/

namespace Document

mutual

def depth : Document → Nat
  | array items => itemsDepth items + 1
  | object members => membersDepth members + 1
  | _ => 0

def itemsDepth : List Document → Nat
  | [] => 0
  | item :: items => max (depth item) (itemsDepth items)

def membersDepth : List (Option String × Document) → Nat
  | [] => 0
  | (_, value) :: members => max (depth value) (membersDepth members)

end

@[simp] theorem depth_array_le {items : List Document} {n : Nat} :
    (array items).depth ≤ n + 1 ↔ ∀ d ∈ items, d.depth ≤ n := by
  rw [depth, Nat.succ_le_succ_iff]
  induction items with
  | nil => simp [itemsDepth]
  | cons item items ih => simp only [itemsDepth, Nat.max_le, ih, List.forall_mem_cons]

@[simp] theorem depth_object_le {members : List (Option String × Document)} {n : Nat} :
    (object members).depth ≤ n + 1 ↔ ∀ p ∈ members, p.2.depth ≤ n := by
  rw [depth, Nat.succ_le_succ_iff]
  induction members with
  | nil => simp [membersDepth]
  | cons p members ih => simp only [membersDepth, Nat.max_le, ih, List.forall_mem_cons]

theorem mapM_eq_ite {α β : Type} {read : β → Option α} {write : α → β}
    {ok : α → Prop} [DecidablePred ok] {xs : List α}
    (h : ∀ x ∈ xs, read (write x) = if ok x then some x else none) :
    (xs.map write).mapM read = if ∀ x ∈ xs, ok x then some xs else none := by
  induction xs with
  | nil => rfl
  | cons x xs ih =>
    obtain ⟨first, later⟩ := List.forall_mem_cons.1 h
    rw [List.map_cons, List.mapM_cons, first, ih later]
    simp only [List.forall_mem_cons]
    by_cases now : ok x
    · by_cases rest : ∀ y ∈ xs, ok y
      · rw [if_pos now, if_pos rest, if_pos ⟨now, rest⟩]
        rfl
      · rw [if_pos now, if_neg rest, if_neg (not_and.2 fun _ => rest)]
        rfl
    · rw [if_neg now, if_neg (not_and.2 fun h => absurd h now)]
      rfl

theorem exists_of_mapM {α β : Type} {read : β → Option α} {xs : List β} {ys : List α}
    (h : xs.mapM read = some ys) : ∀ y ∈ ys, ∃ x ∈ xs, read x = some y := by
  induction xs generalizing ys with
  | nil =>
    obtain rfl : [] = ys := Option.some.inj h
    simp
  | cons x xs ih =>
    rw [List.mapM_cons] at h
    obtain ⟨first, now, h⟩ := Option.bind_eq_some_iff.1 h
    obtain ⟨rest, later, h⟩ := Option.bind_eq_some_iff.1 h
    obtain rfl : first :: rest = ys := Option.some.inj h
    intro y hy
    rcases List.mem_cons.1 hy with rfl | hy
    · exact ⟨x, List.mem_cons_self, now⟩
    · obtain ⟨x, hx, read⟩ := ih later y hy
      exact ⟨x, List.mem_cons_of_mem _ hx, read⟩

theorem named?_map {α : Type} (entries : List (String × α)) :
    named? (entries.map fun (name, value) => (some name, value)) = some entries := by
  induction entries with
  | nil => rfl
  | cons p rest ih =>
    rw [List.map_cons, named?, ih]
    rfl

end Document

namespace Value

/-- A value as it is read: its numbers are, and the names of its objects are in order. -/
inductive Canonical : Value → Prop
  | null : Canonical null
  | bool (b : Bool) : Canonical (bool b)
  | number {n : Number} (h : n.Sound) : Canonical (number n)
  | text (s : String) : Canonical (text s)
  | array {items : List Value} (h : ∀ item ∈ items, Canonical item) : Canonical (array items)
  | object {members : Named Value} (sorted : Named.Sorted members)
      (values : ∀ p ∈ members, Canonical p.2) : Canonical (object members)

mutual

def numbers : Value → List Number
  | number n => [n]
  | array items => numbersOfItems items
  | object members => numbersOfMembers members
  | _ => []

def numbersOfItems : List Value → List Number
  | [] => []
  | item :: items => numbers item ++ numbersOfItems items

def numbersOfMembers : List (String × Value) → List Number
  | [] => []
  | (_, value) :: members => numbers value ++ numbersOfMembers members

end

theorem numbersOfItems_eq (items : List Value) : numbersOfItems items = items.flatMap numbers := by
  induction items with
  | nil => rfl
  | cons item items ih => rw [numbersOfItems, ih, List.flatMap_cons]

theorem numbersOfMembers_eq (members : List (String × Value)) :
    numbersOfMembers members = members.flatMap fun p => p.2.numbers := by
  induction members with
  | nil => rfl
  | cons p members ih => rw [numbersOfMembers, ih, List.flatMap_cons]

theorem itemsToDocuments_eq (items : List Value) :
    itemsToDocuments items = items.map toDocument := by
  induction items with
  | nil => rfl
  | cons item items ih => rw [itemsToDocuments, ih, List.map_cons]

theorem membersToDocuments_eq (members : List (String × Value)) :
    membersToDocuments members = (members.map fun p => (p.1, p.2.toDocument)).map
      fun (name, value) => (some name, value) := by
  induction members with
  | nil => rfl
  | cons p members ih => rw [membersToDocuments, ih, List.map_cons, List.map_cons]

theorem proper_toDocument {v : Value} (h : v.Canonical) (legible : ∀ n ∈ v.numbers, n.Legible) :
    v.toDocument.Proper := by
  induction h with
  | null => exact .null
  | bool b => exact .bool b
  | @number n sound =>
    obtain ⟨numeral, written, proper, -⟩ :=
      Number.toDocument_eq sound (legible n List.mem_cons_self)
    rw [toDocument, written]
    exact .number proper
  | text s => exact .text s
  | array _ ih =>
    rw [numbers, numbersOfItems_eq] at legible
    rw [toDocument, itemsToDocuments_eq]
    refine .array (List.forall_mem_map.2 fun item hi => ih item hi fun n hn => ?_)
    exact legible n (List.mem_flatMap.2 ⟨item, hi, hn⟩)
  | object _ _ ih =>
    rw [numbers, numbersOfMembers_eq] at legible
    rw [toDocument, membersToDocuments_eq]
    refine .object (List.forall_mem_map.2 fun _ _ => rfl)
      (List.forall_mem_map.2 (List.forall_mem_map.2 fun p hp => ih p hp fun n hn => ?_))
    exact legible n (List.mem_flatMap.2 ⟨p, hp, hn⟩)

theorem value?_toDocument {v : Value} (h : v.Canonical) (legible : ∀ n ∈ v.numbers, n.Legible)
    (depth : Nat) :
    v.toDocument.value? depth = if v.toDocument.depth ≤ depth then some v else none := by
  induction h generalizing depth with
  | null => cases depth <;> rfl
  | bool b => cases depth <;> rfl
  | @number n sound =>
    obtain ⟨numeral, written, -, read⟩ :=
      Number.toDocument_eq sound (legible n List.mem_cons_self)
    cases depth <;> simp [toDocument, written, Document.value?, Document.depth, read]
  | text s => cases depth <;> rfl
  | @array items _ ih =>
    rw [numbers, numbersOfItems_eq] at legible
    rw [toDocument, itemsToDocuments_eq]
    cases depth with
    | zero => rfl
    | succ depth =>
      have each (item : Value) (hi : item ∈ items) : item.toDocument.value? depth =
          if item.toDocument.depth ≤ depth then some item else none :=
        ih item hi (fun n hn => legible n (List.mem_flatMap.2 ⟨item, hi, hn⟩)) depth
      have read := Document.mapM_eq_ite each
      simp only [Document.value?, read, Document.depth_array_le, List.forall_mem_map]
      split <;> rfl
  | @object members sorted _ ih =>
    rw [numbers, numbersOfMembers_eq] at legible
    rw [toDocument, membersToDocuments_eq]
    cases depth with
    | zero => rfl
    | succ depth =>
      have each (p : String × Value) (hp : p ∈ members) :
          (p.2.toDocument.value? depth).map (p.1, ·) =
            if p.2.toDocument.depth ≤ depth then some p else none := by
        rw [ih p hp (fun n hn => legible n (List.mem_flatMap.2 ⟨p, hp, hn⟩)) depth]
        split <;> rfl
      have read : (members.map fun p => (p.1, p.2.toDocument)).mapM
          (fun (name, d) => (Document.value? depth d).map (name, ·)) =
            if ∀ p ∈ members, p.2.toDocument.depth ≤ depth then some members else none :=
        Document.mapM_eq_ite each
      simp only [Document.value?, Document.named?_map, Option.bind_eq_bind, Option.bind_some, read,
        Document.depth_object_le, List.forall_mem_map]
      split
      · rw [Option.bind_some, Named.ofList_of_sorted sorted]
        rfl
      · rfl

theorem canonical_of_flat {d : Document} (flat : d.depth = 0) {depth : Nat} {v : Value}
    (h : d.value? depth = some v) : v.Canonical := by
  have same : d.value? 0 = some v := by
    cases d with
    | array items => contradiction
    | object members => contradiction
    | _ => cases depth <;> exact h
  cases d with
  | null =>
    obtain rfl := Option.some.inj same
    exact .null
  | bool b =>
    obtain rfl := Option.some.inj same
    exact .bool b
  | number n =>
    obtain ⟨n, read, rfl⟩ := Option.map_eq_some_iff.1 same
    exact .number (Number.sound_of_ofNumeral? read)
  | text s =>
    obtain ⟨s, -, rfl⟩ := Option.map_eq_some_iff.1 same
    exact .text s
  | array items => contradiction
  | object members => contradiction

theorem canonical_of_value? {depth : Nat} {d : Document} {v : Value}
    (h : d.value? depth = some v) : v.Canonical := by
  induction depth generalizing d v with
  | zero =>
    cases d with
    | array items => contradiction
    | object members => contradiction
    | _ => exact canonical_of_flat rfl h
  | succ depth ih =>
    cases d with
    | array items =>
      obtain ⟨values, read, rfl⟩ := Option.map_eq_some_iff.1 h
      refine .array fun v hv => ?_
      obtain ⟨item, -, read⟩ := Document.exists_of_mapM read v hv
      exact ih read
    | object members =>
      obtain ⟨named, -, h⟩ := Option.bind_eq_some_iff.1 h
      obtain ⟨values, read, h⟩ := Option.bind_eq_some_iff.1 h
      obtain rfl := Option.some.inj h
      refine .object (Named.sorted_ofList values) fun p hp => ?_
      obtain ⟨⟨name, d⟩, -, read⟩ := Document.exists_of_mapM read p (Named.mem_ofList hp)
      obtain ⟨v, value, rfl⟩ := Option.map_eq_some_iff.1 read
      exact ih value
    | _ => exact canonical_of_flat rfl h

end Value
end Json
end BlockStage
