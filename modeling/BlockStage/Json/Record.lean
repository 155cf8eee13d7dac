import BlockStage.Json.Value

/-!
Records in documents. A record is written as an object, or as an array of its fields in their
order. Members with other names may hold any document. The depth that remains for containers is
handed down to the fields.
-/

namespace BlockStage.Json.Document

/-- The documents of the given fields, in their order, `none` for one that is not written. A field
that is written twice is an error. -/
def fields? (names : List String) : Document → Option (List (Option Document))
  | object members => do
    let members ← named? members
    names.mapM fun name =>
      match members.filter (·.1 = name) with
      | [] => some none
      | [(_, d)] => some (some d)
      | _ => none
  | array items =>
    if items.length ≤ names.length then
      some (items.map some ++ List.replicate (names.length - items.length) none)
    else none
  | _ => none

/-- A field that may be missing. -/
def orElse {α : Type} (missing : α) (read : Document → Option α) : Option Document → Option α
  | none => some missing
  | some d => read d

/-- A field that may be missing or `null`. -/
def optional {α : Type} (read : Document → Option α) : Option Document → Option (Option α)
  | none => some none
  | some null => some none
  | some d => (read d).map some

def text? : Document → Option String
  | text value => value
  | _ => none

def bool? : Document → Option Bool
  | bool value => some value
  | _ => none

def number? : Document → Option Number
  | number value => Number.ofNumeral? value
  | _ => none

def single? (d : Document) : Option Float32 := d.number?.map Number.toSingle

def word? (d : Document) : Option UInt64 :=
  match d.number? with
  | some (.natural n) => some n
  | _ => none

/-- The items of an array, each read with one level of depth less. -/
def list? {α : Type} (read : Nat → Document → Option α) : Nat → Document → Option (List α)
  | depth + 1, array items => items.mapM (read depth)
  | _, _ => none

end BlockStage.Json.Document
