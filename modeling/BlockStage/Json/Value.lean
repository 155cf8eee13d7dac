import BlockStage.Json.Grammar

/-!
What documents mean. A number is a 64-bit word if it is written as one and fits, and a double
otherwise; an object is a finite map, listed by name, in which the last of several members of one
name counts. Containers are read only to a given depth.
-/

namespace BlockStage

/-- Entries by name, in the order of the names and each name once. -/
abbrev Named (α : Type) := List (String × α)

namespace Named

variable {α : Type}

/-- Replaces the entry of that name, or puts a new one in its place in the order. -/
def insert (name : String) (value : α) : Named α → Named α
  | [] => [(name, value)]
  | (other, old) :: rest =>
    if name < other then (name, value) :: (other, old) :: rest
    else if name = other then (name, value) :: rest
    else (other, old) :: insert name value rest

def get? (entries : Named α) (name : String) : Option α := entries.lookup name

/-- Of several entries of one name the last counts. -/
def ofList (entries : List (String × α)) : Named α :=
  entries.foldl (fun done (name, value) => insert name value done) []

end Named

namespace Json

/-- The deepest nesting of containers that is read. -/
def maxDepth : Nat := 127

/-- What a number stands for. -/
inductive Number
  | natural (n : UInt64)
  | negative (n : Int64)
  | real (x : Float)

namespace Number

/-- `none` for a number beyond the range of doubles. -/
def ofNumeral? (n : Numeral) : Option Number :=
  let magnitude := Decimal.ofDigits n.whole
  if n.isWhole && !n.negative && magnitude < UInt64.size then some (natural (.ofNat magnitude))
  else if n.isWhole && n.negative && 0 < magnitude && magnitude ≤ 0x8000000000000000 then
    some (negative (.ofInt (-magnitude)))
  else
    let x := n.toDouble
    if x.isFinite then some (real x) else none

def toNumeral? : Number → Option Numeral
  | natural n => some (.ofNat n.toNat)
  | negative n => some (.ofInt n.toInt)
  | real x => if x.isFinite then some (.ofDouble x) else none

/-- The nearest double. -/
def toDouble : Number → Float
  | natural n => n.toFloat
  | negative n => Scalar.ofWord n
  | real x => x

/-- The nearest single, rounded once. -/
def toSingle : Number → Float32
  | natural n => n.toFloat32
  | negative n => Scalar.ofWordSingle n
  | real x => Scalar.narrow x

def toDocument (n : Number) : Document :=
  match n.toNumeral? with
  | some numeral => .number numeral
  | none => .null

/-- The number as it is written. -/
def text (n : Number) : String :=
  match n.toNumeral? with
  | some numeral => String.ofList numeral.chars
  | none => "null"

end Number

inductive Value
  | null
  | bool (value : Bool)
  | number (value : Number)
  | text (value : String)
  | array (items : List Value)
  | object (members : List (String × Value))

namespace Value

mutual

def toDocument : Value → Document
  | null => .null
  | bool value => .bool value
  | number value => value.toDocument
  | text value => .string value
  | array items => .array (itemsToDocuments items)
  | object members => .object (membersToDocuments members)

def itemsToDocuments : List Value → List Document
  | [] => []
  | item :: items => toDocument item :: itemsToDocuments items

def membersToDocuments : List (String × Value) → List (Option String × Document)
  | [] => []
  | (name, value) :: members => (some name, toDocument value) :: membersToDocuments members

end

end Value

namespace Document

/-- Every name, if each of them stands for a text. -/
def named? {α : Type} : List (Option String × α) → Option (List (String × α))
  | [] => some []
  | (none, _) :: _ => none
  | (some name, value) :: members => (named? members).map ((name, value) :: ·)

/-- The value of a document whose containers nest at most `depth` deep. -/
def value? : Nat → Document → Option Value
  | _, null => some .null
  | _, bool b => some (.bool b)
  | _, number n => (Number.ofNumeral? n).map .number
  | _, text s => s.map .text
  | 0, array _ => none
  | 0, object _ => none
  | depth + 1, array items => (items.mapM (value? depth)).map .array
  | depth + 1, object members => do
    let members ← named? members
    let members ← members.mapM fun (name, d) => (value? depth d).map (name, ·)
    return .object (Named.ofList members)

end Document
end Json
end BlockStage
