import BlockStage.Json.Numeral
import BlockStage.Json.Quoted

/-!
Documents as they are written: members in their written order, repeated names included, and
numbers digit by digit. A document says nothing yet about what its numbers and texts stand for.
-/

namespace BlockStage.Json

/-- A written document. A text is `none` if its escapes stand for no text. -/
inductive Document
  | null
  | bool (value : Bool)
  | number (value : Numeral)
  | text (value : Option String)
  | array (items : List Document)
  | object (members : List (Option String × Document))

namespace Document

mutual

/-- The characters of a document without white space, in front of `rest`. -/
def charsBefore : Document → List Char → List Char
  | null, rest => "null".toList ++ rest
  | bool true, rest => "true".toList ++ rest
  | bool false, rest => "false".toList ++ rest
  | number value, rest => value.chars ++ rest
  | text value, rest => quote (value.getD "") rest
  | array items, rest => '[' :: itemsBefore items (']' :: rest)
  | object members, rest => '{' :: membersBefore members ('}' :: rest)

def itemsBefore : List Document → List Char → List Char
  | [], rest => rest
  | [item], rest => charsBefore item rest
  | item :: items, rest => charsBefore item (',' :: itemsBefore items rest)

def membersBefore : List (Option String × Document) → List Char → List Char
  | [], rest => rest
  | [(name, value)], rest => quote (name.getD "") (':' :: charsBefore value rest)
  | (name, value) :: members, rest =>
    quote (name.getD "") (':' :: charsBefore value (',' :: membersBefore members rest))

end

def render (d : Document) : String := String.ofList (d.charsBefore [])

/-! ### Writing -/

def string (s : String) : Document := text (some s)

def nat (n : Nat) : Document := number (.ofNat n)

/-- A finite double as a number; `null` stands for everything else. -/
def double (x : Float) : Document := if x.isFinite then number (.ofDouble x) else null

/-- A finite single as a number; `null` stands for everything else. -/
def single (x : Float32) : Document := if x.isFinite then number (.ofSingle x) else null

/-- An object with the given members. -/
def record (fields : List (String × Document)) : Document :=
  object (fields.map fun (name, value) => (some name, value))

end Document
end BlockStage.Json
