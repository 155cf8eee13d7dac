import BlockStage.Json.Document

/-!
The grammar of documents. Each reader takes what it can from the front of the text and returns the
rest. Nested documents are read with a supply of steps; one step for each character is enough.
-/

namespace BlockStage.Json

def isSpace (c : Char) : Bool := c = ' ' || c = '\t' || c = '\n' || c = '\r'

def skipSpace (cs : List Char) : List Char := cs.dropWhile isSpace

namespace Numeral

/-- At least one digit. -/
def takeDigits? (cs : List Char) : Option (List Char × List Char) :=
  let digits := cs.takeWhile Char.isDigit
  if digits = [] then none else some (digits, cs.dropWhile Char.isDigit)

/-- The whole part: a zero stands alone. -/
def takeWhole? : List Char → Option (List Char × List Char)
  | '0' :: rest => if (rest.head?.any Char.isDigit) then none else some (['0'], rest)
  | cs => takeDigits? cs

def takeFraction? : List Char → Option (Option (List Char) × List Char)
  | '.' :: rest => (takeDigits? rest).map fun (digits, rest) => (some digits, rest)
  | cs => some (none, cs)

def takeSign : List Char → Option Char × List Char
  | '+' :: rest => (some '+', rest)
  | '-' :: rest => (some '-', rest)
  | cs => (none, cs)

def takeExponent? : List Char → Option (Option (Option Char × List Char) × List Char)
  | c :: cs =>
    if c = 'e' ∨ c = 'E' then
      let (sign, rest) := takeSign cs
      (takeDigits? rest).map fun (digits, rest) => (some (sign, digits), rest)
    else some (none, c :: cs)
  | [] => some (none, [])

def read? (cs : List Char) : Option (Numeral × List Char) := do
  let (negative, cs) := match cs with
    | '-' :: rest => (true, rest)
    | cs => (false, cs)
  let (whole, cs) ← takeWhole? cs
  let (fraction, cs) ← takeFraction? cs
  let (exponent, cs) ← takeExponent? cs
  return (⟨negative, whole, fraction, exponent⟩, cs)

end Numeral

namespace Document

/-- A quoted text, without the opening quote. -/
def readQuoted? (cs : List Char) : Option (Option String × List Char) :=
  (quotedItems? cs).map fun (items, rest) => ((QuotedItem.join items).map String.ofList, rest)

mutual

/-- One document, after white space. -/
def read? : Nat → List Char → Option (Document × List Char)
  | 0, _ => none
  | steps + 1, cs =>
    match skipSpace cs with
    | 'n' :: 'u' :: 'l' :: 'l' :: rest => some (null, rest)
    | 't' :: 'r' :: 'u' :: 'e' :: rest => some (bool true, rest)
    | 'f' :: 'a' :: 'l' :: 's' :: 'e' :: rest => some (bool false, rest)
    | '"' :: rest => (readQuoted? rest).map fun (value, rest) => (text value, rest)
    | '[' :: rest =>
      match skipSpace rest with
      | ']' :: rest => some (array [], rest)
      | rest => (readItems? steps rest).map fun (items, rest) => (array items, rest)
    | '{' :: rest =>
      match skipSpace rest with
      | '}' :: rest => some (object [], rest)
      | rest => (readMembers? steps rest).map fun (members, rest) => (object members, rest)
    | rest => (Numeral.read? rest).map fun (value, rest) => (number value, rest)

/-- The items of an array, at least one, and the closing bracket. -/
def readItems? : Nat → List Char → Option (List Document × List Char)
  | 0, _ => none
  | steps + 1, cs => do
    let (item, rest) ← read? steps cs
    match skipSpace rest with
    | ',' :: rest =>
      let (items, rest) ← readItems? steps rest
      return (item :: items, rest)
    | ']' :: rest => return ([item], rest)
    | _ => none

/-- The members of an object, at least one, and the closing brace. -/
def readMembers? : Nat → List Char → Option (List (Option String × Document) × List Char)
  | 0, _ => none
  | steps + 1, cs =>
    match skipSpace cs with
    | '"' :: rest => do
      let (name, rest) ← readQuoted? rest
      match skipSpace rest with
      | ':' :: rest =>
        let (value, rest) ← read? steps rest
        match skipSpace rest with
        | ',' :: rest =>
          let (members, rest) ← readMembers? steps rest
          return ((name, value) :: members, rest)
        | '}' :: rest => return ([(name, value)], rest)
        | _ => none
      | _ => none
    | _ => none

end

/-- The document a whole text is. -/
def parse? (s : String) : Option Document :=
  let cs := s.toList
  match read? (cs.length + 1) cs with
  | some (d, rest) => if skipSpace rest = [] then some d else none
  | none => none

end Document
end BlockStage.Json
