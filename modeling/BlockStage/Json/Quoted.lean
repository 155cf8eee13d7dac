import BlockStage.Text.Hex

/-!
Quoted text. Inside the quotes a backslash starts an escape, and control characters stand only as
escapes. An escape may name half of a character outside the first plane; a half without its
partner can be written but stands for no text.
-/

namespace BlockStage.Json

open Text (hexValue? hexDigit)

/-- One item between the quotes: a character, or a 16-bit unit written by its number. -/
inductive QuotedItem
  | char (c : Char)
  | unit (n : Nat)

namespace QuotedItem

def isHigh (n : Nat) : Bool := 0xd800 ≤ n && n < 0xdc00

def isLow (n : Nat) : Bool := 0xdc00 ≤ n && n < 0xe000

/-- The text of a list of items; `none` if a half lacks its partner. -/
def join : List QuotedItem → Option (List Char)
  | [] => some []
  | .char c :: rest => (join rest).map (c :: ·)
  | [.unit n] => if isHigh n || isLow n then none else some [Char.ofNat n]
  | .unit n :: .char c :: rest =>
    if isHigh n || isLow n then none else (join rest).map (Char.ofNat n :: c :: ·)
  | .unit n :: .unit m :: rest =>
    if isHigh n then
      if isLow m then
        (join rest).map (Char.ofNat (0x10000 + (n - 0xd800) * 0x400 + (m - 0xdc00)) :: ·)
      else none
    else if isLow n then none
    else (join (.unit m :: rest)).map (Char.ofNat n :: ·)

end QuotedItem

def hexUnit? (a b c d : Char) : Option Nat := do
  let a ← hexValue? a
  let b ← hexValue? b
  let c ← hexValue? c
  let d ← hexValue? d
  return ((a * 16 + b) * 16 + c) * 16 + d

/-- The character a one-letter escape stands for. -/
def plainEscape? : Char → Option Char
  | '"' => some '"'
  | '\\' => some '\\'
  | '/' => some '/'
  | 'b' => some '\x08'
  | 'f' => some '\x0c'
  | 'n' => some '\n'
  | 'r' => some '\r'
  | 't' => some '\t'
  | _ => none

/-- The items up to the closing quote, and what follows it. -/
def quotedItems? : List Char → Option (List QuotedItem × List Char)
  | [] => none
  | '"' :: rest => some ([], rest)
  | '\\' :: 'u' :: a :: b :: c :: d :: rest => do
    let n ← hexUnit? a b c d
    let (items, rest) ← quotedItems? rest
    return (.unit n :: items, rest)
  | '\\' :: e :: rest => do
    let c ← plainEscape? e
    let (items, rest) ← quotedItems? rest
    return (.char c :: items, rest)
  | c :: rest =>
    if c.toNat < 0x20 ∨ c = '\\' then none
    else do
      let (items, rest) ← quotedItems? rest
      return (.char c :: items, rest)

/-- The shortest escape of a character that needs one; every other character stands for itself. -/
def escape (c : Char) : List Char :=
  if c = '"' then ['\\', '"']
  else if c = '\\' then ['\\', '\\']
  else if c = '\x08' then ['\\', 'b']
  else if c = '\x0c' then ['\\', 'f']
  else if c = '\n' then ['\\', 'n']
  else if c = '\r' then ['\\', 'r']
  else if c = '\t' then ['\\', 't']
  else if c.toNat < 0x20 then
    ['\\', 'u', '0', '0', hexDigit (c.toNat / 16), hexDigit (c.toNat % 16)]
  else [c]

/-- A text between quotes, in front of `rest`. -/
def quote (s : String) (rest : List Char) : List Char :=
  '"' :: s.toList.foldr (fun c tail => escape c ++ tail) ('"' :: rest)

end BlockStage.Json
