import BlockStage.Json.Grammar

/-! Every text between quotes is read as itself. -/

namespace BlockStage.Json

open Text (hexDigit hexValue_hexDigit)

def QuotedItem.ofEscape (c : Char) : QuotedItem :=
  if (escape c).take 2 = ['\\', 'u'] then .unit c.toNat else .char c

theorem escape_cases (c : Char) :
    (∃ e, plainEscape? e = some c ∧ escape c = ['\\', e] ∧ QuotedItem.ofEscape c = .char c) ∨
    (c.toNat < 0x20 ∧
      escape c = ['\\', 'u', '0', '0', hexDigit (c.toNat / 16), hexDigit (c.toNat % 16)] ∧
      QuotedItem.ofEscape c = .unit c.toNat) ∨
    (c ≠ '"' ∧ c ≠ '\\' ∧ ¬ c.toNat < 0x20 ∧ escape c = [c] ∧ QuotedItem.ofEscape c = .char c) := by
  by_cases named : c ∈ ['"', '\\', '\x08', '\x0c', '\n', '\r', '\t']
  · left
    simp only [List.mem_cons, List.not_mem_nil, or_false] at named
    rcases named with rfl | rfl | rfl | rfl | rfl | rfl | rfl
    · exact ⟨'"', rfl, rfl, rfl⟩
    · exact ⟨'\\', rfl, rfl, rfl⟩
    · exact ⟨'b', rfl, rfl, rfl⟩
    · exact ⟨'f', rfl, rfl, rfl⟩
    · exact ⟨'n', rfl, rfl, rfl⟩
    · exact ⟨'r', rfl, rfl, rfl⟩
    · exact ⟨'t', rfl, rfl, rfl⟩
  · right
    simp only [List.mem_cons, List.not_mem_nil, or_false, not_or] at named
    obtain ⟨quote, backslash, back, feed, line, ret, tab⟩ := named
    by_cases control : c.toNat < 0x20
    · left
      simp [QuotedItem.ofEscape, escape, quote, backslash, back, feed, line, ret, tab, control]
    · right
      simp [QuotedItem.ofEscape, escape, quote, backslash, back, feed, line, ret, tab, control]

theorem hexUnit?_escape {n : Nat} (small : n < 0x20) :
    hexUnit? '0' '0' (hexDigit (n / 16)) (hexDigit (n % 16)) = some n := by
  have zero := hexValue_hexDigit 0
  have high := hexValue_hexDigit ⟨n / 16, by omega⟩
  have low := hexValue_hexDigit ⟨n % 16, by omega⟩
  change Text.hexValue? '0' = some 0 at zero
  simp only [hexUnit?, zero, high, low]
  change some (((0 * 16 + 0) * 16 + n / 16) * 16 + n % 16) = some n
  congr 1
  omega

theorem quotedItems?_unit {a b c d : Char} {n : Nat} (stands : hexUnit? a b c d = some n)
    (rest : List Char) :
    quotedItems? ('\\' :: 'u' :: a :: b :: c :: d :: rest) =
      (quotedItems? rest).map fun (items, tail) => (.unit n :: items, tail) := by
  simp only [quotedItems?, stands]
  cases quotedItems? rest <;> rfl

theorem quotedItems?_plain {e c : Char} (stands : plainEscape? e = some c) (rest : List Char) :
    quotedItems? ('\\' :: e :: rest) =
      (quotedItems? rest).map fun (items, tail) => (.char c :: items, tail) := by
  have other : e ≠ 'u' := by
    rintro rfl
    contradiction
  rw [quotedItems?.eq_4 _ _ (by simp [other])]
  simp only [stands]
  cases quotedItems? rest <;> rfl

theorem quotedItems?_self {c : Char} (quote : c ≠ '"') (backslash : c ≠ '\\')
    (visible : ¬ c.toNat < 0x20) (rest : List Char) :
    quotedItems? (c :: rest) =
      (quotedItems? rest).map fun (items, tail) => (.char c :: items, tail) := by
  rw [quotedItems?.eq_5 _ _ quote (by simp [backslash]) (by simp [backslash]),
    if_neg (by simp [visible, backslash])]
  cases quotedItems? rest <;> rfl

theorem quotedItems?_escape (c : Char) (rest : List Char) :
    quotedItems? (escape c ++ rest) =
      (quotedItems? rest).map fun (items, tail) => (.ofEscape c :: items, tail) := by
  rcases escape_cases c with
    ⟨e, stands, written, item⟩ | ⟨control, written, item⟩ |
      ⟨quote, backslash, visible, written, item⟩
  all_goals rw [written, item]
  · exact quotedItems?_plain stands rest
  · exact quotedItems?_unit (hexUnit?_escape control) rest
  · exact quotedItems?_self quote backslash visible rest

namespace QuotedItem

theorem join_char (c : Char) (items : List QuotedItem) :
    join (.char c :: items) = (join items).map (c :: ·) := by
  rw [join]

theorem join_unit {n : Nat} (whole : isHigh n = false ∧ isLow n = false)
    (items : List QuotedItem) :
    join (.unit n :: items) = (join items).map (Char.ofNat n :: ·) := by
  match items with
  | [] => simp [join, whole]
  | .char c :: rest => simp [join, whole, Function.comp_def]
  | .unit m :: rest => simp [join, whole]

theorem join_ofEscape (c : Char) (items : List QuotedItem) :
    join (.ofEscape c :: items) = (join items).map (c :: ·) := by
  rcases escape_cases c with
    ⟨_, _, _, item⟩ | ⟨control, _, item⟩ | ⟨_, _, _, _, item⟩
  all_goals rw [item]
  · exact join_char c items
  · have whole : isHigh c.toNat = false ∧ isLow c.toNat = false := by
      simp only [isHigh, isLow, Bool.and_eq_false_iff, decide_eq_false_iff_not]
      omega
    rw [join_unit whole, Char.ofNat_toNat]
  · exact join_char c items

end QuotedItem

theorem readQuoted?_quote (s : String) (rest : List Char) :
    Document.readQuoted? (s.toList.foldr (fun c tail => escape c ++ tail) ('"' :: rest)) =
      some (some s, rest) := by
  have items (cs : List Char) :
      quotedItems? (cs.foldr (fun c tail => escape c ++ tail) ('"' :: rest)) =
        some (cs.map .ofEscape, rest) := by
    induction cs with
    | nil => rfl
    | cons c cs ih => rw [List.foldr_cons, quotedItems?_escape, ih, List.map_cons, Option.map_some]
  have joined (cs : List Char) : QuotedItem.join (cs.map .ofEscape) = some cs := by
    induction cs with
    | nil => rfl
    | cons c cs ih => rw [List.map_cons, QuotedItem.join_ofEscape, ih, Option.map_some]
  simp only [Document.readQuoted?, items, Option.map_some, joined, String.ofList_toList]

end BlockStage.Json
