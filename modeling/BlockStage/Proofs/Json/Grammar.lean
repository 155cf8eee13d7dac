import BlockStage.Proofs.Json.Numerals
import BlockStage.Proofs.Json.Quoted

/-! Every document is read as it was written. -/

namespace BlockStage.Json

open Numeral (Ends)

theorem length_quote (s : String) (rest : List Char) : rest.length < (quote s rest).length := by
  have inner (cs : List Char) :
      rest.length < (cs.foldr (fun c tail => escape c ++ tail) ('"' :: rest)).length := by
    induction cs with
    | nil => exact Nat.lt_succ_self _
    | cons c cs ih =>
      rw [List.foldr_cons, List.length_append]
      omega
  exact Nat.lt_succ_of_lt (inner s.toList)

theorem skipSpace_cons {c : Char} (h : isSpace c = false) (cs : List Char) :
    skipSpace (c :: cs) = c :: cs := by
  simp [skipSpace, h]

theorem isSpace_of_isDigit {c : Char} (h : c.isDigit) : isSpace c = false := by
  simp only [isSpace, Bool.or_eq_false_iff, decide_eq_false_iff_not]
  refine ⟨⟨⟨?_, ?_⟩, ?_⟩, ?_⟩
  all_goals
    rintro rfl
    contradiction

namespace Document

/-- All numbers are written as numbers are, and all texts stand for texts. -/
inductive Proper : Document → Prop
  | null : Proper null
  | bool (b : Bool) : Proper (bool b)
  | number {n : Numeral} (h : n.Proper) : Proper (number n)
  | text (s : String) : Proper (text (some s))
  | array {items : List Document} (h : ∀ item ∈ items, Proper item) : Proper (array items)
  | object {members : List (Option String × Document)} (names : ∀ p ∈ members, p.1.isSome)
      (values : ∀ p ∈ members, Proper p.2) : Proper (object members)

theorem head_charsBefore {d : Document} (h : d.Proper) (rest : List Char) :
    ∃ c cs, d.charsBefore rest = c :: cs ∧ isSpace c = false ∧ c ≠ ']' := by
  cases h with
  | null => exact ⟨'n', _, rfl, rfl, by decide⟩
  | bool b =>
    cases b with
    | true => exact ⟨'t', _, rfl, rfl, by decide⟩
    | false => exact ⟨'f', _, rfl, rfl, by decide⟩
  | @number n h =>
    obtain ⟨c, cs, written, first⟩ := Numeral.head_chars h rest
    refine ⟨c, cs, written, ?_⟩
    rcases first with rfl | digit
    · decide
    · exact ⟨isSpace_of_isDigit digit, by rintro rfl; contradiction⟩
  | text s => exact ⟨'"', _, rfl, rfl, by decide⟩
  | array h => exact ⟨'[', _, rfl, rfl, by decide⟩
  | object names values => exact ⟨'\x7b', _, rfl, rfl, by decide⟩

theorem head_itemsBefore {item : Document} {items : List Document}
    (h : ∀ d ∈ item :: items, d.Proper) (rest : List Char) :
    ∃ c cs, itemsBefore (item :: items) rest = c :: cs ∧ isSpace c = false ∧ c ≠ ']' := by
  cases items with
  | nil => exact head_charsBefore (h item List.mem_cons_self) rest
  | cons next items => exact head_charsBefore (h item List.mem_cons_self) _

theorem head_membersBefore (p : Option String × Document)
    (members : List (Option String × Document)) (rest : List Char) :
    ∃ cs, membersBefore (p :: members) rest = '"' :: cs := by
  cases members <;> exact ⟨_, rfl⟩

mutual

theorem length_charsBefore {d : Document} (h : d.Proper) (rest : List Char) :
    rest.length < (d.charsBefore rest).length := by
  match d, h with
  | null, _ =>
    rw [charsBefore, List.length_append]
    exact Nat.lt_add_of_pos_left (by decide)
  | bool true, _ =>
    rw [charsBefore, List.length_append]
    exact Nat.lt_add_of_pos_left (by decide)
  | bool false, _ =>
    rw [charsBefore, List.length_append]
    exact Nat.lt_add_of_pos_left (by decide)
  | number n, .number h =>
    obtain ⟨c, cs, written, -⟩ := Numeral.head_chars h []
    rw [List.append_nil] at written
    simp only [charsBefore, written, List.cons_append, List.length_cons, List.length_append]
    omega
  | text s, _ => exact length_quote _ _
  | array items, .array h =>
    have := length_itemsBefore h (']' :: rest)
    simp only [charsBefore, List.length_cons] at this ⊢
    omega
  | object members, .object names values =>
    have := length_membersBefore values ('}' :: rest)
    simp only [charsBefore, List.length_cons] at this ⊢
    omega

theorem length_itemsBefore {items : List Document} (h : ∀ item ∈ items, item.Proper)
    (rest : List Char) : rest.length ≤ (itemsBefore items rest).length := by
  match items with
  | [] => exact Nat.le_refl _
  | [item] => exact Nat.le_of_lt (length_charsBefore (h item List.mem_cons_self) rest)
  | item :: next :: items =>
    have first := length_charsBefore (h item List.mem_cons_self)
      (',' :: itemsBefore (next :: items) rest)
    have later : ∀ d ∈ next :: items, d.Proper := fun d hd => h d (List.mem_cons_of_mem _ hd)
    have others := length_itemsBefore later rest
    simp only [itemsBefore, List.length_cons] at first others ⊢
    omega

theorem length_membersBefore {members : List (Option String × Document)}
    (h : ∀ p ∈ members, p.2.Proper) (rest : List Char) :
    rest.length ≤ (membersBefore members rest).length := by
  match members with
  | [] => exact Nat.le_refl _
  | [(name, value)] =>
    have quoted := length_quote (name.getD "") (':' :: value.charsBefore rest)
    have last := length_charsBefore (h (name, value) List.mem_cons_self) rest
    simp only [membersBefore, List.length_cons] at quoted last ⊢
    omega
  | (name, value) :: next :: members =>
    have quoted := length_quote (name.getD "")
      (':' :: value.charsBefore (',' :: membersBefore (next :: members) rest))
    have first := length_charsBefore (h (name, value) List.mem_cons_self)
      (',' :: membersBefore (next :: members) rest)
    have later : ∀ p ∈ next :: members, p.2.Proper := fun p hp => h p (List.mem_cons_of_mem _ hp)
    have others := length_membersBefore later rest
    simp only [membersBefore, List.length_cons] at quoted first others ⊢
    omega

end

/-! ### Reading -/

theorem ends_cons {c : Char} (h : c = ',' ∨ c = ']' ∨ c = '\x7d') (rest : List Char) :
    Ends (c :: rest) := by
  rintro _ ⟨⟩
  rcases h with rfl | rfl | rfl <;> decide

theorem read?_number {n : Numeral} (h : n.Proper) {rest : List Char} (ends : Ends rest)
    (steps : Nat) : read? (steps + 1) (n.chars ++ rest) = some (number n, rest) := by
  obtain ⟨c, cs, written, first⟩ := Numeral.head_chars h rest
  have read := Numeral.read?_chars h ends
  rw [written] at read ⊢
  have space : isSpace c = false := by
    rcases first with rfl | digit
    · rfl
    · exact isSpace_of_isDigit digit
  have other (c' : Char) (minus : c' ≠ '-') (digit : c'.isDigit = false) : c ≠ c' := by
    rintro rfl
    rcases first with rfl | h
    · exact minus rfl
    · rw [digit] at h
      contradiction
  rw [Document.read?, skipSpace_cons space]
  split
  any_goals
    rename_i same
    exact absurd (List.cons.inj same).1 (other _ (by decide) (by decide))
  rw [read]
  rfl

theorem readMembers?_last {steps : Nat} {name : String} {cs rest : List Char} {value : Document}
    (read : read? steps cs = some (value, '\x7d' :: rest)) :
    readMembers? (steps + 1) (quote name (':' :: cs)) = some ([(some name, value)], rest) := by
  have quoted := readQuoted?_quote name (':' :: cs)
  rw [readMembers?, quote, skipSpace_cons rfl]
  simp only [quoted, read, Option.bind_eq_bind, Option.bind_some, Option.pure_def,
    skipSpace_cons (show isSpace ':' = false from rfl),
    skipSpace_cons (show isSpace '\x7d' = false from rfl)]

theorem readMembers?_more {steps : Nat} {name : String} {cs tail rest : List Char}
    {value : Document} {members : List (Option String × Document)}
    (read : read? steps cs = some (value, ',' :: tail))
    (others : readMembers? steps tail = some (members, rest)) :
    readMembers? (steps + 1) (quote name (':' :: cs)) =
      some ((some name, value) :: members, rest) := by
  have quoted := readQuoted?_quote name (':' :: cs)
  rw [readMembers?, quote, skipSpace_cons rfl]
  simp only [quoted, read, others, Option.bind_eq_bind, Option.bind_some, Option.pure_def,
    skipSpace_cons (show isSpace ':' = false from rfl),
    skipSpace_cons (show isSpace ',' = false from rfl)]

mutual

theorem read?_charsBefore {d : Document} (h : d.Proper) {steps : Nat} {rest : List Char}
    (ends : Ends rest) (enough : (d.charsBefore rest).length ≤ steps + rest.length) :
    read? steps (d.charsBefore rest) = some (d, rest) := by
  have more := length_charsBefore h rest
  obtain ⟨steps, rfl⟩ : ∃ n, steps = n + 1 := ⟨steps - 1, by omega⟩
  match d, h with
  | null, _ => rfl
  | bool true, _ => rfl
  | bool false, _ => rfl
  | number n, .number h => exact read?_number h ends steps
  | text _, .text s =>
    have read := readQuoted?_quote s rest
    rw [charsBefore, quote, Document.read?, skipSpace_cons rfl]
    simp only [Option.getD_some, read, Option.map_some]
  | array [], _ => rfl
  | array (item :: items), .array h =>
    have read : readItems? steps (itemsBefore (item :: items) (']' :: rest)) =
        some (item :: items, rest) :=
      readItems?_itemsBefore h (by simp)
        (by simp only [charsBefore, List.length_cons] at enough ⊢; omega)
    obtain ⟨c, cs, first, space, other⟩ := head_itemsBefore h (']' :: rest)
    rw [first] at read
    rw [charsBefore, first, Document.read?, skipSpace_cons rfl]
    simp only [skipSpace_cons space]
    split
    · rename_i same
      exact absurd (List.cons.inj same).1 other
    · rw [read]
      rfl
  | object [], _ => rfl
  | object (p :: members), .object names values =>
    have read : readMembers? steps (membersBefore (p :: members) ('\x7d' :: rest)) =
        some (p :: members, rest) :=
      readMembers?_membersBefore names values (by simp)
        (by simp only [charsBefore, List.length_cons] at enough ⊢; omega)
    obtain ⟨cs, first⟩ := head_membersBefore p members ('\x7d' :: rest)
    rw [first] at read
    rw [charsBefore, first, Document.read?, skipSpace_cons rfl]
    simp only [skipSpace_cons (show isSpace '"' = false from rfl)]
    split
    · rename_i same
      exact absurd (List.cons.inj same).1 (by decide)
    · rw [read]
      rfl

theorem readItems?_itemsBefore {items : List Document} (h : ∀ item ∈ items, item.Proper)
    {steps : Nat} {rest : List Char} (some_item : items ≠ [])
    (enough : (itemsBefore items (']' :: rest)).length ≤ steps + rest.length) :
    readItems? steps (itemsBefore items (']' :: rest)) = some (items, rest) := by
  match items with
  | [] => contradiction
  | [item] =>
    have more := length_charsBefore (h item List.mem_cons_self) (']' :: rest)
    simp only [itemsBefore, List.length_cons] at more enough ⊢
    obtain ⟨steps, rfl⟩ : ∃ n, steps = n + 1 := ⟨steps - 1, by omega⟩
    have read : read? steps (item.charsBefore (']' :: rest)) = some (item, ']' :: rest) :=
      read?_charsBefore (h item List.mem_cons_self) (ends_cons (by simp) rest)
        (by simp only [List.length_cons]; omega)
    simp [readItems?, read, skipSpace_cons (show isSpace ']' = false from rfl)]
  | item :: next :: items =>
    have more := length_charsBefore (h item List.mem_cons_self)
      (',' :: itemsBefore (next :: items) (']' :: rest))
    have later : ∀ d ∈ next :: items, d.Proper := fun d hd => h d (List.mem_cons_of_mem _ hd)
    have least := length_itemsBefore later (']' :: rest)
    simp only [itemsBefore, List.length_cons] at more least enough ⊢
    obtain ⟨steps, rfl⟩ : ∃ n, steps = n + 1 := ⟨steps - 1, by omega⟩
    have read : read? steps (item.charsBefore (',' :: itemsBefore (next :: items) (']' :: rest))) =
        some (item, ',' :: itemsBefore (next :: items) (']' :: rest)) :=
      read?_charsBefore (h item List.mem_cons_self) (ends_cons (by simp) _)
        (by simp only [List.length_cons]; omega)
    have others : readItems? steps (itemsBefore (next :: items) (']' :: rest)) =
        some (next :: items, rest) := readItems?_itemsBefore later (by simp) (by omega)
    simp [readItems?, read, others, skipSpace_cons (show isSpace ',' = false from rfl)]

theorem readMembers?_membersBefore {members : List (Option String × Document)}
    (names : ∀ p ∈ members, p.1.isSome) (values : ∀ p ∈ members, p.2.Proper)
    {steps : Nat} {rest : List Char} (some_member : members ≠ [])
    (enough : (membersBefore members ('\x7d' :: rest)).length ≤ steps + rest.length) :
    readMembers? steps (membersBefore members ('\x7d' :: rest)) = some (members, rest) := by
  match members with
  | [] => contradiction
  | [(name, value)] =>
    obtain ⟨name, rfl⟩ := Option.isSome_iff_exists.1 (names _ List.mem_cons_self)
    have proper : value.Proper := values (some name, value) List.mem_cons_self
    have more := length_charsBefore proper ('\x7d' :: rest)
    have longer := length_quote name (':' :: value.charsBefore ('\x7d' :: rest))
    simp only [membersBefore, List.length_cons, Option.getD_some] at more longer enough ⊢
    obtain ⟨steps, rfl⟩ : ∃ n, steps = n + 1 := ⟨steps - 1, by omega⟩
    have read : read? steps (value.charsBefore ('\x7d' :: rest)) = some (value, '\x7d' :: rest) :=
      read?_charsBefore proper (ends_cons (by simp) rest) (by simp only [List.length_cons]; omega)
    exact readMembers?_last read
  | (name, value) :: next :: members =>
    obtain ⟨name, rfl⟩ := Option.isSome_iff_exists.1 (names _ List.mem_cons_self)
    have proper : value.Proper := values (some name, value) List.mem_cons_self
    have names' : ∀ p ∈ next :: members, p.1.isSome := fun p hp =>
      names p (List.mem_cons_of_mem _ hp)
    have values' : ∀ p ∈ next :: members, p.2.Proper := fun p hp =>
      values p (List.mem_cons_of_mem _ hp)
    have more := length_charsBefore proper (',' :: membersBefore (next :: members) ('\x7d' :: rest))
    have longer := length_quote name
      (':' :: value.charsBefore (',' :: membersBefore (next :: members) ('\x7d' :: rest)))
    have least := length_membersBefore values' ('\x7d' :: rest)
    simp only [membersBefore, List.length_cons, Option.getD_some] at more longer least enough ⊢
    obtain ⟨steps, rfl⟩ : ∃ n, steps = n + 1 := ⟨steps - 1, by omega⟩
    have read : read? steps
        (value.charsBefore (',' :: membersBefore (next :: members) ('\x7d' :: rest))) =
        some (value, ',' :: membersBefore (next :: members) ('\x7d' :: rest)) :=
      read?_charsBefore proper (ends_cons (by simp) _) (by simp only [List.length_cons]; omega)
    have others : readMembers? steps (membersBefore (next :: members) ('\x7d' :: rest)) =
        some (next :: members, rest) :=
      readMembers?_membersBefore names' values' (by simp) (by omega)
    exact readMembers?_more read others

end

theorem parse?_render {d : Document} (h : d.Proper) : parse? d.render = some d := by
  have ends : Ends [] := nofun
  have read : read? ((d.charsBefore []).length + 1) (d.charsBefore []) = some (d, []) :=
    read?_charsBefore h ends (Nat.le_succ_of_le (Nat.le_refl _))
  simp [parse?, render, read, skipSpace]

end Document
end BlockStage.Json
