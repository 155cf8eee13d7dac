import BlockStage.Palette.Parameter
import BlockStage.Proofs.Scene.Colours
import BlockStage.Scene.Project
import Mathlib.Data.List.Basic
import Mathlib.Data.List.TakeWhile

/-! Which texts are read as colours. Besides three or six digits, perhaps after a number sign, these
are digits after several number signs, and a plus sign in place of the first of six digits. -/

namespace BlockStage

namespace Color

open Text (hexValue?)

/-! ### Digits -/

def Spells (cs : List Char) (digits : List (Fin 16)) : Prop :=
  cs.map hexValue? = digits.map fun d => some d.val

variable {c : Char} {cs : List Char} {d : Fin 16} {digits : List (Fin 16)}

theorem spells_nil_iff : Spells [] digits ↔ digits = [] := by
  rw [Spells, List.map_nil, eq_comm, List.map_eq_nil_iff]

theorem spells_cons_iff : Spells (c :: cs) digits ↔
    ∃ d rest, digits = d :: rest ∧ hexValue? c = some d.val ∧ Spells cs rest := by
  cases digits with
  | nil => simp [Spells]
  | cons d rest => simp [Spells]

theorem digit_of_hexValue? {n : Nat} (h : hexValue? c = some n) :
    n < 16 ∧ c.utf8Size = 1 ∧ c ≠ '#' ∧ c ≠ '+' := by
  have other {sign : Char} (no : hexValue? sign = none) : c ≠ sign := by
    rintro rfl
    rw [h] at no
    contradiction
  have bounds : n < 16 ∧ c.toNat ≤ 127 := by
    have within {low high : Char} (h : low ≤ c ∧ c ≤ high) :
        low.toNat ≤ c.toNat ∧ c.toNat ≤ high.toNat := h
    unfold hexValue? at h
    split at h
    · rename_i decimal
      obtain ⟨low, high⟩ : 48 ≤ c.toNat ∧ c.toNat ≤ 57 := within decimal
      obtain rfl := Option.some.inj h
      omega
    · split at h
      · rename_i lower
        obtain ⟨low, high⟩ : 97 ≤ c.toNat ∧ c.toNat ≤ 102 := within lower
        obtain rfl := Option.some.inj h
        omega
      · split at h
        · rename_i upper
          obtain ⟨low, high⟩ : 65 ≤ c.toNat ∧ c.toNat ≤ 70 := within upper
          obtain rfl := Option.some.inj h
          omega
        · contradiction
  exact ⟨bounds.1, Char.utf8Size_eq_one_iff.2 bounds.2, other (by decide), other (by decide)⟩

theorem byteCount_of_spells (h : Spells cs digits) : byteCount cs = digits.length := by
  induction cs generalizing digits with
  | nil =>
    rw [spells_nil_iff.1 h]
    rfl
  | cons c rest ih =>
    obtain ⟨d, later, rfl, value, spelled⟩ := spells_cons_iff.1 h
    rw [byteCount_cons, (digit_of_hexValue? value).2.1, ih spelled, List.length_cons, Nat.add_comm]

theorem foldl_none : cs.foldl (fun value c => do return (← value) * 16 + (← hexValue? c)) none =
    (none : Option Nat) := by
  induction cs with
  | nil => rfl
  | cons c rest ih => exact ih

theorem foldl_eq_some_iff {value n : Nat} :
    cs.foldl (fun value c => do return (← value) * 16 + (← hexValue? c)) (some value) = some n ↔
      ∃ digits, Spells cs digits ∧
        n = digits.foldl (fun value d => value * 16 + d.val) value := by
  induction cs generalizing value with
  | nil => simp [spells_nil_iff, eq_comm]
  | cons c rest ih =>
    rw [List.foldl_cons]
    cases h : hexValue? c with
    | none =>
      refine iff_of_false (fun read => ?_) ?_
      · have lost := foldl_none.symm.trans read
        contradiction
      · rintro ⟨digits, spelled, -⟩
        obtain ⟨d, later, -, value, -⟩ := spells_cons_iff.1 spelled
        rw [h] at value
        contradiction
    | some v =>
      refine Iff.trans ih ?_
      simp only [spells_cons_iff, h, Option.some.injEq]
      constructor
      · rintro ⟨digits, spelled, rfl⟩
        exact ⟨⟨v, (digit_of_hexValue? h).1⟩ :: digits, ⟨_, _, rfl, rfl, spelled⟩, rfl⟩
      · rintro ⟨-, ⟨d, digits, rfl, rfl, spelled⟩, rfl⟩
        exact ⟨digits, spelled, rfl⟩

theorem hexDigits?_eq_some_iff {n : Nat} : hexDigits? cs = some n ↔
    ∃ digits, digits ≠ [] ∧ Spells cs digits ∧ n = ofDigits digits := by
  cases cs with
  | nil => simp [hexDigits?, spells_nil_iff]
  | cons c rest =>
    refine foldl_eq_some_iff.trans (exists_congr fun digits => ⟨fun h => ⟨?_, h⟩, And.right⟩)
    obtain ⟨d, later, rfl, -⟩ := spells_cons_iff.1 h.1
    exact List.cons_ne_nil _ _

theorem head_of_spells (h : Spells (c :: cs) digits) : c ≠ '#' ∧ c ≠ '+' := by
  obtain ⟨d, rest, -, value, -⟩ := spells_cons_iff.1 h
  exact (digit_of_hexValue? value).2.2

theorem hexNumber?_eq_some_iff {n : Nat} : hexNumber? cs = some n ↔
    ∃ digits, digits ≠ [] ∧ n = ofDigits digits ∧
      (Spells cs digits ∨ ∃ rest, cs = '+' :: rest ∧ Spells rest digits) := by
  by_cases signed : ∃ rest, cs = '+' :: rest
  · obtain ⟨rest, rfl⟩ := signed
    have none (digits : List (Fin 16)) : ¬ Spells ('+' :: rest) digits :=
      fun spelled => (head_of_spells spelled).2 rfl
    simp only [hexNumber?, hexDigits?_eq_some_iff, none, false_or, List.cons.injEq, true_and,
      exists_eq_left', and_comm]
  · have unsigned : hexNumber? cs = hexDigits? cs := by
      rw [hexNumber?]
      exact fun rest plus => signed ⟨rest, plus⟩
    have none (digits : List (Fin 16)) : ¬ ∃ rest, cs = '+' :: rest ∧ Spells rest digits := by
      rintro ⟨rest, plus, -⟩
      exact signed ⟨rest, plus⟩
    simp only [unsigned, hexDigits?_eq_some_iff, none, or_false, and_comm]

theorem spells_twice_iff : Spells (cs.flatMap fun c => [c, c]) digits ↔
    ∃ once, Spells cs once ∧ digits = once.flatMap fun d => [d, d] := by
  induction cs generalizing digits with
  | nil => simp [spells_nil_iff]
  | cons c rest ih =>
    simp only [List.flatMap_cons, List.cons_append, List.nil_append, spells_cons_iff, ih]
    constructor
    · rintro ⟨d, -, rfl, value, d', -, rfl, value', once, spelled, rfl⟩
      obtain rfl : d = d' := Fin.ext (Option.some.inj (value.symm.trans value'))
      exact ⟨d :: once, ⟨d, once, rfl, value, spelled⟩, rfl⟩
    · rintro ⟨-, ⟨d, once, rfl, value, spelled⟩, rfl⟩
      exact ⟨d, _, rfl, value, d, _, rfl, value, once, spelled, rfl⟩

/-! ### Texts -/

/-- Three digits, each of which counts twice, or six. -/
inductive Plain : List Char → Nat → Prop
  | short {cs : List Char} {r g b : Fin 16} (h : Spells cs [r, g, b]) :
      Plain cs (ofDigits [r, r, g, g, b, b])
  | long {cs : List Char} {digits : List (Fin 16)} (h : Spells cs digits)
      (six : digits.length = 6) : Plain cs (ofDigits digits)

inductive Signed : List Char → Nat → Prop
  | plus {cs : List Char} {digits : List (Fin 16)} (h : Spells cs digits)
      (five : digits.length = 5) : Signed ('+' :: cs) (ofDigits digits)

/-- A colour as it should be written: three or six digits, perhaps after one number sign. -/
def Proper (cs : List Char) (packed : Nat) : Prop :=
  ∃ body, (cs = body ∨ cs = '#' :: body) ∧ Plain body packed

/-- What is read as a colour besides: after several number signs, or with a plus sign. -/
def Lenient (cs : List Char) (packed : Nat) : Prop :=
  ∃ signs body, cs = List.replicate signs '#' ++ body ∧
    (2 ≤ signs ∧ Plain body packed ∨ Signed body packed)

def readBody? (body : List Char) : Option Nat :=
  if byteCount body = 3 then hexNumber? (body.flatMap fun c => [c, c])
  else if byteCount body = 6 then hexNumber? body
  else none

theorem ofHex?_eq (text : String) :
    ofHex? text =
      (readBody? ((Text.trimChars text.toList).dropWhile (· = '#'))).map ofPacked := by
  rw [ofHex?, readBody?]
  split
  · rfl
  · split <;> rfl

variable {body : List Char} {packed : Nat}

theorem byteCount_of_plain (h : Plain body packed) : byteCount body = 3 ∨ byteCount body = 6 := by
  cases h with
  | short spelled => exact .inl (byteCount_of_spells spelled)
  | long spelled six => exact .inr ((byteCount_of_spells spelled).trans six)

theorem byteCount_of_signed (h : Signed body packed) : byteCount body = 6 := by
  cases h with
  | plus spelled five =>
    rw [byteCount_cons, byteCount_of_spells spelled, five]
    rfl

theorem hexNumber?_twice_iff (three : byteCount body = 3) :
    hexNumber? (body.flatMap fun c => [c, c]) = some packed ↔ Plain body packed := by
  rw [hexNumber?_eq_some_iff]
  constructor
  · rintro ⟨digits, -, rfl, spelled | ⟨rest, signed, spelled⟩⟩
    · obtain ⟨once, first, rfl⟩ := spells_twice_iff.1 spelled
      obtain ⟨r, g, b, rfl⟩ :=
        List.length_eq_three.1 ((byteCount_of_spells first).symm.trans three)
      exact .short first
    · cases body with
      | nil => contradiction
      | cons c later =>
        obtain ⟨rfl, rfl⟩ := List.cons.inj signed
        exact absurd rfl (head_of_spells spelled).2
  · intro plain
    cases plain with
    | short spelled =>
      exact ⟨_, List.cons_ne_nil _ _, rfl, .inl (spells_twice_iff.2 ⟨_, spelled, rfl⟩)⟩
    | long spelled six =>
      have := (byteCount_of_spells spelled).symm.trans three
      omega

theorem hexNumber?_six_iff (six : byteCount body = 6) :
    hexNumber? body = some packed ↔ Plain body packed ∨ Signed body packed := by
  rw [hexNumber?_eq_some_iff]
  constructor
  · rintro ⟨digits, -, rfl, spelled | ⟨rest, rfl, spelled⟩⟩
    · exact .inl (.long spelled ((byteCount_of_spells spelled).symm.trans six))
    · rw [byteCount_cons, byteCount_of_spells spelled] at six
      exact .inr (.plus spelled (Nat.add_left_cancel six))
  · rintro (plain | signed)
    · cases plain with
      | short spelled => exact absurd ((byteCount_of_spells spelled).symm.trans six) (by simp)
      | long spelled digits =>
        exact ⟨_, List.ne_nil_of_length_pos (by omega), rfl, .inl spelled⟩
    · cases signed with
      | plus spelled digits =>
        exact ⟨_, List.ne_nil_of_length_pos (by omega), rfl, .inr ⟨_, rfl, spelled⟩⟩

theorem readBody?_eq_some_iff :
    readBody? body = some packed ↔ Plain body packed ∨ Signed body packed := by
  unfold readBody?
  split
  · rename_i three
    have unsigned : ¬ Signed body packed := fun signed => by
      have := byteCount_of_signed signed
      omega
    rw [hexNumber?_twice_iff three, or_iff_left unsigned]
  · rename_i short
    split
    · rename_i six
      exact hexNumber?_six_iff six
    · rename_i long
      refine iff_of_false nofun ?_
      rintro (plain | signed)
      · exact (byteCount_of_plain plain).elim short long
      · exact long (byteCount_of_signed signed)

theorem dropWhile_signs (h : Plain body packed ∨ Signed body packed) (signs : Nat) :
    (List.replicate signs '#' ++ body).dropWhile (· = '#') = body := by
  have first : ∀ c ∈ body.head?, c ≠ '#' := by
    cases body with
    | nil => simp
    | cons c rest =>
      simp only [List.head?_cons, Option.mem_some_iff, forall_eq']
      rcases h with plain | signed
      · cases plain with
        | short spelled => exact (head_of_spells spelled).1
        | long spelled => exact (head_of_spells spelled).1
      · cases signed
        decide
  rw [List.dropWhile_append_of_pos (by simp +contextual)]
  cases body with
  | nil => rfl
  | cons c rest => exact List.dropWhile_cons_of_neg (by simpa using first c rfl)

theorem exists_signs (cs : List Char) :
    ∃ signs, cs = List.replicate signs '#' ++ cs.dropWhile (· = '#') := by
  refine ⟨(cs.takeWhile (· = '#')).length, ?_⟩
  have all : cs.takeWhile (· = '#') = List.replicate (cs.takeWhile (· = '#')).length '#' :=
    List.eq_replicate_of_mem fun c hc => by simpa using List.mem_takeWhile_imp hc
  rw [← all, List.takeWhile_append_dropWhile]

theorem readBody?_dropWhile_iff : readBody? (cs.dropWhile (· = '#')) = some packed ↔
    ∃ signs body, cs = List.replicate signs '#' ++ body ∧
      (Plain body packed ∨ Signed body packed) := by
  constructor
  · intro read
    obtain ⟨signs, split⟩ := exists_signs cs
    exact ⟨signs, _, split, readBody?_eq_some_iff.1 read⟩
  · rintro ⟨signs, body, rfl, read⟩
    rw [dropWhile_signs read]
    exact readBody?_eq_some_iff.2 read

theorem proper_or_lenient_iff : Proper cs packed ∨ Lenient cs packed ↔
    ∃ signs body, cs = List.replicate signs '#' ++ body ∧
      (Plain body packed ∨ Signed body packed) := by
  constructor
  · rintro (⟨body, rfl | rfl, plain⟩ | ⟨signs, body, rfl, ⟨-, plain⟩ | signed⟩)
    · exact ⟨0, cs, rfl, .inl plain⟩
    · exact ⟨1, body, rfl, .inl plain⟩
    · exact ⟨signs, body, rfl, .inl plain⟩
    · exact ⟨signs, body, rfl, .inr signed⟩
  · rintro ⟨signs, body, rfl, plain | signed⟩
    · match signs with
      | 0 => exact .inl ⟨body, .inl rfl, plain⟩
      | 1 => exact .inl ⟨body, .inr rfl, plain⟩
      | signs + 2 => exact .inr ⟨signs + 2, body, rfl, .inl ⟨Nat.le_add_left _ _, plain⟩⟩
    · exact .inr ⟨signs, body, rfl, .inr signed⟩

theorem not_lenient_of_proper {other : Nat} (proper : Proper cs packed) : ¬ Lenient cs other := by
  rintro ⟨signs, body, split, read⟩
  obtain ⟨few, digits, split', plain, le⟩ : ∃ few digits, cs = List.replicate few '#' ++ digits ∧
      Plain digits packed ∧ few ≤ 1 := by
    obtain ⟨digits, rfl | rfl, plain⟩ := proper
    · exact ⟨0, cs, rfl, plain, Nat.zero_le _⟩
    · exact ⟨1, digits, rfl, plain, Nat.le_refl _⟩
  have same : digits = body :=
    calc digits = cs.dropWhile (· = '#') := by rw [split', dropWhile_signs (.inl plain)]
      _ = body := by rw [split, dropWhile_signs (read.imp_left And.right)]
  subst same
  obtain rfl : few = signs := by
    have lengths := congrArg List.length (split'.symm.trans split)
    simpa using lengths
  rcases read with ⟨many, -⟩ | signed
  · omega
  · cases signed with
    | plus =>
      cases plain with
      | short spelled => exact (head_of_spells spelled).2 rfl
      | long spelled => exact (head_of_spells spelled).2 rfl

theorem ofHex?_eq_some_iff (text : String) (rgb : Vec3) : ofHex? text = some rgb ↔
    ∃ packed, rgb = ofPacked packed ∧
      (Proper (Text.trimChars text.toList) packed ∨
        Lenient (Text.trimChars text.toList) packed) := by
  simp only [ofHex?_eq, Option.map_eq_some_iff, readBody?_dropWhile_iff, proper_or_lenient_iff,
    eq_comm (a := rgb), and_comm]

/-- Of all texts, trimmed of white space, just those are read as colours that are written properly
or leniently, each as the colour of its digits. A text is read as if only proper ones were accepted
just if it is not lenient. All others leave the default, of a parameter or of an object. -/
theorem ofHex?_proper_or_lenient (text : String) :
    let cs := Text.trimChars text.toList
    (∀ rgb, ofHex? text = some rgb ↔
      ∃ packed, rgb = ofPacked packed ∧ (Proper cs packed ∨ Lenient cs packed)) ∧
    ((∀ rgb, ofHex? text = some rgb ↔ ∃ packed, rgb = ofPacked packed ∧ Proper cs packed) ↔
      ∀ packed, ¬ Lenient cs packed) ∧
    ((∀ packed, ¬ Proper cs packed ∧ ¬ Lenient cs packed) →
      (∀ packed, (ParameterKind.color packed).coerce (some (.text text)) =
        .color (ofPacked packed)) ∧
      ∀ (o : SavedObject) (id : ObjectId), o.color = some text →
        (o.toObject id).color = ({ id } : SceneObject).color) := by
  intro cs
  refine ⟨ofHex?_eq_some_iff text, ⟨fun only packed lenient => ?_, fun strict rgb => ?_⟩,
    fun neither => ?_⟩
  · have read : ofHex? text = some (ofPacked packed) :=
      (ofHex?_eq_some_iff text _).2 ⟨packed, rfl, .inr lenient⟩
    obtain ⟨other, -, proper⟩ := (only _).1 read
    exact not_lenient_of_proper proper lenient
  · simp only [ofHex?_eq_some_iff, or_iff_left (strict _), cs]
  · have unread : ofHex? text = none := by
      refine Option.eq_none_iff_forall_ne_some.2 fun rgb read => ?_
      obtain ⟨packed, -, proper | lenient⟩ := (ofHex?_eq_some_iff text rgb).1 read
      · exact (neither packed).1 proper
      · exact (neither packed).2 lenient
    constructor
    · intro packed
      simp [ParameterKind.coerce, ParameterKind.accept?, ParameterKind.readColor?, unread,
        ParameterKind.default]
    · intro o id given
      simp [SavedObject.toObject, given, unread]

/-- Two number signs and a plus sign are read. -/
theorem ofHex?_lenient_texts :
    (ofHex? "##f00" = some (ofPacked 0xff0000) ∧
      ∀ packed, ¬ Proper (Text.trimChars "##f00".toList) packed) ∧
    (ofHex? "+12345" = some (ofPacked 0x12345) ∧
      ∀ packed, ¬ Proper (Text.trimChars "+12345".toList) packed) := by
  have unsigned {c : Char} {rest : List Char} {packed : Nat} (h : Plain (c :: rest) packed) :
      c ≠ '#' ∧ c ≠ '+' := by
    cases h with
    | short spelled => exact head_of_spells spelled
    | long spelled => exact head_of_spells spelled
  refine ⟨⟨rfl, ?_⟩, rfl, ?_⟩
  · rintro packed ⟨body, plain | plain, digits⟩
    · subst plain
      exact (unsigned digits).1 rfl
    · obtain ⟨-, rfl⟩ := List.cons.inj plain
      exact (unsigned digits).1 rfl
  · rintro packed ⟨body, plain | plain, digits⟩
    · subst plain
      exact (unsigned digits).2 rfl
    · have first := (List.cons.inj plain).1
      contradiction

end Color
end BlockStage
