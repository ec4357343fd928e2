import Herald.Settings.Count
import Mathlib.Data.Nat.Digits.Lemmas

/-!
# What counts are read from

A text denotes a number if it consists of digits, with at most one plus sign before them and blanks
around it all. Zeros in front are digits like others.

Reading goes from the left and gives up at the first digit that takes the number beyond 64 bits.
More digits never make a number smaller, so nothing is given up that would have fitted: a text is
read as a count if and only if that count is what it denotes.
-/
namespace Herald.Count

open Text

/-- The number that digits stand for: the last one counts ones, the one before it tens. -/
def value (digits : List Char) : Nat := Nat.ofDigits 10 (digits.reverse.map digitValue)

/-- One digit or more, which stand for `n`. -/
structure Numeral (digits : List Char) (n : Nat) : Prop where
  shown : digits ≠ []
  decimal : ∀ c ∈ digits, c.isDigit = true
  counts : n = value digits

/-- But for blanks around it and one plus sign, the text is a numeral for `n`. -/
def Denotes (text : String) (n : Nat) : Prop :=
  ∃ sign digits, trimChars text.toList = sign ++ digits ∧ (sign = [] ∨ sign = ['+']) ∧
    Numeral digits n

/-! ### Numbers by their digits -/

theorem value_append (front back : List Char) :
    value (front ++ back) = value back + 10 ^ back.length * value front := by
  simp [value, Nat.ofDigits_append]

theorem value_concat (digits : List Char) (c : Char) :
    value (digits ++ [c]) = 10 * value digits + digitValue c := by
  have last : value [c] = digitValue c := Nat.ofDigits_singleton
  rw [value_append, last, List.length_singleton, Nat.pow_one, Nat.add_comm]

theorem value_le_append (front back : List Char) : value front ≤ value (front ++ back) := by
  rw [value_append]
  have place : 1 ≤ 10 ^ back.length := Nat.one_le_pow _ _ (by decide)
  calc value front = 1 * value front := (Nat.one_mul _).symm
    _ ≤ 10 ^ back.length * value front := Nat.mul_le_mul_right _ place
    _ ≤ value back + 10 ^ back.length * value front := Nat.le_add_left _ _

/-! ### Reading digits -/

/-- Behind digits that fit, reading comes to the number of all digits if that fits as well. -/
theorem readDigits_eq_ok_iff {read cs : List Char} {n : Nat} (fits : value read < limit) :
    readDigits (value read) cs = .ok n ↔
      (∀ c ∈ cs, c.isDigit = true) ∧ value (read ++ cs) < limit ∧ n = value (read ++ cs) := by
  -- On the characters to come: each digit joins those that have been read.
  induction cs generalizing read with
  | nil =>
    rw [readDigits, Except.ok.injEq, List.append_nil, eq_comm]
    exact ⟨fun same => ⟨List.forall_mem_nil _, fits, same⟩, fun counted => counted.2.2⟩
  | cons c rest ih =>
    rw [readDigits, List.forall_mem_cons, List.append_cons]
    split
    next digit =>
      dsimp only
      rw [← value_concat]
      split
      next room => rw [ih room, and_assoc, and_iff_right digit]
      next beyond =>
        refine iff_of_false nofun ?_
        rintro ⟨-, less, -⟩
        exact beyond (Nat.lt_of_le_of_lt (value_le_append (read ++ [c]) rest) less)
    next other =>
      refine iff_of_false nofun ?_
      rintro ⟨⟨digit, -⟩, -⟩
      exact other digit

theorem readAll_eq_ok_iff {digits : List Char} {n : UInt64} (shown : digits ≠ []) :
    (readDigits 0 digits).map UInt64.ofNat = .ok n ↔ Numeral digits n.toNat := by
  have read {m : Nat} : readDigits 0 digits = .ok m ↔
      (∀ c ∈ digits, c.isDigit = true) ∧ value digits < limit ∧ m = value digits :=
    @readDigits_eq_ok_iff [] digits m (by decide)
  constructor
  · intro counted
    cases result : readDigits 0 digits with
    | error fault =>
      rw [result] at counted
      cases counted
    | ok m =>
      rw [result] at counted
      cases counted
      obtain ⟨decimal, room, rfl⟩ := read.mp result
      exact ⟨shown, decimal, UInt64.toNat_ofNat_of_lt' room⟩
  · rintro ⟨-, decimal, counts⟩
    have room : value digits < limit := counts ▸ n.toNat_lt_size
    rw [read.mpr ⟨decimal, room, rfl⟩, ← counts]
    exact congrArg Except.ok UInt64.ofNat_toNat

/-! ### Reading texts -/

/-- The characters behind the sign, if they begin with one. -/
def unsigned : List Char → List Char
  | '+' :: rest => rest
  | cs => cs

theorem unsigned_eq_self {cs : List Char} (bare : ∀ rest, cs ≠ '+' :: rest) : unsigned cs = cs := by
  unfold unsigned
  split
  next rest => exact absurd rfl (bare rest)
  · rfl

/-- A plus sign is no digit, so it cannot be taken for one or the other. -/
theorem denotes_iff {text : String} {n : Nat} :
    Denotes text n ↔ Numeral (unsigned (trimChars text.toList)) n := by
  constructor
  · rintro ⟨sign, digits, written, rfl | rfl, numeral⟩
    · rw [written, List.nil_append, unsigned_eq_self]
      · exact numeral
      · rintro rest rfl
        exact absurd (numeral.decimal '+' (.head _)) (by decide)
    · rw [written]
      exact numeral
  · intro numeral
    generalize written : trimChars text.toList = cs at numeral
    by_cases signed : ∃ rest, cs = '+' :: rest
    · obtain ⟨rest, rfl⟩ := signed
      exact ⟨['+'], rest, written, .inr rfl, numeral⟩
    · rw [unsigned_eq_self (not_exists.mp signed)] at numeral
      exact ⟨[], cs, written, .inl rfl, numeral⟩

theorem Denotes.unique {text : String} {m n : Nat} (one : Denotes text m) (two : Denotes text n) :
    m = n :=
  (denotes_iff.mp one).counts.trans (denotes_iff.mp two).counts.symm

/-- A text is read as the count that it denotes. -/
theorem ofText_eq_ok_iff {text : String} {n : UInt64} :
    ofText text = .ok n ↔ Denotes text n.toNat := by
  rw [denotes_iff]
  unfold ofText ofChars
  split
  next blank => exact iff_of_false nofun fun numeral => numeral.shown (by rw [blank]; rfl)
  next alone => exact iff_of_false nofun fun numeral => numeral.shown (by rw [alone]; rfl)
  next rest more written =>
    rw [written]
    exact readAll_eq_ok_iff fun nothing => more (by rw [nothing])
  next shown _ bare =>
    rw [unsigned_eq_self bare]
    exact readAll_eq_ok_iff shown

theorem ofText_of_denotes {text : String} {n : Nat} (denotes : Denotes text n) (fits : n < limit) :
    ofText text = .ok (UInt64.ofNat n) := by
  rw [ofText_eq_ok_iff, UInt64.toNat_ofNat_of_lt' fits]
  exact denotes

example : ofText " +0042\t" = .ok 42 := by decide

end Herald.Count
