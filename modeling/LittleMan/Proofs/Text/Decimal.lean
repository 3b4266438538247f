import LittleMan.Text.Decimal
import Mathlib.Data.List.Induction
import Mathlib.Data.Nat.Digits.Defs
import Mathlib.Tactic.Ring

/-!
# Numerals

A numeral is an optional sign and at least one decimal digit, and spells the number that positional
notation gives it, with any number of zeros in front. Reading a number accepts exactly the numerals, and
reading a memory word exactly those whose number fits one.
-/

namespace LittleMan.Decimal

/-- At least one byte, each of them a digit from `0` to `9`. -/
def Digits (text : Text) : Prop := text ≠ [] ∧ ∀ byte ∈ text, 48 ≤ byte ∧ byte ≤ 57

/-- The number that digits stand for, the most significant one first. -/
def value (digits : Text) : Nat := Nat.ofDigits 10 (digits.reverse.map fun byte => byte.toNat - 48)

/-- A text is a numeral for a number. -/
inductive Spells : Text → Int → Prop where
  | unsigned {digits : Text} (hdigits : Digits digits) : Spells digits (value digits)
  | plus {digits : Text} (hdigits : Digits digits) : Spells (43 :: digits) (value digits)
  | minus {digits : Text} (hdigits : Digits digits) : Spells (45 :: digits) (-value digits)

theorem value_append_digit (digits : Text) (byte : UInt8) :
    value (digits ++ [byte]) = 10 * value digits + (byte.toNat - 48) := by
  simp only [value, List.reverse_append, List.reverse_singleton, List.singleton_append,
    List.map_cons, Nat.ofDigits_cons]
  ring

theorem valueFrom_zero (digits : Text) : valueFrom 0 digits = value digits := by
  induction digits using List.reverseRecOn with
  | nil => rfl
  | append_singleton digits byte ih =>
    rw [value_append_digit, ← ih, valueFrom, List.foldl_append]
    rfl

theorem nat?_eq_some_iff {text : Text} {n : Nat} :
    nat? text = some n ↔ Digits text ∧ value text = n := by
  have hall : text.all isDigit = true ↔ ∀ byte ∈ text, 48 ≤ byte ∧ byte ≤ 57 := by
    simp [isDigit]
  unfold nat?
  simp only [hall, valueFrom_zero]
  constructor
  · intro h
    split at h
    · next hdigits => exact ⟨hdigits, Option.some.inj h⟩
    · exact absurd h (by simp)
  · rintro ⟨hdigits, rfl⟩
    exact if_pos hdigits

/-- A sign is not a digit, so a text with a sign is a numeral only through what follows the sign. -/
theorem not_digits_of_sign {sign : UInt8} (hsign : sign < 48) (rest : Text) :
    ¬ Digits (sign :: rest) := by
  rintro ⟨-, hdigits⟩
  have hfirst := (hdigits sign List.mem_cons_self).1
  exact absurd hsign (UInt8.not_lt.mpr hfirst)

theorem int?_eq_some_iff {text : Text} {n : Int} : int? text = some n ↔ Spells text n := by
  constructor
  · intro h
    unfold int? at h
    split at h
    · obtain ⟨m, hm, rfl⟩ := Option.map_eq_some_iff.mp h
      obtain ⟨hdigits, rfl⟩ := nat?_eq_some_iff.mp hm
      exact .plus hdigits
    · obtain ⟨m, hm, rfl⟩ := Option.map_eq_some_iff.mp h
      obtain ⟨k, hk, hcast⟩ := Option.bind_eq_some_iff.mp hm
      obtain ⟨hdigits, rfl⟩ := nat?_eq_some_iff.mp hk
      rw [← Option.some.inj hcast]
      exact .minus hdigits
    · obtain ⟨m, hm, rfl⟩ := Option.map_eq_some_iff.mp h
      obtain ⟨hdigits, rfl⟩ := nat?_eq_some_iff.mp hm
      exact .unsigned hdigits
  · intro h
    cases h with
    | unsigned hdigits =>
      unfold int?
      split
      · exact (not_digits_of_sign (by decide) _ hdigits).elim
      · exact (not_digits_of_sign (by decide) _ hdigits).elim
      · rw [nat?_eq_some_iff.mpr ⟨hdigits, rfl⟩]
        rfl
    | plus hdigits =>
      simp only [int?, nat?_eq_some_iff.mpr ⟨hdigits, rfl⟩]
      rfl
    | minus hdigits =>
      simp only [int?, nat?_eq_some_iff.mpr ⟨hdigits, rfl⟩]
      rfl

theorem word?_eq_some_iff {text : Text} {word : Int16} :
    word? text = some word ↔ Spells text word.toInt := by
  unfold word?
  rw [Option.bind_eq_some_iff]
  constructor
  · rintro ⟨n, hn, hword⟩
    split at hword
    · next hrange =>
      rw [← Option.some.inj hword, Int16.toInt_ofInt_of_le (by omega) (by omega)]
      exact int?_eq_some_iff.mp hn
    · exact absurd hword (by simp)
  · intro h
    have hlow := word.le_toInt
    have hhigh := word.toInt_lt
    refine ⟨word.toInt, int?_eq_some_iff.mpr h, ?_⟩
    rw [if_pos (by omega), Int16.ofInt_toInt]

/-! ### Plain decimals -/

theorem digit_byte {digit : Nat} (hdigit : digit < 10) :
    (48 ≤ (Nat.digitChar digit).toUInt8 ∧ (Nat.digitChar digit).toUInt8 ≤ 57) ∧
      (Nat.digitChar digit).toUInt8.toNat - 48 = digit := by
  have hall : ∀ digit : Fin 10, (48 ≤ (Nat.digitChar digit).toUInt8 ∧
      (Nat.digitChar digit).toUInt8 ≤ 57) ∧ (Nat.digitChar digit).toUInt8.toNat - 48 = digit := by
    decide
  exact hall ⟨digit, hdigit⟩

theorem digits_of_lt {n : Nat} (hsmall : n < 10) : digits n = [(Nat.digitChar n).toUInt8] := by
  rw [digits, Nat.toDigits_of_lt_base hsmall, List.map_singleton]

theorem digits_of_ge {n : Nat} (hlarge : 10 ≤ n) :
    digits n = digits (n / 10) ++ [(Nat.digitChar (n % 10)).toUInt8] := by
  rw [digits, Nat.toDigits_of_base_le (by decide) hlarge, List.map_append, List.map_singleton]
  rfl

theorem digits_spell (n : Nat) : Digits (digits n) ∧ value (digits n) = n := by
  induction n using Nat.strongRecOn with
  | ind n ih =>
    by_cases hsmall : n < 10
    · have hbyte := digit_byte hsmall
      rw [digits_of_lt hsmall]
      refine ⟨⟨List.cons_ne_nil _ _, ?_⟩, ?_⟩
      · simpa using hbyte.1
      · simpa [value] using hbyte.2
    · have hbyte := digit_byte (Nat.mod_lt n (by decide : 10 > 0))
      obtain ⟨hdigits, hvalue⟩ := ih (n / 10) (by omega)
      rw [digits_of_ge (by omega)]
      refine ⟨⟨by simp, ?_⟩, ?_⟩
      · intro byte hmem
        rcases List.mem_append.mp hmem with hmem | hmem
        · exact hdigits.2 byte hmem
        · obtain rfl := List.mem_singleton.mp hmem
          exact hbyte.1
      · rw [value_append_digit, hvalue, hbyte.2]
        omega

theorem spells_signed {digits : Text} {n : Int} (hdigits : Digits digits) (hvalue : value digits = n.natAbs) :
    Spells (signed n digits) n := by
  unfold signed
  split
  · have h := Spells.minus hdigits
    rw [hvalue] at h
    rwa [show -(n.natAbs : Int) = n by omega] at h
  · have h := Spells.unsigned hdigits
    rw [hvalue] at h
    rwa [show (n.natAbs : Int) = n by omega] at h

/-- The plain decimal of a number is a numeral for it. -/
theorem spells_plain (n : Int) : Spells (plain n) n :=
  spells_signed (digits_spell n.natAbs).1 (digits_spell n.natAbs).2

theorem word?_plain (word : Int16) : word? (plain word.toInt) = some word :=
  word?_eq_some_iff.mpr (spells_plain word.toInt)

/-- A plain decimal consists of digits and a sign, and is not empty. -/
theorem plain_visible (n : Int) : plain n ≠ [] ∧ ∀ byte ∈ plain n, 45 ≤ byte ∧ byte ≤ 57 := by
  obtain ⟨hne, hdigits⟩ := (digits_spell n.natAbs).1
  have hlow (byte : UInt8) (hmem : byte ∈ digits n.natAbs) : 45 ≤ byte ∧ byte ≤ 57 :=
    ⟨UInt8.le_trans (by decide) (hdigits byte hmem).1, (hdigits byte hmem).2⟩
  unfold plain signed
  split
  · refine ⟨List.cons_ne_nil _ _, fun byte hmem => ?_⟩
    rcases List.mem_cons.mp hmem with rfl | hmem
    · decide
    · exact hlow byte hmem
  · exact ⟨hne, hlow⟩

theorem length_plain_le (word : Int16) : (plain word.toInt).length ≤ 6 := by
  have hlow := word.le_toInt
  have hhigh := word.toInt_lt
  have hdigits : (digits word.toInt.natAbs).length ≤ 5 := by
    rw [digits, List.length_map, Nat.length_toDigits_le_iff (by decide) (by decide)]
    omega
  unfold plain signed
  split
  · change (digits word.toInt.natAbs).length + 1 ≤ 6
    omega
  · omega

/-! ### Padded and grouped decimals

Zeros in front do not change what digits spell, and the commas of a message are no digits, so a number in any of
its written forms can be read back. None of the forms has a byte outside the range from the plus sign to the nine,
so whatever else follows a number also ends it. -/

theorem Spells.unique {text : Text} {m n : Int} (hm : Spells text m) (hn : Spells text n) : m = n := by
  rw [← int?_eq_some_iff] at hm hn
  exact Option.some.inj (hm.symm.trans hn)

theorem digits_zeroPadded {digits : Text} (hdigits : Digits digits) (count : Nat) :
    Digits (zeroPadded count digits) := by
  refine ⟨List.append_ne_nil_of_right_ne_nil _ hdigits.1, ?_⟩
  intro byte hbyte
  rcases List.mem_append.mp hbyte with hzero | hdigit
  · rw [List.eq_of_mem_replicate hzero]
    decide
  · exact hdigits.2 byte hdigit

theorem value_zeroPadded (count : Nat) (digits : Text) : value (zeroPadded count digits) = value digits := by
  unfold zeroPadded
  induction count - digits.length with
  | zero => rfl
  | succ zeros ih =>
    rw [List.replicate_succ, List.cons_append, ← ih, ← valueFrom_zero, ← valueFrom_zero]
    rfl

theorem spells_padded (count : Nat) (n : Int) : Spells (signed n (zeroPadded count (digits n.natAbs))) n := by
  obtain ⟨hdigits, hvalue⟩ := digits_spell n.natAbs
  apply spells_signed
  · exact digits_zeroPadded hdigits count
  · rw [value_zeroPadded, hvalue]

theorem plain_injective : Function.Injective plain := by
  intro m n h
  have hm := spells_plain m
  rw [h] at hm
  exact hm.unique (spells_plain n)

theorem paddedToWidth_injective (width : Nat) : Function.Injective (paddedToWidth width) := by
  intro m n h
  have hm : Spells (paddedToWidth width m) m := spells_padded _ m
  rw [h] at hm
  exact hm.unique (spells_padded _ n)

theorem filter_groupReversed {digits : Text} (hdigits : 44 ∉ digits) :
    (groupReversed digits).filter (· ≠ 44) = digits := by
  fun_induction groupReversed digits with
  | case1 a b c d rest ih =>
    simp only [List.mem_cons, not_or] at hdigits ih
    obtain ⟨ha, hb, hc, hrest⟩ := hdigits
    rw [List.filter_cons_of_pos (by exact decide_eq_true (Ne.symm ha)),
      List.filter_cons_of_pos (by exact decide_eq_true (Ne.symm hb)),
      List.filter_cons_of_pos (by exact decide_eq_true (Ne.symm hc)), List.filter_cons_of_neg (by decide),
      ih hrest]
  | case2 few =>
    rw [List.filter_eq_self]
    intro byte hbyte
    rw [decide_eq_true_iff]
    intro hcomma
    exact hdigits (hcomma ▸ hbyte)

theorem filter_inMessagePadded (count : Nat) (n : Int) :
    (inMessagePadded count n).filter (· ≠ 44) = signed n (zeroPadded count (digits n.natAbs)) := by
  have hdigits := digits_zeroPadded (digits_spell n.natAbs).1 count
  have hcomma : (44 : UInt8) ∉ (zeroPadded count (digits n.natAbs)).reverse := by
    intro hmem
    exact absurd (hdigits.2 44 (List.mem_reverse.mp hmem)).1 (by decide)
  have hgrouped : (grouped (zeroPadded count (digits n.natAbs))).filter (· ≠ 44) =
      zeroPadded count (digits n.natAbs) := by
    rw [grouped, List.filter_reverse, filter_groupReversed hcomma, List.reverse_reverse]
  unfold inMessagePadded signed
  split
  · rw [List.filter_append, hgrouped]
    rfl
  · exact hgrouped

theorem inMessage_injective : Function.Injective inMessage := by
  intro m n h
  have hm := spells_padded 1 m
  rw [← filter_inMessagePadded, show inMessagePadded 1 m = inMessagePadded 1 n from h,
    filter_inMessagePadded] at hm
  exact hm.unique (spells_padded 1 n)

/-- A text of the bytes that written numbers consist of. -/
def Numeric (text : Text) : Prop := ∀ byte ∈ text, 43 ≤ byte ∧ byte ≤ 57

theorem Digits.numeric {digits : Text} (h : Digits digits) : Numeric digits := by
  intro byte hbyte
  exact ⟨UInt8.le_trans (by decide) (h.2 byte hbyte).1, (h.2 byte hbyte).2⟩

theorem Spells.numeric {text : Text} {n : Int} (h : Spells text n) : Numeric text := by
  cases h with
  | unsigned hdigits => exact hdigits.numeric
  | plus hdigits => exact List.forall_mem_cons.mpr ⟨by decide, hdigits.numeric⟩
  | minus hdigits => exact List.forall_mem_cons.mpr ⟨by decide, hdigits.numeric⟩

theorem numeric_inMessage (n : Int) : Numeric (inMessage n) := by
  intro byte hbyte
  by_cases hcomma : byte = 44
  · rw [hcomma]
    decide
  · apply (spells_padded 1 n).numeric
    rw [← filter_inMessagePadded, List.mem_filter, decide_eq_true_iff]
    exact ⟨hbyte, hcomma⟩

/-- A number is told from what follows it by the first byte that no number has. -/
theorem Numeric.append_inj {first second rest others : Text} {separator : UInt8} (hfirst : Numeric first)
    (hsecond : Numeric second) (hseparator : ¬ (43 ≤ separator ∧ separator ≤ 57))
    (h : first ++ separator :: rest = second ++ separator :: others) : first = second ∧ rest = others := by
  have htake {number follow : Text} (hnumber : Numeric number) :
      (number ++ separator :: follow).takeWhile (· ≠ separator) = number := by
    rw [List.takeWhile_append_of_pos, List.takeWhile_cons_of_neg (by simp), List.append_nil]
    intro byte hbyte
    rw [decide_eq_true_iff]
    intro hsame
    exact hseparator (hsame ▸ hnumber byte hbyte)
  obtain rfl : first = second := by
    rw [← htake hfirst, h, htake hsecond]
  exact ⟨rfl, (List.cons.inj (List.append_cancel_left h)).2⟩

end LittleMan.Decimal
