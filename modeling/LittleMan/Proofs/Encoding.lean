import LittleMan.Command
import LittleMan.Proofs.Text.Decimal
import Mathlib.Tactic.SplitIfs

/-!
# Words and instructions

The assembler goes from an instruction to its word and the machine from a word to its instruction. One
goes by operation and the other by digits, and `decode?_eq_some_iff` says that they read one table in its
two directions: a word is executed as the instruction that is written so, and as none if there is none.

The assembler writes the digits of a word out and reads them back. `Command.encode_instruction` says that this always
gives a word, and which one.
-/

namespace LittleMan

/-! ### Addresses -/

theorem Address.ofInt?_of_mem {n : Int} (hlow : 0 ≤ n) (hhigh : n ≤ 99) :
    ∃ address : Address, ofInt? n = some address ∧ (address.val : Int) = n := by
  have hcell : 0 ≤ n ∧ n < cellCount := ⟨hlow, by simp only [cellCount]; omega⟩
  refine ⟨⟨n.toNat, by omega⟩, dif_pos hcell, ?_⟩
  exact Int.toNat_of_nonneg hlow

theorem Address.ofInt?_val (address : Address) : ofInt? address.val = some address := by
  have hhigh : address.val < 100 := address.isLt
  obtain ⟨other, hother, hval⟩ := ofInt?_of_mem (n := address.val) (by omega) (by omega)
  rw [hother, Fin.ext (Int.ofNat.inj hval)]

theorem Address.val_of_ofInt? {n : Int} {address : Address} (h : ofInt? n = some address) :
    n = address.val := by
  unfold ofInt? at h
  split_ifs at h with hcell
  rw [← Option.some.inj h]
  exact (Int.toNat_of_nonneg hcell.1).symm

theorem Address.ofInt?_of_not_mem {n : Int} (h : ¬ (0 ≤ n ∧ n ≤ 99)) : ofInt? n = none := by
  apply dif_neg
  simp only [cellCount]
  omega

/-! ### The two readings of the table -/

theorem Operation.ofDigit?_eq_some_iff {n : Nat} {operation : Operation} :
    ofDigit? n = some operation ↔ n = operation.digit := by
  constructor
  · intro h
    unfold ofDigit? at h
    split at h <;> cases h <;> rfl
  · rintro rfl
    cases operation <;> rfl

theorem Operation.digit_mem (operation : Operation) : 1 ≤ operation.digit ∧ operation.digit ≤ 8 := by
  cases operation <;> decide

namespace Instruction

theorem encode_addressed (operation : Operation) (address : Address) :
    (addressed operation address).encode = Int16.ofInt (operation.digit * 100 + address.val) := by
  have hcast : (operation.digit * 100 + address.val : Int) =
      ((operation.digit * 100 + address.val : Nat) : Int) := by
    push_cast
    rfl
  rw [hcast, Int16.ofInt_eq_ofNat]
  rfl

theorem toInt_encode_addressed (operation : Operation) (address : Address) :
    (addressed operation address).encode.toInt = operation.digit * 100 + address.val := by
  have hdigit := operation.digit_mem
  have haddress : address.val < 100 := address.isLt
  rw [encode_addressed, Int16.toInt_ofInt_of_le (by omega) (by omega)]

theorem decode?_encode (i : Instruction) : decode? i.encode = some i := by
  cases i with
  | input => decide
  | output => decide
  | halt => decide
  | addressed operation address =>
    have hvalue := toInt_encode_addressed operation address
    generalize (addressed operation address).encode = word at hvalue
    have hdigit := operation.digit_mem
    have haddress : address.val < 100 := address.isLt
    have hword (n : Int16) (hn : n.toInt ≤ 0 ∨ 900 < n.toInt) : word ≠ n := by
      rintro rfl
      omega
    have hnonneg : ¬ word < 0 := by
      rw [Int16.lt_iff_toInt_lt, Int16.toInt_zero]
      omega
    have hdiv : word.toInt.toNat / 100 = operation.digit := by omega
    have hmod : word.toInt.toNat % 100 = address.val := by omega
    unfold decode?
    rw [if_neg hnonneg, if_neg (hword 0 (by decide)), if_neg (hword 901 (by decide)),
      if_neg (hword 902 (by decide))]
    simp only [hdiv, hmod, Operation.ofDigit?_eq_some_iff.mpr rfl, Option.map_some]

theorem encode_of_decode? {word : Word} {i : Instruction} (h : decode? word = some i) :
    i.encode = word := by
  unfold decode? at h
  split_ifs at h with hnegative hzero hinput houtput
  · cases h
    exact hzero.symm
  · cases h
    exact hinput.symm
  · cases h
    exact houtput.symm
  · obtain ⟨operation, hoperation, rfl⟩ := Option.map_eq_some_iff.mp h
    rw [Operation.ofDigit?_eq_some_iff] at hoperation
    rw [Int16.lt_iff_toInt_lt, Int16.toInt_zero] at hnegative
    rw [← Int16.toInt_inj, toInt_encode_addressed]
    change (operation.digit * 100 + (word.toInt.toNat % 100 : Nat) : Int) = word.toInt
    omega

/-- The machine executes a word as the instruction that is written so. -/
theorem decode?_eq_some_iff {word : Word} {i : Instruction} : decode? word = some i ↔ i.encode = word :=
  ⟨encode_of_decode?, fun h => h ▸ decode?_encode i⟩

end Instruction

/-! ### Words by their digits -/

namespace Decimal

theorem signed_natCast (n : Nat) (digits : Text) : signed n digits = digits := if_neg (by omega)

theorem paddedToWidth_two {n : Nat} (hn : n < 100) :
    paddedToWidth 2 n = [(Nat.digitChar (n / 10)).toUInt8, (Nat.digitChar (n % 10)).toUInt8] := by
  rw [paddedToWidth, signed_natCast, if_neg (by omega), Int.natAbs_natCast]
  by_cases hsmall : n < 10
  · rw [digits_of_lt hsmall, Nat.div_eq_of_lt hsmall, Nat.mod_eq_of_lt hsmall]
    rfl
  · rw [digits_of_ge (by omega), digits_of_lt (by omega)]
    rfl

/-- Two more digits behind a number count as ones and tens. -/
theorem spells_append_paddedToWidth (m : Nat) {n : Nat} (hn : n < 100) :
    Spells (plain m ++ paddedToWidth 2 n) (m * 100 + n) := by
  have hplain : plain m = digits m := signed_natCast m _
  obtain ⟨⟨hne, hfront⟩, hvalue⟩ := digits_spell m
  obtain ⟨htens, htensValue⟩ := digit_byte (show n / 10 < 10 by omega)
  obtain ⟨hones, honesValue⟩ := digit_byte (show n % 10 < 10 by omega)
  rw [hplain, paddedToWidth_two hn]
  generalize (Nat.digitChar (n / 10)).toUInt8 = tens at *
  generalize (Nat.digitChar (n % 10)).toUInt8 = ones at *
  have hdigits : Digits (digits m ++ [tens, ones]) := by
    refine ⟨by simp [hne], ?_⟩
    simp only [List.forall_mem_append, List.forall_mem_cons, List.not_mem_nil, false_implies, implies_true,
      and_true]
    exact ⟨hfront, htens, hones⟩
  have hwhole : value (digits m ++ [tens, ones]) = m * 100 + n := by
    rw [List.append_cons, value_append_digit, value_append_digit, hvalue, htensValue, honesValue]
    omega
  have hspells := Spells.unsigned hdigits
  rw [hwhole] at hspells
  exact_mod_cast hspells

end Decimal

namespace Command

theorem encode_of_spells {command : Command} {digits : Text} {word : Word} (hdigits : command.digits = .ok digits)
    (hspells : Decimal.Spells digits word.toInt) : command.encode = .ok word := by
  simp [encode, hdigits, Decimal.word?_eq_some_iff.mpr hspells, bind, Except.bind, pure, Except.pure]

/-- The digits written out for an instruction spell its memory word. -/
@[simp] theorem encode_instruction (i : Instruction) : (instruction i).encode = .ok i.encode := by
  cases i with
  | input => exact encode_of_spells rfl (Decimal.spells_plain 901)
  | output => exact encode_of_spells rfl (Decimal.spells_plain 902)
  | halt => exact encode_of_spells rfl (Decimal.spells_plain 0)
  | addressed operation address =>
    apply encode_of_spells rfl
    rw [Instruction.toInt_encode_addressed]
    exact Decimal.spells_append_paddedToWidth operation.digit address.isLt

@[simp] theorem encode_data (value : Word) : (data value).encode = .ok value :=
  encode_of_spells rfl (Decimal.spells_plain value.toInt)

@[simp] theorem encode_unknown (code : Int) :
    (unknown code).encode = .error (.unencodable (unknown code).listing) := rfl

end Command

end LittleMan
