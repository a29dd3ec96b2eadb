import ExpiringStore.Json.Basic
import ExpiringStore.Text.Integer

/-!
# Decimal digits

An integer's decimal text is read back as the integer, by the readers with a range that it lies in,
and its bytes are its characters.
-/
namespace ExpiringStore

namespace Bytes

theorem ofString_eq_flatMap (s : String) : ofString s = s.toList.flatMap String.utf8EncodeChar := by
  rw [ofString, ← String.utf8Encode_toList]
  simp [List.utf8Encode]

theorem ofString_append (s t : String) : ofString (s ++ t) = ofString s ++ ofString t := by
  simp only [ofString_eq_flatMap, String.toList_append, List.flatMap_append]

theorem length_ofString (s : String) : (ofString s).length = s.utf8ByteSize := rfl

theorem ofString_injective {s t : String} (same : ofString s = ofString t) : s = t := by
  have texts := congrArg toString? same
  rw [toString?_ofString, toString?_ofString] at texts
  exact Option.some.inj texts

theorem utf8EncodeChar_of_lt {c : Char} (ascii : c.toNat < 0x80) :
    String.utf8EncodeChar c = [c.toNat.toUInt8] := by
  have same : c.toNat.toUInt8.toNat = c.toNat := by
    rw [Nat.toUInt8_eq, UInt8.toNat_ofNat', Nat.mod_eq_of_lt (by omega)]
  have found := @Literal.utf8EncodeChar_ascii c.toNat.toUInt8 (by rwa [same])
  rwa [same, Char.ofNat_toNat] at found

/-- The bytes of an ASCII text are its characters. -/
theorem map_ofString {s : String} (ascii : ∀ c ∈ s.toList, c.toNat < 0x80) :
    (ofString s).map (fun b => Char.ofNat b.toNat) = s.toList := by
  rw [ofString_eq_flatMap]
  generalize s.toList = chars at ascii
  induction chars with
  | nil => rfl
  | cons c rest ih =>
    have bound := ascii c List.mem_cons_self
    have back : Char.ofNat c.toNat.toUInt8.toNat = c := by
      rw [Nat.toUInt8_eq, UInt8.toNat_ofNat', Nat.mod_eq_of_lt (by omega), Char.ofNat_toNat]
    rw [List.flatMap_cons, utf8EncodeChar_of_lt bound, List.singleton_append, List.map_cons, back,
      ih fun d mem => ascii d (List.mem_cons_of_mem _ mem)]

end Bytes

theorem digitValue?_of_isDigit {c : Char} (digit : c.isDigit = true) :
    digitValue? 10 c = some (c.toNat - '0'.toNat) := by
  have bounds := Char.isDigit_iff_toNat.mp digit
  have within : '0' ≤ c ∧ c ≤ '9' := by
    simp only [Char.le_def, UInt32.le_iff_toNat_le]
    exact bounds
  have low : '0'.toNat = 48 := rfl
  have high : '9'.toNat = 57 := rfl
  have small : c.toNat - 48 < 10 := by omega
  simp [digitValue?, within, small]

/-- More digits never make a number smaller. -/
theorem le_ofDigitChars (digits : List Char) (acc : Nat) :
    acc ≤ Nat.ofDigitChars 10 digits acc := by
  induction digits generalizing acc with
  | nil => simp
  | cons c rest ih =>
    rw [Nat.ofDigitChars_cons]
    have later := ih (10 * acc + (c.toNat - '0'.toNat))
    omega

theorem readDigits_of_digits {limit : Nat} {overflow : IntegerError} {digits : List Char}
    {acc : Nat} (allDigits : ∀ c ∈ digits, c.isDigit = true)
    (inRange : Nat.ofDigitChars 10 digits acc ≤ limit) :
    readDigits limit overflow acc digits = .ok (Nat.ofDigitChars 10 digits acc) := by
  induction digits generalizing acc with
  | nil => simp [readDigits]
  | cons c rest ih =>
    rw [Nat.ofDigitChars_cons] at inRange ⊢
    have soFar := le_ofDigitChars rest (10 * acc + (c.toNat - '0'.toNat))
    have others := ih (fun d mem => allDigits d (List.mem_cons_of_mem _ mem)) inRange
    simp only [readDigits, digitValue?_of_isDigit (allDigits c List.mem_cons_self)]
    rw [if_neg (by omega), others]

/-- Digits that leave the range are refused. -/
theorem readDigits_of_over {limit : Nat} {overflow : IntegerError} {digits : List Char} {acc : Nat}
    (allDigits : ∀ c ∈ digits, c.isDigit = true) (soFar : acc ≤ limit)
    (exceeds : limit < Nat.ofDigitChars 10 digits acc) :
    readDigits limit overflow acc digits = .error overflow := by
  induction digits generalizing acc with
  | nil => exact absurd exceeds (Nat.not_lt.mpr soFar)
  | cons c rest ih =>
    rw [Nat.ofDigitChars_cons] at exceeds
    simp only [readDigits, digitValue?_of_isDigit (allDigits c List.mem_cons_self)]
    split
    · rfl
    · rename_i within
      exact ih (fun d mem => allDigits d (List.mem_cons_of_mem _ mem))
        (Nat.not_lt.mp within) exceeds

/-- A row with anything but digits in it is refused. -/
theorem readDigits_of_mem {c : Char} (notDigit : digitValue? 10 c = none) {limit : Nat}
    {overflow : IntegerError} {chars : List Char} (mem : c ∈ chars) (acc : Nat) :
    ∃ failure, readDigits limit overflow acc chars = .error failure := by
  induction chars generalizing acc with
  | nil => cases mem
  | cons d rest ih =>
    rw [readDigits]
    split
    · exact ⟨_, rfl⟩
    · rename_i value digit
      split
      · exact ⟨_, rfl⟩
      · refine ih ?_ _
        rcases List.mem_cons.mp mem with rfl | later
        · rw [notDigit] at digit
          cases digit
        · exact later

theorem allDigits_toDigits (n : Nat) : ∀ c ∈ Nat.toDigits 10 n, c.isDigit = true := fun _ mem =>
  Nat.isDigit_of_mem_toDigits (by decide) (by decide) mem

theorem readDigits_toDigits_of_over {limit n : Nat} (overflow : IntegerError)
    (exceeds : limit < n) :
    readDigits limit overflow 0 (Nat.toDigits 10 n) = .error overflow :=
  readDigits_of_over (allDigits_toDigits n) (Nat.zero_le limit)
    (by rwa [Nat.ofDigitChars_ten_toDigits])

theorem readDigits_toDigits {limit n : Nat} (overflow : IntegerError) (inRange : n ≤ limit) :
    readDigits limit overflow 0 (Nat.toDigits 10 n) = .ok n := by
  have read := @readDigits_of_digits limit overflow (Nat.toDigits 10 n) 0 (allDigits_toDigits n)
    (by rwa [Nat.ofDigitChars_ten_toDigits])
  rwa [Nat.ofDigitChars_ten_toDigits] at read

/-- Only zero's digits start with a zero. -/
theorem toDigits_eq_cons (n : Nat) :
    ∃ first rest, Nat.toDigits 10 n = first :: rest ∧ first.isDigit = true ∧
      (∀ c ∈ rest, c.isDigit = true) ∧ (first = '0' → n = 0) := by
  induction n using Nat.strongRecOn with
  | ind n ih =>
    rw [Nat.toDigits_eq_if (by decide)]
    split
    · rename_i small
      exact ⟨n.digitChar, [], rfl, by rw [Nat.isDigit_digitChar, decide_eq_true small], nofun,
        Nat.digitChar_eq_zero.mp⟩
    · rename_i large
      obtain ⟨first, rest, digits, digit, others, zero⟩ := ih (n / 10) (by omega)
      refine ⟨first, rest ++ [(n % 10).digitChar], by rw [digits, List.cons_append], digit, ?_, ?_⟩
      · intro c mem
        rcases List.mem_append.mp mem with front | last
        · exact others c front
        · rw [List.mem_singleton.mp last, Nat.isDigit_digitChar]
          exact decide_eq_true (by omega)
      · intro isZero
        have none := zero isZero
        omega

theorem toList_toString_int (n : Int) :
    (toString n).toList =
      if 0 ≤ n then Nat.toDigits 10 n.toNat else '-' :: Nat.toDigits 10 (-n).toNat := by
  rw [Int.toString_eq_repr, Int.repr_eq_if]
  split
  · exact Nat.toList_repr
  · rw [String.toList_append, Nat.toList_repr]
    rfl

theorem ascii_of_mem_toString {n : Int} {c : Char} (mem : c ∈ (toString n).toList) :
    c.toNat < 0x80 := by
  have ofDigit {d : Char} (digit : d.isDigit = true) : d.toNat < 0x80 := by
    have bounds := (Char.isDigit_iff_toNat.mp digit).2
    have nine : '9'.toNat = 57 := rfl
    omega
  rw [toList_toString_int] at mem
  split at mem
  · exact ofDigit (allDigits_toDigits _ c mem)
  · rcases List.mem_cons.mp mem with rfl | inside
    · decide
    · exact ofDigit (allDigits_toDigits _ c inside)

/-- No integer is written as a negative zero. -/
theorem toString_ne_minusZero (n : Int) : (toString n).toList ≠ ['-', '0'] := by
  intro same
  rw [toList_toString_int] at same
  split at same
  · obtain ⟨first, rest, digits, digit, -, -⟩ := toDigits_eq_cons n.toNat
    obtain ⟨rfl, -⟩ := List.cons.inj (digits.symm.trans same)
    cases digit
  · obtain ⟨first, rest, digits, -, -, zero⟩ := toDigits_eq_cons (-n).toNat
    obtain ⟨isZero, -⟩ := List.cons.inj (digits.symm.trans (List.cons.inj same).2)
    have none := zero isZero
    omega

/-- Digits alone are read as an unsigned row of digits is. -/
theorem readSigned_digits {negativeLimit limit : Nat} {first : Char} {rest : List Char}
    (digit : first.isDigit = true) :
    readSigned negativeLimit limit (first :: rest) =
      (readDigits limit .tooLarge 0 (first :: rest)).map Int.ofNat := by
  have notPlus : first ≠ '+' := by
    rintro rfl
    cases digit
  have notMinus : first ≠ '-' := by
    rintro rfl
    cases digit
  unfold readSigned
  split <;> simp_all

/-- A minus sign makes the number behind it negative. -/
theorem readSigned_minus {negativeLimit limit : Nat} {digits : List Char} (some : digits ≠ []) :
    readSigned negativeLimit limit ('-' :: digits) =
      (readDigits negativeLimit .tooSmall 0 digits).map fun n => -(n : Int) := by
  cases digits with
  | nil => exact absurd rfl some
  | cons => rfl

/-- Anything but digits and a sign is refused. -/
theorem readSigned_of_mem {c : Char} (notDigit : digitValue? 10 c = none)
    (notSign : c ≠ '+' ∧ c ≠ '-') {negativeLimit limit : Nat} {chars : List Char}
    (mem : c ∈ chars) :
    ∃ failure, readSigned negativeLimit limit chars = .error failure := by
  unfold readSigned
  split
  · cases mem
  · exact ⟨_, rfl⟩
  · exact ⟨_, rfl⟩
  · rename_i digits notAlone
    obtain ⟨failure, refused⟩ := @readDigits_of_mem c notDigit limit .tooLarge digits
      ((List.mem_cons.mp mem).resolve_left notSign.1) 0
    exact ⟨failure, by rw [refused]; rfl⟩
  · rename_i digits notAlone
    obtain ⟨failure, refused⟩ := @readDigits_of_mem c notDigit negativeLimit .tooSmall digits
      ((List.mem_cons.mp mem).resolve_left notSign.2) 0
    exact ⟨failure, by rw [refused]; rfl⟩
  · obtain ⟨failure, refused⟩ := @readDigits_of_mem c notDigit limit .tooLarge chars mem 0
    exact ⟨failure, by rw [refused]; rfl⟩

/-- The decimal text of an integer out of range is refused. -/
theorem readInt64_toString_of_outside {n : Int}
    (outside : n < -9223372036854775808 ∨ 9223372036854775808 ≤ n) :
    ∃ failure, readInt64 (toString n).toList = .error failure := by
  have limits : Int64.size / 2 = 9223372036854775808 := by decide
  rw [toList_toString_int, readInt64, limits]
  split
  · obtain ⟨first, rest, digits, digit, -, -⟩ := toDigits_eq_cons n.toNat
    rw [digits, readSigned_digits digit, ← digits, readDigits_toDigits_of_over _ (by omega)]
    exact ⟨_, rfl⟩
  · obtain ⟨first, rest, digits, -, -, -⟩ := toDigits_eq_cons (-n).toNat
    rw [readSigned_minus (by rw [digits]; nofun), readDigits_toDigits_of_over _ (by omega)]
    exact ⟨_, rfl⟩

/-- An integer's decimal text is read as the integer. -/
theorem readInt64_toString {n : Int} (low : -9223372036854775808 ≤ n)
    (high : n < 9223372036854775808) :
    readInt64 (toString n).toList = .ok n := by
  have limits : Int64.size / 2 = 9223372036854775808 := by decide
  rw [toList_toString_int, readInt64, limits]
  split
  · obtain ⟨first, rest, digits, digit, -, -⟩ := toDigits_eq_cons n.toNat
    rw [digits, readSigned_digits digit, ← digits, readDigits_toDigits _ (by omega)]
    exact congrArg Except.ok (Int.toNat_of_nonneg (by omega))
  · obtain ⟨first, rest, digits, -, -, -⟩ := toDigits_eq_cons (-n).toNat
    rw [readSigned_minus (by rw [digits]; nofun), readDigits_toDigits _ (by omega)]
    have back : -(((-n).toNat : Int)) = n := by omega
    exact congrArg Except.ok back

end ExpiringStore
