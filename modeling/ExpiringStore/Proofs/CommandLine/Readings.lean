import ExpiringStore.Proofs.Address.Reader
import ExpiringStore.Proofs.CommandLine.Values

/-!
# The texts of values

What stands for an address, a port or a number of milliseconds. A number has at least one decimal
digit, may have zeros in front, and may have a plus sign before them; a port may even have a minus
sign, which leaves nothing but zero. All other texts are refused.
-/
namespace ExpiringStore

/-- Decimal digits, at least one, and the number that they spell. -/
structure Decimal (digits : List Char) (n : Nat) : Prop where
  filled : digits ≠ []
  all : ∀ c ∈ digits, c.isDigit = true
  value : Nat.ofDigitChars 10 digits 0 = n

theorem Decimal.exists_cons {digits : List Char} {n : Nat} (decimal : Decimal digits n) :
    ∃ first rest, digits = first :: rest ∧ first.isDigit = true := by
  obtain ⟨first, rest, rfl⟩ := List.exists_cons_of_ne_nil decimal.filled
  exact ⟨first, rest, rfl, decimal.all first List.mem_cons_self⟩

theorem decimal_toDigits (n : Nat) : Decimal (Nat.toDigits 10 n) n where
  filled := List.length_pos_iff.mp Nat.length_toDigits_pos
  all := allDigits_toDigits n
  value := Nat.ofDigitChars_ten_toDigits

/-! ## Integers with a range -/

theorem isDigit_of_digitValue? {c : Char} {d : Nat} (read : digitValue? 10 c = some d) :
    c.isDigit = true := by
  have table : ∀ d : Fin 10, d.val.digitChar.isDigit = true ∧
      d.val.digitChar.toUpper.isDigit = true := by
    decide
  obtain ⟨small, rfl | rfl⟩ := (digitValue?_eq_some_iff (by decide)).mp read
  · exact (table ⟨d, small⟩).1
  · exact (table ⟨d, small⟩).2

/-- Digits are read if all of them are and their number is in the range. -/
theorem readDigits_eq_ok_iff {limit acc n : Nat} {overflow : IntegerError} {chars : List Char}
    (soFar : acc ≤ limit) :
    readDigits limit overflow acc chars = .ok n ↔
      (∀ c ∈ chars, c.isDigit = true) ∧ Nat.ofDigitChars 10 chars acc = n ∧ n ≤ limit := by
  constructor
  · intro read
    have all : ∀ c ∈ chars, c.isDigit = true := by
      intro c mem
      by_contra notDigit
      have none : digitValue? 10 c = none := by
        refine Option.eq_none_iff_forall_ne_some.mpr fun d found => ?_
        exact notDigit (isDigit_of_digitValue? found)
      obtain ⟨failure, refused⟩ := @readDigits_of_mem c none limit overflow chars mem acc
      rw [read] at refused
      cases refused
    by_cases inRange : Nat.ofDigitChars 10 chars acc ≤ limit
    · rw [readDigits_of_digits all inRange] at read
      obtain rfl := Except.ok.inj read
      exact ⟨all, rfl, inRange⟩
    · rw [readDigits_of_over all soFar (Nat.not_le.mp inRange)] at read
      cases read
  · rintro ⟨all, rfl, inRange⟩
    exact readDigits_of_digits all inRange

theorem readDigits_zero_eq_ok_iff {limit n : Nat} {overflow : IntegerError} {chars : List Char}
    (filled : chars ≠ []) :
    readDigits limit overflow 0 chars = .ok n ↔ Decimal chars n ∧ n ≤ limit := by
  rw [readDigits_eq_ok_iff (Nat.zero_le limit)]
  constructor
  · rintro ⟨all, value, inRange⟩
    exact ⟨⟨filled, all, value⟩, inRange⟩
  · rintro ⟨⟨-, all, value⟩, inRange⟩
    exact ⟨all, value, inRange⟩

theorem readUnsigned_eq_ok_iff {limit n : Nat} {chars : List Char} :
    readUnsigned limit chars = .ok n ↔
      n ≤ limit ∧ ∃ digits, Decimal digits n ∧ (chars = digits ∨ chars = '+' :: digits) := by
  constructor
  · intro read
    unfold readUnsigned at read
    split at read
    · cases read
    · cases read
    · rename_i digits several
      obtain ⟨decimal, inRange⟩ := (readDigits_zero_eq_ok_iff fun none => several none).mp read
      exact ⟨inRange, digits, decimal, .inr rfl⟩
    · rename_i filled _ _
      obtain ⟨decimal, inRange⟩ := (readDigits_zero_eq_ok_iff fun none => filled none).mp read
      exact ⟨inRange, chars, decimal, .inl rfl⟩
  · rintro ⟨inRange, digits, decimal, split⟩
    have read : readDigits limit .tooLarge 0 digits = .ok n :=
      (readDigits_zero_eq_ok_iff decimal.filled).mpr ⟨decimal, inRange⟩
    obtain ⟨first, rest, rfl, digit⟩ := decimal.exists_cons
    rcases split with rfl | rfl
    · have notPlus : first ≠ '+' := by
        rintro rfl
        cases digit
      rw [← read]
      unfold readUnsigned
      split <;> simp_all
    · exact read

theorem readSigned_eq_ok_iff {negativeLimit limit : Nat} {chars : List Char} {n : Int} :
    readSigned negativeLimit limit chars = .ok n ↔ ∃ digits m, Decimal digits m ∧
      (m ≤ limit ∧ n = m ∧ (chars = digits ∨ chars = '+' :: digits) ∨
        m ≤ negativeLimit ∧ n = -m ∧ chars = '-' :: digits) := by
  have map_eq_ok {α : Type} {read : Except IntegerError α} {f : α → Int} :
      read.map f = .ok n ↔ ∃ m, read = .ok m ∧ f m = n := by
    cases read <;> simp [Except.map]
  have bind_eq_ok {read : Except IntegerError Nat} {m : Int} :
      (do let a ← read; pure (a : Int)) = Except.ok m ↔ ∃ a, read = .ok a ∧ (a : Int) = m := by
    cases read <;> simp [bind, pure, Except.bind, Except.pure]
  constructor
  · intro read
    unfold readSigned at read
    split at read
    · cases read
    · cases read
    · cases read
    · rename_i digits several
      obtain ⟨m, found, rfl⟩ := map_eq_ok.mp read
      obtain ⟨decimal, inRange⟩ := (readDigits_zero_eq_ok_iff fun none => several none).mp found
      exact ⟨digits, m, decimal, .inl ⟨inRange, rfl, .inr rfl⟩⟩
    · rename_i digits several
      obtain ⟨_, widened, rfl⟩ := map_eq_ok.mp read
      obtain ⟨m, found, rfl⟩ := bind_eq_ok.mp widened
      obtain ⟨decimal, inRange⟩ := (readDigits_zero_eq_ok_iff fun none => several none).mp found
      exact ⟨digits, m, decimal, .inr ⟨inRange, rfl, rfl⟩⟩
    · rename_i filled _ _ _ _
      obtain ⟨m, found, rfl⟩ := map_eq_ok.mp read
      obtain ⟨decimal, inRange⟩ := (readDigits_zero_eq_ok_iff fun none => filled none).mp found
      exact ⟨chars, m, decimal, .inl ⟨inRange, rfl, .inl rfl⟩⟩
  · rintro ⟨digits, m, decimal, ⟨inRange, rfl, split⟩ | ⟨inRange, rfl, rfl⟩⟩
    · have read : readDigits limit .tooLarge 0 digits = .ok m :=
        (readDigits_zero_eq_ok_iff decimal.filled).mpr ⟨decimal, inRange⟩
      obtain ⟨first, rest, rfl, digit⟩ := decimal.exists_cons
      rcases split with rfl | rfl
      · rw [readSigned_digits digit, read]
        rfl
      · exact map_eq_ok.mpr ⟨m, read, rfl⟩
    · have read : readDigits negativeLimit .tooSmall 0 digits = .ok m :=
        (readDigits_zero_eq_ok_iff decimal.filled).mpr ⟨decimal, inRange⟩
      rw [readSigned_minus decimal.filled, read]
      rfl

/-! ## Values -/

namespace Setting

theorem readHost_eq_ok_iff {text : String} {ip : IpAddr} :
    readHost text = .ok ip ↔ ip.Spelled text := by
  rw [← IpAddr.ofString?_eq_some_iff, readHost]
  cases IpAddr.ofString? text <;> simp

theorem readPort_eq_ok_iff {text : String} {port : UInt16} :
    readPort text = .ok port ↔ ∃ digits, Decimal digits port.toNat ∧
      (text.toList = digits ∨ text.toList = '+' :: digits ∨
        port = 0 ∧ text.toList = '-' :: digits) := by
  have bound := port.toNat_lt
  have limits : Int64.size / 2 = 9223372036854775808 := by decide
  constructor
  · intro read
    unfold readPort at read
    split at read
    · cases read
    · rename_i n found
      split_ifs at read with inRange
      obtain rfl := Except.ok.inj read
      obtain ⟨digits, m, decimal, ⟨-, rfl, split⟩ | ⟨-, rfl, split⟩⟩ :=
        readSigned_eq_ok_iff.mp found
      · have same : (m : Int).toNat.toUInt16.toNat = m := by
          rw [Int.toNat_natCast, Nat.toUInt16_eq, UInt16.toNat_ofNat', Nat.mod_eq_of_lt (by omega)]
        exact ⟨digits, same.symm ▸ decimal, split.imp_right .inl⟩
      · obtain rfl : m = 0 := by omega
        exact ⟨digits, decimal, .inr (.inr ⟨rfl, split⟩)⟩
  · rintro ⟨digits, decimal, split⟩
    have found : readInt64 text.toList = .ok (port.toNat : Int) := by
      refine readSigned_eq_ok_iff.mpr ⟨digits, port.toNat, decimal, ?_⟩
      rcases split with bare | plus | ⟨rfl, minus⟩
      · exact .inl ⟨by omega, rfl, .inl bare⟩
      · exact .inl ⟨by omega, rfl, .inr plus⟩
      · exact .inr ⟨by omega, rfl, minus⟩
    rw [readPort, found]
    simp only
    rw [if_pos (by omega), Int.toNat_natCast, Nat.toUInt16_eq, UInt16.ofNat_toNat]

theorem readMillis_eq_ok_iff {text : String} {millis : UInt64} :
    readMillis text = .ok millis ↔ ∃ digits, Decimal digits millis.toNat ∧
      (text.toList = digits ∨ text.toList = '+' :: digits) := by
  have bound := millis.toNat_lt
  have size : UInt64.size - 1 = 18446744073709551615 := by decide
  constructor
  · intro read
    unfold readMillis at read
    split at read
    · cases read
    · rename_i n found
      obtain rfl := Except.ok.inj read
      obtain ⟨inRange, digits, decimal, split⟩ := readUnsigned_eq_ok_iff.mp found
      have same : n.toUInt64.toNat = n := by
        rw [Nat.toUInt64_eq, UInt64.toNat_ofNat', Nat.mod_eq_of_lt (by omega)]
      exact ⟨digits, same.symm ▸ decimal, split⟩
  · rintro ⟨digits, decimal, split⟩
    have found : readUInt64 text.toList = .ok millis.toNat :=
      readUnsigned_eq_ok_iff.mpr ⟨by omega, digits, decimal, split⟩
    rw [readMillis, found]
    simp only [Nat.toUInt64_eq, UInt64.ofNat_toNat]

/-- The texts of a setting's values. -/
inductive Spells : Setting → String → SettingValue → Prop
  | host {text : String} {ip : IpAddr} (spelled : ip.Spelled text) : Spells .host text (.address ip)
  | port {s : Setting} {text : String} {port : UInt16} {digits : List Char}
    (isPort : s = .httpPort ∨ s = .grpcPort) (decimal : Decimal digits port.toNat)
    (split : text.toList = digits ∨ text.toList = '+' :: digits ∨
      port = 0 ∧ text.toList = '-' :: digits) : Spells s text (.port port)
  | millis {text : String} {millis : UInt64} {digits : List Char}
    (decimal : Decimal digits millis.toNat)
    (split : text.toList = digits ∨ text.toList = '+' :: digits) :
    Spells .sweepIntervalMillis text (.millis millis)
  | on {s : Setting} (flag : s.isFlag = true) : Spells s "true" (.switch true)
  | off {s : Setting} (flag : s.isFlag = true) : Spells s "false" (.switch false)

/-- A text is read as the value that it spells, and as none where it spells none. -/
theorem read?_eq_some_iff {s : Setting} {text : String} {value : SettingValue} :
    s.read? text = some value ↔ s.Spells text value := by
  have toOption_map_eq_some {α : Type} {read : Except ValueError α} {wrap : α → SettingValue} :
      read.toOption.map wrap = some value ↔ ∃ v, read = .ok v ∧ wrap v = value := by
    cases read <;> simp [Except.toOption]
  constructor
  · intro read
    have ofPort (isPort : s = .httpPort ∨ s = .grpcPort)
        (read : (readPort text).toOption.map .port = some value) : s.Spells text value := by
      obtain ⟨port, found, rfl⟩ := toOption_map_eq_some.mp read
      obtain ⟨digits, decimal, split⟩ := readPort_eq_ok_iff.mp found
      exact .port isPort decimal split
    have ofFlag (flag : s.isFlag = true) : s.Spells text value := by
      rw [read?_of_isFlag flag] at read
      split_ifs at read with on off
      · obtain rfl := Option.some.inj read
        exact on ▸ .on flag
      · obtain rfl := Option.some.inj read
        exact off ▸ .off flag
    cases s with
    | host =>
      obtain ⟨ip, found, rfl⟩ := toOption_map_eq_some.mp read
      exact .host (readHost_eq_ok_iff.mp found)
    | httpPort => exact ofPort (.inl rfl) read
    | grpcPort => exact ofPort (.inr rfl) read
    | sweepIntervalMillis =>
      obtain ⟨millis, found, rfl⟩ := toOption_map_eq_some.mp read
      obtain ⟨digits, decimal, split⟩ := readMillis_eq_ok_iff.mp found
      exact .millis decimal split
    | disableHttp | disableGrpc => exact ofFlag rfl
  · intro spells
    cases spells with
    | host spelled => exact toOption_map_eq_some.mpr ⟨_, readHost_eq_ok_iff.mpr spelled, rfl⟩
    | port isPort decimal split =>
      have found := readPort_eq_ok_iff.mpr ⟨_, decimal, split⟩
      rcases isPort with rfl | rfl <;> exact toOption_map_eq_some.mpr ⟨_, found, rfl⟩
    | millis decimal split =>
      exact toOption_map_eq_some.mpr ⟨_, readMillis_eq_ok_iff.mpr ⟨_, decimal, split⟩, rfl⟩
    | on flag => rw [read?_of_isFlag flag, if_pos rfl]
    | off flag => rw [read?_of_isFlag flag, if_neg (by decide), if_pos rfl]

end Setting

end ExpiringStore
