import ExpiringStore.Wire.Spelling

/-!
# Messages are read as they are meant

Every spelling of a number is read as that number, and every row of fields as those fields.
-/
namespace ExpiringStore

namespace Varint

theorem Groups.length_pos {n : Nat} {bytes : Bytes} (groups : Groups n bytes) :
    0 < bytes.length := by
  cases groups <;> simp

theorem readUpTo_of_groups {n : Nat} {bytes : Bytes} (groups : Groups n bytes) {places : Nat}
    (short : bytes.length ≤ places) (fits : n < capacity places) (rest : Bytes) :
    readUpTo places (bytes ++ rest) = some (n, rest) := by
  induction groups generalizing places with
  | @last b final =>
    obtain _ | places := places
    · exact absurd short (by simp)
    · have small : b < 0x80 := UInt8.lt_iff_toNat_lt.mpr final
      have lastPlace : ¬(places = 0 ∧ 1 < b) := by
        rintro ⟨rfl, big⟩
        exact absurd fits (Nat.not_lt.mpr (UInt8.lt_iff_toNat_lt.mp big))
      rw [List.singleton_append, readUpTo, if_pos small, if_neg lastPlace]
  | @more b high bytes continued others ih =>
    obtain _ | _ | places := places
    · exact absurd short (by simp)
    · have some := others.length_pos
      simp only [List.length_cons] at short
      omega
    · have large : ¬b < 0x80 := by
        rw [UInt8.lt_iff_toNat_lt]
        exact Nat.not_lt.mpr continued
      have read := @ih (places + 1) (by simpa using short) (by rw [capacity] at fits; omega)
      rw [List.cons_append, readUpTo, if_neg large, read]

/-- Every spelling of a number is read as that number, whatever follows it. -/
theorem read_of_spelled {n : Nat} {bytes : Bytes} (spelled : Spelled n bytes) (rest : Bytes) :
    read (bytes ++ rest) = some (n, rest) :=
  readUpTo_of_groups spelled.groups spelled.short spelled.fits rest

theorem groups_write (n : Nat) : Groups n (write n) := by
  induction n using write.induct with
  | case1 n small =>
    have byte := toNat_toUInt8 (by omega : n < 256)
    rw [write, if_pos small]
    have last := @Groups.last n.toUInt8 (by omega)
    rwa [byte] at last
  | case2 n large ih =>
    have byte := toNat_toUInt8 (by omega : n % 0x80 + 0x80 < 256)
    rw [write, if_neg large]
    have more := @Groups.more (n % 0x80 + 0x80).toUInt8 _ _ (by omega) ih
    have value : (n % 0x80 + 0x80).toUInt8.toNat - 0x80 + 0x80 * (n / 0x80) = n := by omega
    rwa [value] at more

theorem length_write_le {n places : Nat} (fits : n < capacity places) :
    (write n).length ≤ places := by
  induction n using write.induct generalizing places with
  | case1 n small =>
    rw [write, if_pos small]
    obtain _ | places := places
    · exact absurd fits (Nat.not_lt_zero n)
    · simp
  | case2 n large ih =>
    rw [write, if_neg large]
    obtain _ | _ | places := places
    · exact absurd fits (Nat.not_lt_zero n)
    · simp only [capacity] at fits
      omega
    · have others := @ih (places + 1) (Nat.div_lt_of_lt_mul fits)
      simp only [List.length_cons]
      omega

/-- The shortest way to write a 64-bit number is one of its spellings. -/
theorem spelled_write {n : Nat} (fits : n < UInt64.size) : Spelled n (write n) :=
  ⟨groups_write n, @length_write_le n 10 fits, fits⟩

theorem spelled_byte (b : UInt8) (final : b.toNat < 0x80) : Spelled b.toNat [b] :=
  ⟨.last final, Nat.le_add_left 1 9, Nat.lt_trans final (by decide)⟩

/-- A 64-bit number is read back from what is written for it. -/
theorem read_write {n : Nat} (fits : n < UInt64.size) (rest : Bytes) :
    read (write n ++ rest) = some (n, rest) :=
  read_of_spelled (spelled_write fits) rest

end Varint

namespace WireItem

/-- The key of a field is read as its number and the kind of its payload. -/
theorem read_of_key {number kind : Nat} {key : Bytes}
    (keyed : Varint.Spelled (8 * number + kind) key) (isKind : kind < 8)
    (numbered : 0 < number ∧ number < 536870912) (rest : Bytes) :
    read (key ++ rest) = readPayload number kind rest := by
  have number_eq : (8 * number + kind) / 8 = number := by omega
  have kind_eq : (8 * number + kind) % 8 = kind := by omega
  have admissible : ¬(UInt32.size ≤ 8 * number + kind ∨ number = 0) := by
    have size : UInt32.size = 4294967296 := rfl
    omega
  rw [read, Varint.read_of_spelled keyed]
  simp only [number_eq, kind_eq]
  rw [if_neg admissible]

/-- Every spelling of a field is read as that field, whatever follows it. -/
theorem read_of_spelled {field : Field} {text : Bytes} (spelled : field.Spelled text)
    (numbered : field.Numbered) (rest : Bytes) :
    read (text ++ rest) = some (.field field, rest) := by
  cases spelled with
  | @varint number value key text keyed spelled =>
    rw [List.append_assoc, @read_of_key number 0 _ keyed (by decide) numbered, readPayload,
      Varint.read_of_spelled spelled, Option.map_some]
  | @fixed64 number key content keyed whole =>
    have taken := Bytes.split?_append content rest
    rw [whole] at taken
    rw [List.append_assoc, read_of_key keyed (by decide) numbered, readPayload, taken,
      Option.map_some]
  | bytes keyed sized =>
    rw [List.append_assoc, List.append_assoc, read_of_key keyed (by decide) numbered, readPayload,
      Varint.read_of_spelled sized]
    simp only [Option.bind_some, Bytes.split?_append, Option.map_some]
  | @fixed32 number key content keyed whole =>
    have taken := Bytes.split?_append content rest
    rw [whole] at taken
    rw [List.append_assoc, read_of_key keyed (by decide) numbered, readPayload, taken,
      Option.map_some]

end WireItem

namespace Field

/-- A field outside all groups is kept. -/
theorem collect_field {field : Field} {bytes rest : Bytes} (fields : List Field)
    (read : WireItem.read bytes = some (.field field, rest)) :
    collect [] fields bytes = collect [] (field :: fields) rest := by
  have filled : bytes.isEmpty = false := by
    cases bytes with
    | nil => cases read
    | cons => rfl
  rw [collect, if_neg (by simp [filled])]
  split <;> rename_i found <;> rw [read] at found <;> cases found
  rw [if_neg (by decide)]
  rfl

/-- A row of fields is read as those fields. -/
theorem collect_of_row {fields : List Field} {bytes : Bytes} (row : Row fields bytes)
    (earlier : List Field) : collect [] earlier bytes = some (earlier.reverse ++ fields) := by
  induction row generalizing earlier with
  | nil =>
    rw [collect, List.append_nil]
    rfl
  | @cons field rest text bytes numbered spelled _ ih =>
    rw [collect_field earlier (WireItem.read_of_spelled spelled numbered bytes), ih,
      List.reverse_cons, List.append_assoc]
    rfl

theorem Row.single {field : Field} {text : Bytes} (numbered : field.Numbered)
    (spelled : field.Spelled text) :
    Row [field] text := by
  have row := Row.cons numbered spelled .nil
  rwa [List.append_nil] at row

theorem Row.append {front back : List Field} {first second : Bytes} (row : Row front first)
    (other : Row back second) : Row (front ++ back) (first ++ second) := by
  induction row with
  | nil => exact other
  | cons numbered spelled _ ih =>
    rw [List.cons_append, List.append_assoc]
    exact .cons numbered spelled ih

theorem parse?_of_row {fields : List Field} {message : Bytes} (row : Row fields message) :
    parse? message = some fields := collect_of_row row []

end Field

end ExpiringStore
