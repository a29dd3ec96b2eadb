import Mathlib.Data.List.Induction
import Mathlib.Data.List.TakeWhile
import ExpiringStore.Address.Reader
import ExpiringStore.Proofs.Decimal

/-!
# Numbers within addresses

A number is read where digits of its base stand, as far as they reach, if there are few enough of
them. A decimal number has no zeros in front, so it stands there as it would be written. A
hexadecimal one may have them, and its letters are of either case.
-/
namespace ExpiringStore

/-- Whether digits of a base end where these characters begin. -/
def EndsDigits (base : Nat) (rest : List Char) : Prop := ∀ c ∈ rest.head?, digitValue? base c = none

/-- Hexadecimal digits of either case and the number that they spell. -/
inductive HexDigits : List Char → Nat → Prop
  | none : HexDigits [] 0
  | concat {front : List Char} {number d : Nat} {c : Char} (before : HexDigits front number)
    (small : d < 16) (digit : c = d.digitChar ∨ c = d.digitChar.toUpper) :
    HexDigits (front ++ [c]) (16 * number + d)

/-- One to four hexadecimal digits that spell a group of a version 6 address. -/
structure IsGroup (chars : List Char) (g : UInt16) : Prop where
  filled : chars ≠ []
  few : chars.length ≤ 4
  digits : HexDigits chars g.toNat

theorem digitValue?_eq_some_iff {base d : Nat} (atMost : base ≤ 16) {c : Char} :
    digitValue? base c = some d ↔ d < base ∧ (c = d.digitChar ∨ c = d.digitChar.toUpper) := by
  simp only [digitValue?, Option.filter_eq_some_iff, decide_eq_true_eq]
  rw [and_comm, and_congr_right_iff]
  intro small
  have within (low high : Char) :
      (decide (low ≤ c) && decide (c ≤ high)) = true ↔
      low.toNat ≤ c.toNat ∧ c.toNat ≤ high.toNat := by
    simp only [Bool.and_eq_true, decide_eq_true_eq, Char.le_def, UInt32.le_iff_toNat_le]
    exact Iff.rfl
  have table : ∀ d : Fin 16,
      (d.val < 10 → d.val.digitChar.toNat = 48 + d.val ∧
      d.val.digitChar.toUpper.toNat = 48 + d.val) ∧
        (10 ≤ d.val → d.val.digitChar.toNat = 87 + d.val ∧
          d.val.digitChar.toUpper.toNat = 55 + d.val) := by decide
  obtain ⟨decimal, letter⟩ := table ⟨d, by omega⟩
  have marks : '0'.toNat = 48 ∧ '9'.toNat = 57 ∧ 'a'.toNat = 97 ∧ 'f'.toNat = 102 ∧
      'A'.toNat = 65 ∧ 'F'.toNat = 70 := by decide
  obtain ⟨zero, nine, a, f, upperA, upperF⟩ := marks
  simp only [within, ← Char.toNat_inj (d := d.digitChar), zero, nine, a, f, upperA, upperF,
    ← Char.toNat_inj (d := d.digitChar.toUpper)]
  rcases Nat.lt_or_ge d 10 with few | many
  · obtain ⟨lower, upper⟩ := decimal few
    simp only at lower upper
    rw [lower, upper]
    split_ifs <;> simp <;> omega
  · obtain ⟨lower, upper⟩ := letter many
    simp only at lower upper
    rw [lower, upper]
    split_ifs <;> simp <;> omega

theorem digitValue?_digitChar {base d : Nat} (digit : d < base) (atMost : base ≤ 16) :
    digitValue? base d.digitChar = some d :=
  (digitValue?_eq_some_iff atMost).mpr ⟨digit, .inl rfl⟩

namespace AddressReader

theorem digitsValue_concat (base : Nat) (front : List Char) (c : Char) :
    digitsValue base (front ++ [c]) =
      base * digitsValue base front + (digitValue? base c).getD 0 := by
  simp only [digitsValue, List.foldl_append, List.foldl_cons, List.foldl_nil]

theorem exists_digit_of_isSome {base : Nat} (atMost : base ≤ 16) {c : Char}
    (digit : (digitValue? base c).isSome = true) :
    ∃ d, d < base ∧ (c = d.digitChar ∨ c = d.digitChar.toUpper) ∧ digitValue? base c = some d := by
  obtain ⟨d, read⟩ := Option.isSome_iff_exists.mp digit
  obtain ⟨small, spelled⟩ := (digitValue?_eq_some_iff atMost).mp read
  exact ⟨d, small, spelled, read⟩

/-- Digits are taken as far as they reach, and what is left begins with none. -/
theorem takeWhile_eq_iff {base : Nat} {cs digits rest : List Char} (split : cs = digits ++ rest) :
    cs.takeWhile (fun c => (digitValue? base c).isSome) = digits ↔
      (∀ c ∈ digits, (digitValue? base c).isSome = true) ∧ EndsDigits base rest := by
  subst split
  constructor
  · intro taken
    have all : ∀ c ∈ digits, (digitValue? base c).isSome = true := fun c mem =>
      @List.mem_takeWhile_imp _ (fun c => (digitValue? base c).isSome) _ _ (taken ▸ mem)
    refine ⟨all, fun c first => ?_⟩
    rw [List.takeWhile_append_of_pos all, List.append_right_eq_self] at taken
    cases rest with
    | nil => cases first
    | cons d behind =>
      obtain rfl := Option.some.inj first
      by_contra digit
      rw [List.takeWhile_cons, if_pos (Option.isSome_iff_ne_none.mpr digit)] at taken
      cases taken
  · rintro ⟨all, ends⟩
    rw [List.takeWhile_append_of_pos all]
    cases rest with
    | nil => exact List.append_nil _
    | cons c behind =>
      have stop : digitValue? base c = none := ends c rfl
      rw [List.takeWhile_cons, stop]
      exact List.append_nil _

/-- A number is made of the digits that stand there if they are few enough and begin with no zero
where none may be in front. -/
theorem number_eq_some_iff {base places n : Nat} {padded : Bool} {cs rest : List Char} :
    number base places padded cs = some (n, rest) ↔
      ∃ digits, cs = digits ++ rest ∧ EndsDigits base rest ∧
        (∀ c ∈ digits, (digitValue? base c).isSome = true) ∧ digits ≠ [] ∧ digits.length ≤ places ∧
        (padded = false → digits.head? = some '0' → digits.length ≤ 1) ∧
        digitsValue base digits = n := by
  constructor
  · intro read
    unfold number at read
    obtain ⟨digits, taken⟩ :
        ∃ digits, cs.takeWhile (fun c => (digitValue? base c).isSome) = digits :=
      ⟨_, rfl⟩
    have split : cs = digits ++ cs.drop digits.length := by
      rw [← taken]
      exact (List.prefix_iff_eq_append.mp (List.takeWhile_prefix _)).symm
    obtain ⟨all, ends⟩ := (takeWhile_eq_iff split).mp taken
    simp only [taken] at read
    split_ifs at read with amount zeros
    obtain ⟨value, rfl⟩ := Prod.mk.inj (Option.some.inj read)
    simp at amount zeros
    exact ⟨digits, split, ends, all, amount.1, amount.2, zeros, value⟩
  · rintro ⟨digits, split, ends, all, filled, few, zeros, value⟩
    have taken := (takeWhile_eq_iff split).mpr ⟨all, ends⟩
    unfold number
    simp only [taken]
    rw [if_neg, if_neg, value, split, List.drop_left]
    · simpa using zeros
    · simp [filled, few]

/-! ## Decimal numbers -/

/-- The digits of a number have its value. -/
theorem digitsValue_toDigits (n : Nat) :
    (∀ c ∈ Nat.toDigits 10 n, (digitValue? 10 c).isSome = true) ∧
      digitsValue 10 (Nat.toDigits 10 n) = n := by
  induction n using Nat.strongRecOn with
  | ind n ih =>
    have last := @digitValue?_digitChar 10 (n % 10) (Nat.mod_lt n (by decide)) (by decide)
    rw [Nat.toDigits_eq_if (by decide)]
    split
    · rename_i small
      rw [Nat.mod_eq_of_lt small] at last
      simp [digitsValue, last]
    · obtain ⟨digits, value⟩ := ih (n / 10) (by omega)
      refine ⟨fun c mem => ?_, ?_⟩
      · rcases List.mem_append.mp mem with front | final
        · exact digits c front
        · rw [List.mem_singleton.mp final, last]
          rfl
      · rw [digitsValue_concat, value, last, Option.getD_some, Nat.div_add_mod]

/-- Decimal digits without zeros in front are those that their number is written with. -/
theorem eq_toDigits {digits : List Char} (all : ∀ c ∈ digits, (digitValue? 10 c).isSome = true)
    (filled : digits ≠ []) (zeros : digits.head? = some '0' → digits.length ≤ 1) :
    digits = Nat.toDigits 10 (digitsValue 10 digits) := by
  induction digits using List.reverseRecOn with
  | nil => exact absurd rfl filled
  | append_singleton front c ih =>
    obtain ⟨d, small, spelled, read⟩ :=
      exists_digit_of_isSome (by decide) (all c (List.mem_append_right _ List.mem_cons_self))
    have lower : c = d.digitChar := by
      have table : ∀ d : Fin 10, d.val.digitChar.toUpper = d.val.digitChar := by decide
      have upper : d.digitChar.toUpper = d.digitChar := table ⟨d, small⟩
      rwa [upper, or_self] at spelled
    rw [digitsValue_concat, read, Option.getD_some, Nat.toDigits_eq_if (by decide)]
    cases front with
    | nil => simp [digitsValue, small, lower]
    | cons first others =>
      have several : first ≠ '0' := fun zero => by simpa using zeros (by simp [zero])
      have same := ih (fun e mem => all e (List.mem_append_left _ mem)) (List.cons_ne_nil _ _)
        (fun zero => absurd (Option.some.inj zero) several)
      have positive : digitsValue 10 (first :: others) ≠ 0 := by
        intro none
        rw [none] at same
        exact several (List.cons.inj same).1
      generalize digitsValue 10 (first :: others) = n at same positive
      rw [if_neg (by omega), same, lower]
      congr
      · omega
      · omega

/-- A number of a version 4 address is a byte as it is written. -/
theorem octet_eq_some_iff {cs rest : List Char} {n : UInt8} :
    octet cs = some (n, rest) ↔ cs = Nat.toDigits 10 n.toNat ++ rest ∧ EndsDigits 10 rest := by
  constructor
  · intro read
    unfold octet at read
    split at read
    · cases read
    · rename_i value behind found
      split_ifs at read with small
      obtain ⟨rfl, rfl⟩ := Prod.mk.inj (Option.some.inj read)
      obtain ⟨digits, split, ends, all, filled, -, zeros, spelled⟩ := number_eq_some_iff.mp found
      have same := eq_toDigits all filled (zeros rfl)
      rw [Nat.toUInt8_eq, UInt8.toNat_ofNat', Nat.mod_eq_of_lt small, ← spelled, ← same]
      exact ⟨split, ends⟩
  · rintro ⟨split, ends⟩
    have small := n.toNat_lt
    obtain ⟨all, value⟩ := digitsValue_toDigits n.toNat
    have few : (Nat.toDigits 10 n.toNat).length ≤ 3 :=
      (Nat.length_toDigits_le_iff (by decide) (by decide)).mpr (by omega)
    have zeros : (Nat.toDigits 10 n.toNat).head? = some '0' →
        (Nat.toDigits 10 n.toNat).length ≤ 1 := by
      intro zero
      obtain ⟨first, others, digits, -, -, none⟩ := toDigits_eq_cons n.toNat
      rw [digits, List.head?_cons, Option.some.injEq] at zero
      rw [none zero]
      exact Nat.le_refl 1
    have filled : Nat.toDigits 10 n.toNat ≠ [] := List.length_pos_iff.mp Nat.length_toDigits_pos
    have found : number 10 3 false cs = some (n.toNat, rest) :=
      number_eq_some_iff.mpr ⟨_, split, ends, all, filled, few, fun _ => zeros, value⟩
    rw [octet, found]
    simp only
    rw [if_pos (by omega), Nat.toUInt8_eq, UInt8.ofNat_toNat]

/-! ## Groups -/

theorem hexDigits_iff {chars : List Char} {n : Nat} : HexDigits chars n ↔
    (∀ c ∈ chars, (digitValue? 16 c).isSome = true) ∧ digitsValue 16 chars = n := by
  constructor
  · intro digits
    induction digits with
    | none => exact ⟨by simp, rfl⟩
    | concat before small digit ih =>
      have read := (digitValue?_eq_some_iff (Nat.le_refl 16)).mpr ⟨small, digit⟩
      refine ⟨?_, by rw [digitsValue_concat, ih.2, read, Option.getD_some]⟩
      intro c mem
      rcases List.mem_append.mp mem with front | last
      · exact ih.1 c front
      · rw [List.mem_singleton.mp last, read]
        rfl
  · rintro ⟨all, rfl⟩
    induction chars using List.reverseRecOn with
    | nil => exact .none
    | append_singleton front c ih =>
      obtain ⟨d, small, spelled, read⟩ :=
        exists_digit_of_isSome (Nat.le_refl 16) (all c (List.mem_append_right _ List.mem_cons_self))
      rw [digitsValue_concat, read, Option.getD_some]
      exact .concat (ih fun e mem => all e (List.mem_append_left _ mem)) small spelled

theorem hexDigits_toDigits (n : Nat) : HexDigits (Nat.toDigits 16 n) n := by
  induction n using Nat.strongRecOn with
  | ind n ih =>
    rw [Nat.toDigits_eq_if (by decide)]
    split
    · rename_i small
      have single := HexDigits.concat .none small (.inl rfl)
      rwa [Nat.mul_zero, Nat.zero_add] at single
    · have before := ih (n / 16) (by omega)
      have all := before.concat (Nat.mod_lt n (by decide)) (.inl rfl)
      rwa [Nat.div_add_mod] at all

theorem lt_of_hexDigits {chars : List Char} {n : Nat} (digits : HexDigits chars n) :
    n < Nat.pow 16 chars.length := by
  induction digits with
  | none => decide
  | @concat front number d c before small digit ih =>
    have more : Nat.pow 16 (front ++ [c]).length = Nat.pow 16 front.length * 16 := by
      rw [List.length_append]
      rfl
    rw [more]
    omega

/-- A group is written with at most four digits. -/
theorem isGroup_toDigits (g : UInt16) : IsGroup (Nat.toDigits 16 g.toNat) g where
  filled := List.length_pos_iff.mp Nat.length_toDigits_pos
  few := (Nat.length_toDigits_le_iff (by decide) (by decide)).mpr (by have := g.toNat_lt; omega)
  digits := hexDigits_toDigits g.toNat

theorem group_eq_some_iff {cs rest : List Char} {g : UInt16} :
    group cs = some (g, rest) ↔
      ∃ chars, cs = chars ++ rest ∧ EndsDigits 16 rest ∧ IsGroup chars g := by
  rw [group, Option.map_eq_some_iff]
  constructor
  · rintro ⟨⟨n, behind⟩, read, same⟩
    obtain ⟨rfl, rfl⟩ := Prod.mk.inj same
    obtain ⟨chars, split, ends, all, filled, few, -, value⟩ := number_eq_some_iff.mp read
    have digits := hexDigits_iff.mpr ⟨all, value⟩
    have small : n < 65536 :=
      Nat.lt_of_lt_of_le (lt_of_hexDigits digits) (Nat.pow_le_pow_right (by decide) few)
    refine ⟨chars, split, ends, filled, few, ?_⟩
    rwa [Nat.toUInt16_eq, UInt16.toNat_ofNat', Nat.mod_eq_of_lt small]
  · rintro ⟨chars, split, ends, filled, few, digits⟩
    obtain ⟨all, value⟩ := hexDigits_iff.mp digits
    have read : number 16 4 true cs = some (g.toNat, rest) :=
      number_eq_some_iff.mpr ⟨chars, split, ends, all, filled, few, by simp, value⟩
    exact ⟨_, read, by simp⟩

end AddressReader

end ExpiringStore
