import ExpiringStore.Proofs.Decimal
import ExpiringStore.Text.Order

/-!
# The order of texts

Texts stand in the order of their UTF-8 bytes as they stand in the order of their characters: of two
characters the one with the smaller code has the smaller bytes, whatever follows. So a row of texts
that is sorted by bytes is sorted by characters, and there is one such row for each set of texts.
-/
namespace ExpiringStore

namespace Bytes

/-- The bytes of a character: its code in digits of six bits, marked by how many there are. -/
theorem utf8EncodeChar_cases (c : Char) :
    (c.val.toNat < 128 ∧ String.utf8EncodeChar c = [.ofNat c.val.toNat]) ∨
    (∃ a b, c.val.toNat = 64 * a + b ∧ 2 ≤ a ∧ a < 32 ∧ b < 64 ∧
      String.utf8EncodeChar c = [.ofNat (a + 192), .ofNat (b + 128)]) ∨
    (∃ a b d, c.val.toNat = 4096 * a + 64 * b + d ∧ 32 ≤ 64 * a + b ∧ a < 16 ∧ b < 64 ∧ d < 64 ∧
      String.utf8EncodeChar c = [.ofNat (a + 224), .ofNat (b + 128), .ofNat (d + 128)]) ∨
    ∃ a b d e, c.val.toNat = 262144 * a + 4096 * b + 64 * d + e ∧
      16 ≤ 64 * a + b ∧ a < 8 ∧ b < 64 ∧ d < 64 ∧
      e < 64 ∧
      String.utf8EncodeChar c = [.ofNat (a + 240), .ofNat (b + 128), .ofNat (d + 128),
        .ofNat (e + 128)] := by
  have bound : c.val.toNat < 1114112 := by
    rcases c.valid with low | high
    · exact Nat.lt_trans low (by decide)
    · exact high.2
  simp only [String.utf8EncodeChar]
  generalize c.val.toNat = v at bound ⊢
  by_cases one : v ≤ 127
  · exact .inl ⟨by omega, if_pos one⟩
  · by_cases two : v ≤ 2047
    · refine .inr (.inl ⟨v / 64 % 32, v % 64, ?_, ?_, ?_, ?_,
        by rw [if_neg one, if_pos two]⟩) <;> omega
    · by_cases three : v ≤ 65535
      · refine .inr (.inr (.inl ⟨v / 4096 % 16, v / 64 % 64, v % 64, ?_, ?_, ?_, ?_, ?_,
          by rw [if_neg one, if_neg two, if_pos three]⟩)) <;> omega
      · refine .inr (.inr (.inr ⟨v / 262144 % 8, v / 4096 % 64, v / 64 % 64, v % 64, ?_, ?_, ?_,
          ?_, ?_, ?_, by rw [if_neg one, if_neg two, if_neg three]⟩)) <;> omega

/-- The smaller of two characters has the smaller bytes, whatever follows. -/
theorem utf8EncodeChar_append_lt {c d : Char} (smaller : c < d) (rest more : Bytes) :
    String.utf8EncodeChar c ++ rest < String.utf8EncodeChar d ++ more := by
  have less : c.val.toNat < d.val.toNat := smaller
  rcases utf8EncodeChar_cases c with ⟨_, bytes⟩ | ⟨_, _, _, _, _, _, bytes⟩ |
      ⟨_, _, _, _, _, _, _, _, bytes⟩ | ⟨_, _, _, _, _, _, _, _, _, _, bytes⟩ <;>
    rcases utf8EncodeChar_cases d with ⟨_, others⟩ | ⟨_, _, _, _, _, _, others⟩ |
        ⟨_, _, _, _, _, _, _, _, others⟩ | ⟨_, _, _, _, _, _, _, _, _, _, others⟩ <;>
    -- Where both have as many bytes, the first ones may be equal, and then the next ones decide.
    simp only [bytes, others, List.cons_append, List.nil_append, List.cons_lt_cons_iff,
      UInt8.lt_iff_toNat_lt, ← UInt8.toNat_inj, UInt8.toNat_ofNat'] <;>
    omega

theorem flatMap_utf8EncodeChar_lt {s t : List Char} (before : s < t) :
    s.flatMap String.utf8EncodeChar < t.flatMap String.utf8EncodeChar := by
  induction before with
  | @nil d rest =>
    obtain ⟨first, others, bytes⟩ := List.exists_cons_of_ne_nil (@String.utf8EncodeChar_ne_nil d)
    rw [List.flatMap_nil, List.flatMap_cons, bytes]
    exact List.nil_lt_cons _ _
  | rel smaller => exact utf8EncodeChar_append_lt smaller _ _
  | cons _ ih => exact List.append_left_lt ih

/-- The order of texts by bytes is their order by characters. -/
theorem ofString_lt_iff {s t : String} : ofString s < ofString t ↔ s < t := by
  have kept {s t : String} (before : s < t) : ofString s < ofString t := by
    rw [ofString_eq_flatMap, ofString_eq_flatMap]
    exact flatMap_utf8EncodeChar_lt (String.lt_iff.mp before)
  refine ⟨fun before => Decidable.byContradiction fun notBefore => ?_, kept⟩
  have atOrAfter := String.not_lt.mp notBefore
  by_cases same : s = t
  · exact List.lt_irrefl _ (same ▸ before)
  · have after : t < s := String.not_le.mp fun atOrBefore =>
      same (String.le_antisymm atOrBefore atOrAfter)
    exact List.lt_asymm before (kept after)

theorem atOrBefore_iff {a b : Bytes} : a.atOrBefore b = true ↔ a ≤ b := by
  induction a generalizing b with
  | nil => simp [atOrBefore]
  | cons x as ih =>
    cases b with
    | nil => simp [atOrBefore]
    | cons y bs => simp [atOrBefore, List.cons_le_cons_iff, ih]

end Bytes

/-! ## Sorted rows -/

theorem perm_sortKeys (keys : List String) : (sortKeys keys).Perm keys := List.mergeSort_perm _ _

/-- Keys that are sorted stand each at or before those that follow. -/
theorem pairwise_sortKeys (keys : List String) :
    (sortKeys keys).Pairwise fun a b => Bytes.ofString a ≤ Bytes.ofString b := by
  refine (List.pairwise_mergeSort (fun a b c => ?_) (fun a b => ?_) keys).imp
    Bytes.atOrBefore_iff.mp
  · simp only [Bytes.atOrBefore_iff]
    exact List.le_trans
  · simp only [Bool.or_eq_true, Bytes.atOrBefore_iff]
    exact List.le_total _ _

/-- Without repetitions, sorted keys stand each before those that follow. -/
theorem strict_sortKeys {keys : List String} (once : keys.Nodup) :
    (sortKeys keys).Pairwise fun a b => Bytes.ofString a < Bytes.ofString b := by
  have differ : (sortKeys keys).Pairwise (· ≠ ·) := (perm_sortKeys keys).nodup_iff.mpr once
  refine ((pairwise_sortKeys keys).and differ).imp fun ⟨atOrBefore, differs⟩ => ?_
  exact List.not_le.mp fun atOrAfter =>
    differs (Bytes.ofString_injective (List.le_antisymm atOrBefore atOrAfter))

/-- There is one sorted row for each set of keys. -/
theorem sortKeys_eq_of_mem_iff {keys others : List String} (once : keys.Nodup)
    (othersOnce : others.Nodup) (same : ∀ key, key ∈ keys ↔ key ∈ others) :
    sortKeys keys = sortKeys others := by
  have perm : (sortKeys keys).Perm (sortKeys others) :=
    ((perm_sortKeys keys).trans ((List.perm_ext_iff_of_nodup once othersOnce).mpr same)).trans
      (perm_sortKeys others).symm
  refine List.Perm.eq_of_pairwise (fun a b _ _ before after => ?_) (pairwise_sortKeys keys)
    (pairwise_sortKeys others) perm
  exact Bytes.ofString_injective (List.le_antisymm before after)

end ExpiringStore
