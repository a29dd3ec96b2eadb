import Mathlib.Tactic.ByContra
import ExpiringStore.Proofs.Operations

/-!
# What a sweep would leave

The entries of a table that are not expired at one clock reading, as the table that a sweep leaves.
Every operation acts on them as if the expired ones were not there, so whether a table has been
swept before shows in nothing that asks for live entries only.
-/
namespace ExpiringStore.Table

theorem ext_entries {t u : Table} (same : t.entries = u.entries) : t = u := by
  cases t
  cases u
  cases same
  rfl

/-- A filter that refuses all that another refuses makes up for it. -/
theorem filter_filter {keep more : String × Entry → Bool} (t : Table)
    (weaker : ∀ item, more item = true → keep item = true) :
    (t.filter keep).filter more = t.filter more := by
  apply ext_entries
  simp only [filter, List.filter_filter]
  refine List.filter_congr fun item _ => ?_
  cases kept : more item with
  | false => rfl
  | true => rw [weaker item kept]; rfl

theorem filter_comm (keep more : String × Entry → Bool) (t : Table) :
    (t.filter keep).filter more = (t.filter more).filter keep := by
  apply ext_entries
  simp only [filter, List.filter_filter, Bool.and_comm]

/-- A later sweep removes what an earlier one would have removed. -/
theorem withoutExpired_withoutExpired (t : Table) {now later : Instant}
    (order : now.toNanos ≤ later.toNanos) :
    (t.withoutExpired now).withoutExpired later = t.withoutExpired later := by
  refine t.filter_filter fun item live => ?_
  rw [Bool.not_eq_true', ← Bool.not_eq_true] at live ⊢
  exact fun expired => live (Entry.expiredAt_mono expired order)

theorem withoutExpired_erase (t : Table) (key : String) (now : Instant) :
    (t.erase key).withoutExpired now = (t.withoutExpired now).erase key := t.filter_comm _ _

theorem withoutExpired_insert (t : Table) (key : String) (entry : Entry) (now : Instant) :
    (t.insert key entry).withoutExpired now =
      if entry.expiredAt now then (t.withoutExpired now).erase key
      else (t.withoutExpired now).insert key entry := by
  rw [← withoutExpired_erase]
  apply ext_entries
  cases expired : entry.expiredAt now with
  | true => simp [withoutExpired, filter, insert, expired]
  | false =>
    simp only [Bool.false_eq_true, if_false, insert, ← withoutExpired_erase]
    simp [withoutExpired, filter, expired]

/-- An eviction takes away nothing that a sweep would leave. -/
theorem withoutExpired_evictExpired (t : Table) (key : String) (now : Instant) :
    (t.evictExpired key now).withoutExpired now = t.withoutExpired now := by
  unfold evictExpired
  split
  · rename_i seen
    refine ext_entries ?_
    simp only [withoutExpired, erase, filter, List.filter_filter]
    refine List.filter_congr fun item held => ?_
    by_cases same : item.1 = key
    · -- What is held under the key is the entry that was seen expired.
      have found : t.find? key = some item.2 := find?_eq_some_iff.mpr (same ▸ held)
      have expired : item.2.expiredAt now = true := by
        by_contra live
        simp [lookup, found, live] at seen
      rw [expired]
      rfl
    · simp [same]
  · rfl

theorem live?_eq_find?_withoutExpired (t : Table) (key : String) (now : Instant) :
    t.live? key now = (t.withoutExpired now).find? key := (t.find?_withoutExpired key now).symm

theorem liveKeys_eq_keys_withoutExpired (t : Table) (now : Instant) :
    t.liveKeys now = (t.withoutExpired now).entries.map Prod.fst := rfl

end ExpiringStore.Table
