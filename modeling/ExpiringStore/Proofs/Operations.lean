import ExpiringStore.Proofs.Expiry
import ExpiringStore.Store.Session

/-!
# Operations by what they leave and answer

Each operation of a store in one equation: the table it leaves and the answer it gives. A read is an
eviction of its key and a look at the live entry, whichever way it went.
-/
namespace ExpiringStore

namespace Table

/-- The entry under a key that a reader still sees at `now`. -/
def live? (t : Table) (key : String) (now : Instant) : Option Entry :=
  (t.find? key).filter fun entry => !entry.expiredAt now

theorem live?_eq_some_iff {t : Table} {key : String} {now : Instant} {entry : Entry} :
    t.live? key now = some entry ↔
      t.find? key = some entry ∧ entry.expiredAt now = false := by
  simp [live?, Option.filter_eq_some_iff]

theorem mem_liveKeys_iff {t : Table} {key : String} {now : Instant} :
    key ∈ t.liveKeys now ↔ (t.live? key now).isSome = true := by
  simp only [mem_liveKeys, Option.isSome_iff_exists, live?_eq_some_iff]

/-- A reader sees the live entry's value or none. -/
theorem map_value_live? (t : Table) (key : String) (now : Instant) :
    (t.live? key now).map Entry.value =
      match t.lookup key now with
      | .live value => some value
      | .missing | .expired => none := by
  unfold live? lookup
  cases t.find? key with
  | none => rfl
  | some entry => cases expired : entry.expiredAt now <;> simp [expired, Option.filter_some]

end Table

namespace Store

/-- Reading a key evicts it if it has expired, and answers with its live value. -/
theorem get_eq (s : Store) (key : String) (now : Instant) :
    s.get key now =
      ({ s with table := s.table.evictExpired key now },
        (s.table.live? key now).map Entry.value) := by
  rw [Table.map_value_live?]
  unfold get Table.evictExpired
  cases found : s.table.lookup key now with
  | missing => rfl
  | live value => rfl
  | expired => simp only

/-- A read of a live key leaves the store as it is. -/
theorem get_of_live {s : Store} {key : String} {now : Instant} {entry : Entry}
    (live : s.table.live? key now = some entry) : s.get key now = (s, some entry.value) := by
  obtain ⟨held, notExpired⟩ := Table.live?_eq_some_iff.mp live
  simp [get, Table.lookup, held, notExpired]

/-- Deleting removes the key whatever is under it, and answers whether that was live. -/
theorem delete_eq (s : Store) (key : String) (now : Instant) :
    s.delete key now =
      ({ s with table := s.table.erase key }, (s.table.live? key now).isSome) := by
  unfold delete Table.remove Table.live?
  cases found : s.table.find? key with
  | none => simp
  | some entry => cases expired : entry.expiredAt now <;> simp [expired, Option.filter_some]

/-- What a reader sees of a key that has been written: the new entry, until it expires. -/
theorem live?_set (s : Store) (key value : String) (ttl : Option Duration) (now t : Instant) :
    (s.set key value ttl now).table.live? key t =
      if (Entry.withTtl value ttl now).expiredAt t
        then none else some (Entry.withTtl value ttl now) := by
  have held : (s.set key value ttl now).table.find? key = some (Entry.withTtl value ttl now) :=
    (Table.find?_insert s.table key key _).trans (if_pos rfl)
  rw [Table.live?, held, Option.filter_some]
  cases (Entry.withTtl value ttl now).expiredAt t <;> rfl

/-- What moving the clock leaves of a table: all of it, or what a sweep at
the new reading leaves. -/
theorem pass_fst (s : Store) (before after : Instant) :
    (s.pass before after).1 =
      if s.sweeper.wakes before after then
        { s with table := s.table.withoutExpired after } else s := by
  unfold pass
  split <;> rfl

end Store

end ExpiringStore
