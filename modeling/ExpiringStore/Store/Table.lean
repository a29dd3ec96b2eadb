import ExpiringStore.Store.Entry

/-!
# The key table

What a store holds: at most one entry under each key, expired ones included until something removes
them. Each operation is what one holder of the table's lock does with one clock reading. A table is
known by `find?`, and each operation has a lemma that says what becomes of it.
-/
namespace ExpiringStore

/-- Entries by key, no key twice. Their order means nothing. -/
structure Table where
  entries : List (String × Entry)
  distinct : (entries.map Prod.fst).Nodup := by decide
  deriving DecidableEq, Repr

/-- What a reader finds under a key at one clock reading. -/
inductive Lookup where
  | missing
  | live (value : String)
  | expired
  deriving DecidableEq, Repr

namespace Table

/-- Leaving entries out never brings a key in twice. -/
theorem nodup_keys_filter {entries : List (String × Entry)} (keep : String × Entry → Bool)
    (h : (entries.map Prod.fst).Nodup) : ((entries.filter keep).map Prod.fst).Nodup :=
  (List.filter_sublist.map Prod.fst).nodup h

def empty : Table := ⟨[], List.nodup_nil⟩

def filter (keep : String × Entry → Bool) (t : Table) : Table :=
  ⟨t.entries.filter keep, nodup_keys_filter keep t.distinct⟩

def find? (t : Table) (key : String) : Option Entry := t.entries.lookup key

/-- The number of entries, expired ones included. -/
def size (t : Table) : Nat := t.entries.length

def erase (t : Table) (key : String) : Table := t.filter fun item => item.1 != key

/-- The table with `entry` under `key` and under all other keys what it held. -/
def insert (t : Table) (key : String) (entry : Entry) : Table :=
  ⟨(key, entry) :: (t.erase key).entries, by
    refine List.nodup_cons.mpr ⟨fun mem => ?_, (t.erase key).distinct⟩
    obtain ⟨item, held, same⟩ := List.mem_map.mp mem
    have differs := (List.mem_filter.mp held).2
    simp [same] at differs⟩

def lookup (t : Table) (key : String) (now : Instant) : Lookup :=
  match t.find? key with
  | none => .missing
  | some entry => if entry.expiredAt now then .expired else .live entry.value

/-- Removes `key` if the entry under it is expired at `now`, which is judged again here because the
key may have been written since a reader saw it expired. -/
def evictExpired (t : Table) (key : String) (now : Instant) : Table :=
  match t.lookup key now with
  | .expired => t.erase key
  | _ => t

def remove (t : Table) (key : String) : Table × Option Entry := (t.erase key, t.find? key)

def liveKeys (t : Table) (now : Instant) : List String :=
  (t.entries.filter fun item => !item.2.expiredAt now).map Prod.fst

def withoutExpired (t : Table) (now : Instant) : Table := t.filter fun item => !item.2.expiredAt now

/-- Removes the entries that are expired at `now` and counts them. -/
def sweep (t : Table) (now : Instant) : Table × Nat :=
  (t.withoutExpired now, t.size - (t.withoutExpired now).size)

/-! ## What the operations do to `find?` -/

theorem lookup_eq_some_iff {entries : List (String × Entry)}
    (distinct : (entries.map Prod.fst).Nodup) {key : String} {entry : Entry} :
    entries.lookup key = some entry ↔ (key, entry) ∈ entries := by
  induction entries with
  | nil => simp
  | cons item rest ih =>
    obtain ⟨k, e⟩ := item
    simp only [List.map_cons, List.nodup_cons] at distinct
    by_cases same : key = k
    · subst same
      have absent : (key, entry) ∉ rest := fun held =>
        distinct.1 (List.mem_map.mpr ⟨(key, entry), held, rfl⟩)
      simp [absent, eq_comm]
    · have differs : (key == k) = false := by simpa using same
      simp [List.lookup_cons, differs, ih distinct.2, same]

/-- What is found under a key is what is held under it. -/
theorem find?_eq_some_iff {t : Table} {key : String} {entry : Entry} :
    t.find? key = some entry ↔ (key, entry) ∈ t.entries := lookup_eq_some_iff t.distinct

theorem find?_empty (key : String) : empty.find? key = none := rfl

theorem find?_filter (t : Table) (keep : String × Entry → Bool) (key : String) :
    (t.filter keep).find? key = (t.find? key).filter fun entry => keep (key, entry) := by
  apply Option.ext
  intro entry
  rw [find?_eq_some_iff, Option.filter_eq_some_iff, find?_eq_some_iff]
  simp [filter, List.mem_filter]

theorem find?_erase (t : Table) (key other : String) :
    (t.erase key).find? other = if other = key then none else t.find? other := by
  rw [erase, find?_filter]
  by_cases same : other = key
  · simp [same]
  · cases t.find? other <;> simp [same]

theorem find?_insert (t : Table) (key other : String) (entry : Entry) :
    (t.insert key entry).find? other = if other = key then some entry else t.find? other := by
  by_cases same : other = key
  · simp [find?, insert, same]
  · have differs : (other == key) = false := by simpa using same
    have rest := find?_erase t key other
    rw [if_neg same] at rest ⊢
    rw [← rest]
    simp [find?, insert, List.lookup_cons, differs]

theorem find?_withoutExpired (t : Table) (key : String) (now : Instant) :
    (t.withoutExpired now).find? key = (t.find? key).filter fun entry => !entry.expiredAt now :=
  find?_filter t _ key

/-- An eviction takes away an expired entry under its key and nothing else. -/
theorem find?_evictExpired (t : Table) (key other : String) (now : Instant) :
    (t.evictExpired key now).find? other =
      if other = key then (t.find? key).filter (fun entry => !entry.expiredAt now)
      else t.find? other := by
  unfold evictExpired lookup
  cases found : t.find? key with
  | none =>
    by_cases same : other = key
    · simp [same, found]
    · simp [same]
  | some entry =>
    by_cases expired : entry.expiredAt now = true
    · by_cases same : other = key
      · simp [same, expired, find?_erase, Option.filter_some]
      · simp [same, expired, find?_erase]
    · by_cases same : other = key
      · simp [same, found, expired, Option.filter_some]
      · simp [same, expired]

/-! ## Live keys and counts -/

theorem mem_liveKeys {t : Table} {key : String} {now : Instant} :
    key ∈ t.liveKeys now ↔ ∃ entry, t.find? key = some entry ∧ entry.expiredAt now = false := by
  simp only [liveKeys, List.mem_map, List.mem_filter, find?_eq_some_iff]
  constructor
  · rintro ⟨⟨k, entry⟩, ⟨held, live⟩, rfl⟩
    exact ⟨entry, held, by simpa using live⟩
  · rintro ⟨entry, held, live⟩
    exact ⟨(key, entry), ⟨held, by simpa using live⟩, rfl⟩

theorem nodup_liveKeys (t : Table) (now : Instant) : (t.liveKeys now).Nodup :=
  nodup_keys_filter _ t.distinct

/-- A sweep's count and what it leaves make up what was there. -/
theorem size_sweep (t : Table) (now : Instant) :
    (t.sweep now).1.size + (t.sweep now).2 = t.size := by
  have notLonger : (t.withoutExpired now).size ≤ t.size := List.length_filter_le _ _
  simp only [sweep]
  omega

end Table

end ExpiringStore
