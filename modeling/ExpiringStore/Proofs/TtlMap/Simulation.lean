import ExpiringStore.Proofs.Operations
import ExpiringStore.Proofs.TtlMap.Basic

/-!
# Tables against the map with times to live

A table holds, of the map's pairs, all that count and any of the others. This is what evictions and
sweeps are free to change, and no answer depends on it.
-/
namespace ExpiringStore

namespace Entry

def timed (e : Entry) : TimedValue := ⟨e.value, e.deadlineNanos⟩

theorem liveAt_timed {e : Entry} {now : Instant} :
    e.timed.LiveAt now ↔ e.expiredAt now = false := by
  rw [Bool.eq_false_iff, ne_eq, expiredAt_iff_deadlineNanos]
  simp only [TimedValue.LiveAt, timed]
  constructor
  · rintro live ⟨deadline, has, reached⟩
    have ahead := live deadline has
    omega
  · intro notExpired deadline has
    by_contra reached
    exact notExpired ⟨deadline, has, by omega⟩

/-- The deadline of a new entry is the exact sum, wherever a clock can read it. -/
theorem timed_withTtl (value : String) (ttl : Option Duration) (now : Instant) :
    (withTtl value ttl now).timed = ⟨value, TimedValue.deadlineAfter now ttl⟩ := by
  cases ttl with
  | none => rfl
  | some span =>
    simp only [timed, withTtl, deadlineNanos, deadlineFor, TimedValue.deadlineAfter,
      TimedValue.mk.injEq, true_and]
    by_cases none : span = Duration.zero
    · simp [none, Duration.toNanos_eq_zero_iff]
    · rw [if_neg none]
      have notZero : span.toNanos ≠ 0 := fun h => none (Duration.toNanos_eq_zero_iff.mp h)
      cases sum : now.after? span with
      | none =>
        have beyond := Instant.after?_eq_none_iff.mp sum
        simp [beyond]
      | some deadline =>
        have exact_sum := Instant.toNanos_of_after? sum
        have within : ¬ Instant.last.toNanos < now.toNanos + span.toNanos := fun beyond => by
          simp [Instant.after?_eq_none_iff.mpr beyond] at sum
        simp [notZero, within, exact_sum]

end Entry

/-- How the entry under a key may stand to the pair under it: equal, or gone because the pair
has stopped to count. -/
inductive Keeps (now : Instant) : Option Entry → Option TimedValue → Prop
  | absent : Keeps now none none
  | stored (entry : Entry) : Keeps now (some entry) (some entry.timed)
  | removed (pair : TimedValue) (ended : ¬ pair.LiveAt now) : Keeps now none (some pair)

namespace Keeps

variable {now later : Instant} {held? : Option Entry} {due? : Option TimedValue}

/-- What has stopped to count never counts again. -/
theorem mono (keeps : Keeps now held? due?) (order : now.toNanos ≤ later.toNanos) :
    Keeps later held? due? := by
  cases keeps with
  | absent => exact .absent
  | stored entry => exact .stored entry
  | removed pair ended =>
    apply Keeps.removed
    intro live
    apply ended
    intro deadline has
    have ahead := live deadline has
    omega

/-- Expired entries may go. -/
theorem filter (keeps : Keeps now held? due?) :
    Keeps now (held?.filter fun entry => !entry.expiredAt now) due? := by
  cases keeps with
  | absent => exact .absent
  | removed pair ended => exact .removed pair ended
  | stored entry =>
    cases expired : entry.expiredAt now with
    | false => simpa [Option.filter_some, expired] using Keeps.stored entry
    | true =>
      have ended : ¬ entry.timed.LiveAt now := by simp [Entry.liveAt_timed, expired]
      simpa [Option.filter_some, expired] using Keeps.removed entry.timed ended

/-- Both sides agree on what counts. -/
theorem live (keeps : Keeps now held? due?) :
    (held?.filter fun entry => !entry.expiredAt now).map Entry.timed =
      due?.filter fun pair => pair.LiveAt now := by
  cases keeps with
  | absent => rfl
  | removed pair ended => simp [Option.filter_some, ended]
  | stored entry =>
    have counts := @Entry.liveAt_timed entry now
    cases expired : entry.expiredAt now <;> simp_all [Option.filter_some]

end Keeps

/-- A table holds all pairs of a map that count at `now`, and of the others any. -/
def Represents (now : Instant) (t : Table) (m : TtlMap) : Prop :=
  ∀ key, Keeps now (t.find? key) (m.lookup key)

namespace Represents

variable {now later : Instant} {t : Table} {m : TtlMap}

theorem empty (now : Instant) : Represents now Table.empty ∅ := by
  intro key
  rw [Table.find?_empty, Finmap.lookup_empty]
  exact .absent

theorem mono (holds : Represents now t m) (order : now.toNanos ≤ later.toNanos) :
    Represents later t m := fun key => (holds key).mono order

theorem insert (holds : Represents now t m) (key : String) (entry : Entry) :
    Represents now (t.insert key entry) (m.insert key entry.timed) := by
  intro other
  rw [Table.find?_insert]
  by_cases same : other = key
  · subst same
    rw [if_pos rfl, Finmap.lookup_insert]
    exact .stored entry
  · rw [if_neg same, Finmap.lookup_insert_of_ne m same]
    exact holds other

theorem erase (holds : Represents now t m) (key : String) :
    Represents now (t.erase key) (m.erase key) := by
  intro other
  rw [Table.find?_erase]
  by_cases same : other = key
  · subst same
    rw [if_pos rfl, Finmap.lookup_erase]
    exact .absent
  · rw [if_neg same, Finmap.lookup_erase_ne same]
    exact holds other

/-- A reader's eviction is not seen. -/
theorem evictExpired (holds : Represents now t m) (key : String) :
    Represents now (t.evictExpired key now) m := by
  intro other
  rw [Table.find?_evictExpired]
  split
  · rename_i same
    subst same
    exact (holds other).filter
  · exact holds other

/-- A sweep is not seen. -/
theorem withoutExpired (holds : Represents now t m) : Represents now (t.withoutExpired now) m := by
  intro key
  rw [Table.find?_withoutExpired]
  exact (holds key).filter

/-- A table shows the pair that counts under a key. -/
theorem live? (holds : Represents now t m) (key : String) :
    (t.live? key now).map Entry.timed = m.live? now key := (holds key).live

theorem value_live? (holds : Represents now t m) (key : String) :
    (t.live? key now).map Entry.value = (m.live? now key).map TimedValue.value := by
  rw [← holds.live? key, Option.map_map]
  rfl

theorem isSome_live? (holds : Represents now t m) (key : String) :
    (t.live? key now).isSome = (m.live? now key).isSome := by
  rw [← holds.live? key, Option.isSome_map]

/-- The live keys of a table are those of the map. -/
theorem toFinset_liveKeys (holds : Represents now t m) :
    (t.liveKeys now).toFinset = m.keys.filter fun key => (m.live? now key).isSome := by
  ext key
  rw [List.mem_toFinset, Table.mem_liveKeys_iff, holds.isSome_live? key, Finset.mem_filter]
  refine ⟨fun counts => ⟨?_, counts⟩, fun both => both.2⟩
  obtain ⟨pair, found⟩ := Option.isSome_iff_exists.mp counts
  have under : m.lookup key = some pair := (Option.filter_eq_some_iff.mp found).1
  exact Finmap.mem_keys.mpr (Finmap.mem_iff.mpr ⟨pair, under⟩)

end Represents

end ExpiringStore
