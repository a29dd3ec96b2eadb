import Mathlib.Data.List.Nodup
import ExpiringStore.Proofs.Sweeps

/-!
# A ledger of entries

Entries come by sets under keys that nothing is held under, and go by deletes, by evictions and by
sweeps. Each of these enters its number in a ledger, and a ledger accounts for the difference
between two sizes. Both sides are sums, so that no difference is cut off at zero.
-/
namespace ExpiringStore

namespace Table

/-- How many entries stand under a key: one or none. -/
def countAt (t : Table) (key : String) : Nat := if (t.find? key).isSome then 1 else 0

/-- How many entries an eviction takes away: one if what stands under the key is expired. -/
def countExpiredAt (t : Table) (key : String) (now : Instant) : Nat :=
  if t.lookup key now = .expired then 1 else 0

def countExpired (t : Table) (now : Instant) : Nat :=
  t.entries.countP fun item => item.2.expiredAt now

theorem countP_key (t : Table) (key : String) :
    t.entries.countP (fun item => item.1 == key) = t.countAt key := by
  have keys : t.entries.countP (fun item => item.1 == key) =
      (t.entries.map Prod.fst).count key := by
    rw [List.count, List.countP_map]
    rfl
  have held : key ∈ t.entries.map Prod.fst ↔ (t.find? key).isSome = true := by
    simp [Option.isSome_iff_exists, find?_eq_some_iff]
  rw [keys, t.distinct.count, countAt]
  simp only [held]

/-- What a filter leaves and what it takes away make up what was there. -/
theorem size_filter (t : Table) (keep : String × Entry → Bool) :
    (t.filter keep).size + t.entries.countP (fun item => !keep item) = t.size := by
  have whole := t.entries.length_eq_countP_add_countP keep
  simp only [Bool.not_eq_true, Bool.decide_eq_false] at whole
  simp only [size, filter, ← List.countP_eq_length_filter]
  exact whole.symm

theorem size_erase (t : Table) (key : String) : (t.erase key).size + t.countAt key = t.size := by
  have parts := t.size_filter fun item => item.1 != key
  simp only [bne, Bool.not_not, countP_key] at parts
  exact parts

theorem size_insert (t : Table) (key : String) (entry : Entry) :
    (t.insert key entry).size + t.countAt key = t.size + 1 := by
  have rest := t.size_erase key
  have one : (t.insert key entry).size = (t.erase key).size + 1 := rfl
  omega

theorem size_evictExpired (t : Table) (key : String) (now : Instant) :
    (t.evictExpired key now).size + t.countExpiredAt key now = t.size := by
  unfold evictExpired countExpiredAt
  split
  · rename_i expired
    have held : t.countAt key = 1 := by
      unfold countAt
      cases found : t.find? key with
      | none => simp [lookup, found] at expired
      | some entry => rfl
    rw [if_pos expired, ← held]
    exact t.size_erase key
  · rename_i notExpired
    rw [if_neg notExpired, Nat.add_zero]

theorem size_withoutExpired (t : Table) (now : Instant) :
    (t.withoutExpired now).size + t.countExpired now = t.size := by
  have parts := t.size_filter fun item => !item.2.expiredAt now
  simp only [Bool.not_not] at parts
  exact parts

/-- A sweep counts the entries that are expired. -/
theorem snd_sweep (t : Table) (now : Instant) : (t.sweep now).2 = t.countExpired now := by
  have counted := t.size_sweep now
  have expired := t.size_withoutExpired now
  simp only [sweep] at counted ⊢
  omega

end Table

/-- How many entries have come, and how many have gone, by the way in which they did: by sets under
keys that nothing was held under, by deletes that found something, live or expired, by evictions on
reading, by sweeps that somebody asked for, and by sweeps that have been logged. -/
structure Ledger where
  inserted : Nat
  deleted : Nat
  evicted : Nat
  swept : Nat
  logged : Nat
  deriving DecidableEq, Repr

namespace Ledger

def blank : Ledger := ⟨0, 0, 0, 0, 0⟩

def append (l more : Ledger) : Ledger :=
  ⟨l.inserted + more.inserted, l.deleted + more.deleted, l.evicted + more.evicted,
    l.swept + more.swept, l.logged + more.logged⟩

/-- Whether a ledger accounts for what a size has become. -/
def Accounts (l : Ledger) (before after : Nat) : Prop :=
  after + l.deleted + l.evicted + l.swept + l.logged = before + l.inserted

theorem accounts_blank (size : Nat) : blank.Accounts size size := rfl

theorem Accounts.append {l more : Ledger} {before mid after : Nat} (first : l.Accounts before mid)
    (rest : more.Accounts mid after) : (l.append more).Accounts before after := by
  simp only [Accounts, Ledger.append] at first rest ⊢
  omega

/-- A set, which makes a table larger only if nothing was held under its key. -/
def ofSet (t : Table) (key : String) : Ledger :=
  { blank with inserted := if (t.find? key).isSome then 0 else 1 }

/-- A delete, which takes away what is held under its key, live or expired. -/
def ofDelete (t : Table) (key : String) : Ledger := { blank with deleted := t.countAt key }

def ofEviction (t : Table) (key : String) (now : Instant) : Ledger :=
  { blank with evicted := t.countExpiredAt key now }

def ofSweep (removed : Nat) : Ledger := { blank with swept := removed }

def ofLog (removed : Nat) : Ledger := { blank with logged := removed }

theorem inserted_ofSet (t : Table) (key : String) : (ofSet t key).inserted + t.countAt key = 1 := by
  simp only [ofSet, Table.countAt]
  split <;> rfl

theorem accounts_ofSet (t : Table) (key : String) (entry : Entry) :
    (ofSet t key).Accounts t.size (t.insert key entry).size := by
  have change := t.size_insert key entry
  have free := inserted_ofSet t key
  simp only [Accounts, ofSet, blank] at free ⊢
  omega

theorem accounts_ofDelete (t : Table) (key : String) :
    (ofDelete t key).Accounts t.size (t.erase key).size :=
  t.size_erase key

theorem accounts_ofEviction (t : Table) (key : String) (now : Instant) :
    (ofEviction t key now).Accounts t.size (t.evictExpired key now).size :=
  t.size_evictExpired key now

theorem accounts_ofSweep (t : Table) (now : Instant) :
    (ofSweep (t.sweep now).2).Accounts t.size (t.sweep now).1.size := t.size_sweep now

theorem accounts_ofLog (t : Table) (now : Instant) :
    (ofLog (t.sweep now).2).Accounts t.size (t.sweep now).1.size := t.size_sweep now

end Ledger

/-! ## Operations -/

def sweptIn : List Event → Nat
  | [] => 0
  | .swept removed :: rest => removed + sweptIn rest
  | _ :: rest => sweptIn rest

theorem sweptIn_append (events more : List Event) :
    sweptIn (events ++ more) = sweptIn events + sweptIn more := by
  induction events with
  | nil => exact (Nat.zero_add _).symm
  | cons event rest ih => cases event <;> simp only [List.cons_append, sweptIn, ih, Nat.add_assoc]

namespace Store

def entered (s : Store) (now : Instant) : Operation → Ledger
  | .set key _ _ => .ofSet s.table key
  | .get key => .ofEviction s.table key now
  | .delete key => .ofDelete s.table key
  | .sweep => .ofSweep (s.sweep now).2
  | .list | .isEmpty | .state | .stop => .blank

theorem accounts_perform (s : Store) (now : Instant) (operation : Operation) :
    (s.entered now operation).Accounts s.size (s.perform now operation).1.size := by
  cases operation with
  | set key value ttl => exact Ledger.accounts_ofSet s.table key _
  | get key =>
    simp only [perform, get_eq]
    exact Ledger.accounts_ofEviction s.table key now
  | delete key =>
    simp only [perform, delete_eq]
    exact Ledger.accounts_ofDelete s.table key
  | sweep => exact Ledger.accounts_ofSweep s.table now
  | list | isEmpty | state | stop => exact Ledger.accounts_blank _

/-- A background sweep that finds nothing is not logged, and there is nothing to account for. -/
theorem sweptIn_backgroundSweep (s : Store) (now : Instant) :
    sweptIn (s.backgroundSweep now).2 = (s.sweep now).2 := by
  simp only [backgroundSweep]
  split
  · rename_i none
    exact none.symm
  · rfl

theorem accounts_pass (s : Store) (before after : Instant) :
    (Ledger.ofLog (sweptIn (s.pass before after).2)).Accounts s.size
      (s.pass before after).1.size := by
  unfold pass
  split
  · rw [sweptIn_backgroundSweep]
    exact Ledger.accounts_ofLog s.table after
  · exact Ledger.accounts_blank _

/-- A sweep keeps what is not expired, as it is, and says how much it has removed. -/
theorem sweep_exact (s : Store) (now : Instant) :
    (∀ key entry, (s.sweep now).1.table.find? key = some entry ↔
      s.table.find? key = some entry ∧ entry.expiredAt now = false) ∧
    (s.sweep now).2 = s.table.countExpired now ∧
      (s.sweep now).1.size + (s.sweep now).2 = s.size := by
  refine ⟨fun key entry => ?_, s.table.snd_sweep now, s.table.size_sweep now⟩
  rw [← Table.live?_eq_some_iff, Table.live?_eq_find?_withoutExpired]
  rfl

/-- Two sweeps remove what the later one would have removed alone. -/
theorem sweep_sweep (s : Store) {earlier later : Instant}
    (order : earlier.toNanos ≤ later.toNanos) :
    ((s.sweep earlier).1.sweep later).1 = (s.sweep later).1 ∧
      (s.sweep earlier).2 + ((s.sweep earlier).1.sweep later).2 = (s.sweep later).2 := by
  have same : ((s.sweep earlier).1.sweep later).1 = (s.sweep later).1 :=
    congrArg (Store.mk · s.sweeper) (s.table.withoutExpired_withoutExpired order)
  have first := (s.sweep_exact earlier).2.2
  have second := ((s.sweep earlier).1.sweep_exact later).2.2
  have once := (s.sweep_exact later).2.2
  rw [same] at second
  exact ⟨same, by omega⟩

end Store

end ExpiringStore
