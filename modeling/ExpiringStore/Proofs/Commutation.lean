import Mathlib.Data.List.Nodup
import ExpiringStore.Proofs.Accounting.Ledger
import ExpiringStore.Proofs.Concerns
import ExpiringStore.Proofs.Handles.Stopping

/-!
# Operations that commute

At one clock reading the order of two operations shows only where one of them looks at what the
other changes: where both have to do with the same key, or where expired entries are counted. Tables
are compared by their entries, since their order means nothing.
-/
namespace ExpiringStore

namespace Table

/-- The same entries, in whatever order. -/
def Same (t u : Table) : Prop := t.entries.Perm u.entries

/-- Tables hold the same entries if the same is found in them under every key. -/
theorem same_iff {t u : Table} : t.Same u ↔ ∀ key, t.find? key = u.find? key := by
  constructor
  · intro same key
    apply Option.ext
    intro entry
    rw [find?_eq_some_iff, find?_eq_some_iff]
    exact same.mem_iff
  · intro found
    have once (t : Table) : t.entries.Nodup := List.Nodup.of_map Prod.fst t.distinct
    refine (List.perm_ext_iff_of_nodup (once t) (once u)).mpr fun item => ?_
    have iff := congrArg (· = some item.2) (found item.1)
    simp only [find?_eq_some_iff] at iff
    exact Iff.of_eq iff

/-- Nothing is left to evict after a sweep. -/
theorem evictExpired_withoutExpired (t : Table) (key : String) (now : Instant) :
    (t.withoutExpired now).evictExpired key now = t.withoutExpired now := by
  unfold evictExpired
  split
  · rename_i seen
    cases found : (t.withoutExpired now).find? key with
    | none => simp [lookup, found] at seen
    | some entry =>
      have live := (live?_eq_some_iff.mp ((t.live?_eq_find?_withoutExpired key now).trans found)).2
      simp [lookup, found, live] at seen
  · rfl

theorem countExpiredAt_withoutExpired (t : Table) (key : String) (now : Instant) :
    (t.withoutExpired now).countExpiredAt key now = 0 := by
  have evicted := (t.withoutExpired now).size_evictExpired key now
  rw [evictExpired_withoutExpired] at evicted
  omega

theorem countAt_withoutExpired (t : Table) (key : String) (now : Instant) :
    (t.withoutExpired now).countAt key + t.countExpiredAt key now = t.countAt key := by
  unfold countAt countExpiredAt lookup
  rw [find?_withoutExpired]
  cases t.find? key with
  | none => rfl
  | some entry => cases expired : entry.expiredAt now <;> simp [expired, Option.filter_some]

end Table

namespace Concerns

variable {α β : Type} {key other : String}

/-- What concerns one key has no part in what concerns another. -/
theorem snd_after {first : Store → Store × α} {second : Store → Store × β}
    (concerns : Concerns key first) (others : Concerns other second) (differ : key ≠ other)
    (store : Store) :
    (second (first store).1).2 = (second store).2 :=
  (others.here _ _ (concerns.elsewhere store other differ.symm)).2

/-- What concerns two different keys leaves the same entries in either order. -/
theorem same_table {first : Store → Store × α} {second : Store → Store × β}
    (concerns : Concerns key first) (others : Concerns other second) (differ : key ≠ other)
    (store : Store) :
    (second (first store).1).1.table.Same (first (second store).1).1.table := by
  refine Table.same_iff.mpr fun name => ?_
  by_cases here : name = key
  · subst here
    rw [others.elsewhere _ _ differ]
    exact (concerns.here _ _ (others.elsewhere store name differ)).1.symm
  · rw [concerns.elsewhere _ _ here]
    by_cases there : name = other
    · subst there
      exact (others.here _ _ (concerns.elsewhere store name here)).1
    · rw [others.elsewhere _ _ there, others.elsewhere _ _ there, concerns.elsewhere _ _ here]

end Concerns

namespace Store

/-- A sweep may be made before an operation on a key, or a listing, or after it. -/
theorem sweep_perform (s : Store) (now : Instant) {operation : Operation}
    (plain : operation.key?.isSome = true ∨ operation = .list) :
    ((s.perform now operation).1.sweep now).1 = ((s.sweep now).1.perform now operation).1 := by
  cases operation with
  | set key value ttl =>
    have fresh := Entry.expiredAt_withTtl_self value ttl now
    simp only [perform, set, sweep, Table.sweep, Table.withoutExpired_insert, fresh,
      Bool.false_eq_true, if_false]
  | get key =>
    simp only [perform, get_eq, sweep, Table.sweep, Table.withoutExpired_evictExpired,
      Table.evictExpired_withoutExpired]
  | delete key => simp only [perform, delete_eq, sweep, Table.sweep, Table.withoutExpired_erase]
  | list => rfl
  | sweep | isEmpty | state | stop => simp [Operation.key?] at plain

/-- Neither an operation on a key nor a listing tells whether there has been a sweep. -/
theorem snd_perform_sweep (s : Store) (now : Instant) {operation : Operation}
    (plain : operation.key?.isSome = true ∨ operation = .list) :
    ((s.sweep now).1.perform now operation).2 = (s.perform now operation).2 := by
  have live : (s.sweep now).1.table.withoutExpired now = s.table.withoutExpired now :=
    s.table.withoutExpired_withoutExpired (Int.le_refl _)
  have fromLive : operation.looksBehind = false ∧
      ∀ store : Store, (store.perform now operation).2.2 = [] := by
    cases operation with
    | set | get | delete | list => exact ⟨rfl, fun _ => rfl⟩
    | sweep | isEmpty | state | stop => simp [Operation.key?] at plain
  obtain ⟨answered, silent⟩ := fromLive
  exact Prod.ext (answer_perform_of_live live answered) ((silent _).trans (silent s).symm)

/-- A sweep counts one entry less behind an operation that has found an
expired one under its key. -/
theorem snd_sweep_perform (s : Store) (now : Instant) {operation : Operation}
    (plain : operation.key?.isSome = true ∨ operation = .list) :
    ((s.perform now operation).1.sweep now).2 +
      (operation.key?.map (s.table.countExpiredAt · now)).getD 0 = (s.sweep now).2 := by
  -- The sizes at the four corners are accounted for: by the two sweeps and, on either side of
  -- them, by the operation.
  have sweptBefore := (s.sweep_exact now).2.2
  have sweptAfter := ((s.perform now operation).1.sweep_exact now).2.2
  have performedBefore := s.accounts_perform now operation
  have performedAfter := (s.sweep now).1.accounts_perform now operation
  rw [← s.sweep_perform now plain] at performedAfter
  have parts (key : String) :
      (s.sweep now).1.table.countAt key + s.table.countExpiredAt key now = s.table.countAt key :=
    s.table.countAt_withoutExpired key now
  cases operation with
  | set key value ttl =>
    have free := Ledger.inserted_ofSet s.table key
    have freeAfter := Ledger.inserted_ofSet (s.sweep now).1.table key
    have both := parts key
    simp only [Ledger.Accounts, entered, Ledger.ofSet,
      Ledger.blank] at performedBefore performedAfter free freeAfter
    simp only [Operation.key?, Option.map_some, Option.getD_some]
    omega
  | get key =>
    have none : (s.sweep now).1.table.countExpiredAt key now = 0 :=
      s.table.countExpiredAt_withoutExpired key now
    simp only [Ledger.Accounts, entered, Ledger.ofEviction,
      Ledger.blank] at performedBefore performedAfter
    simp only [Operation.key?, Option.map_some, Option.getD_some]
    omega
  | delete key =>
    have both := parts key
    simp only [Ledger.Accounts, entered, Ledger.ofDelete,
      Ledger.blank] at performedBefore performedAfter
    simp only [Operation.key?, Option.map_some, Option.getD_some]
    omega
  | list => rfl
  | sweep | isEmpty | state | stop => simp [Operation.key?] at plain

/-- Operations on different keys leave the same entries and are answered alike in either order,
and neither touches an entry under another key. A sweep, whoever makes it, may change places with
an operation on a key or a listing; only what the sweep counts depends on the order, being one
less behind an operation that finds an expired entry under its key. Listing, and asking whether
there is anything, leave everything as it is; how many entries there are, and whether there are
any, is read off the entries. -/
theorem operations_commute_at_one_instant (s : Store) (now : Instant) :
    (∀ one other key key', one.key? = some key → other.key? = some key' → key ≠ key' →
      let oneFirst := (s.perform now one).1.perform now other
      let otherFirst := (s.perform now other).1.perform now one
      oneFirst.1.table.Same otherFirst.1.table ∧
        oneFirst.2 = (s.perform now other).2 ∧ otherFirst.2 = (s.perform now one).2) ∧
    (∀ operation key other, operation.key? = some key → other ≠ key →
      (s.perform now operation).1.table.find? other = s.table.find? other) ∧
    (∀ operation, operation.key?.isSome = true ∨ operation = .list →
      ((s.perform now operation).1.sweep now).1 = ((s.sweep now).1.perform now operation).1 ∧
      ((s.perform now operation).1.backgroundSweep now).1 =
        ((s.backgroundSweep now).1.perform now operation).1 ∧
      ((s.sweep now).1.perform now operation).2 = (s.perform now operation).2 ∧
      ((s.backgroundSweep now).1.perform now operation).2 = (s.perform now operation).2 ∧
      ((s.perform now operation).1.sweep now).2 +
        (operation.key?.map (s.table.countExpiredAt · now)).getD 0 = (s.sweep now).2) ∧
    (s.perform now .list).1 = s ∧ (s.perform now .isEmpty).1 = s ∧
    ∀ u : Store, s.table.Same u.table → s.size = u.size ∧ s.isEmpty = u.isEmpty := by
  refine ⟨fun one other key key' onKey onOther differ => ?_,
    fun operation key other on differs => ?_, fun operation plain => ?_, rfl, rfl,
    fun u same => ⟨same.length_eq, same.isEmpty_eq⟩⟩
  · have concerns := Concerns.perform onKey now
    have others := Concerns.perform onOther now
    exact ⟨concerns.same_table others differ s, concerns.snd_after others differ s,
      others.snd_after concerns differ.symm s⟩
  · exact (Concerns.perform on now).elsewhere s other differs
  · have swept := s.sweep_perform now plain
    have told := s.snd_perform_sweep now plain
    exact ⟨swept, swept, told, told, s.snd_sweep_perform now plain⟩

/-- A read that finds its key expired, next to the write of another key and to a sweep. -/
theorem operations_commute_at_one_instant_expired :
    let s : Store :=
      ⟨Table.empty.insert "a" (.expiringAt "x" ⟨5, 0⟩) |>.insert "b" (.expiringAt "y" ⟨7, 0⟩),
        Sweeper.new .standard ⟨0, 0⟩⟩
    let readFirst := (s.perform ⟨6, 0⟩ (.get "a")).1.perform ⟨6, 0⟩ (.set "b" "z" none)
    let writeFirst := (s.perform ⟨6, 0⟩ (.set "b" "z" none)).1.perform ⟨6, 0⟩ (.get "a")
    let sweptFirst := (s.sweep ⟨6, 0⟩).1.perform ⟨6, 0⟩ (.get "a")
    readFirst.1.table.Same writeFirst.1.table ∧ writeFirst.2.1 = .value none ∧
      readFirst.1.table.find? "a" = none ∧ readFirst.1.table.find? "b" = some (.permanent "z") ∧
      ((s.perform ⟨6, 0⟩ (.get "a")).1.sweep ⟨6, 0⟩).1 = sweptFirst.1 ∧
      sweptFirst.2.1 = .value none ∧
      ((s.perform ⟨6, 0⟩ (.get "a")).1.sweep ⟨6, 0⟩).2 = 0 ∧ (s.sweep ⟨6, 0⟩).2 = 1 := by
  intro s readFirst writeFirst sweptFirst
  obtain ⟨commute, -, sweeps, -⟩ := operations_commute_at_one_instant s ⟨6, 0⟩
  obtain ⟨same, -, told⟩ := commute (.get "a") (.set "b" "z" none) "a" "b" rfl rfl (by decide)
  obtain ⟨swept, -, toldAfter, -⟩ := sweeps (.get "a") (.inl rfl)
  exact ⟨same, (congrArg Prod.fst told).trans (by decide), by decide, by decide, swept,
    (congrArg Prod.fst toldAfter).trans (by decide), by decide, by decide⟩

end Store

end ExpiringStore
