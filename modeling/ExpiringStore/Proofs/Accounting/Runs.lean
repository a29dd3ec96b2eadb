import ExpiringStore.Proofs.Accounting.Sessions
import ExpiringStore.Proofs.Interleaving.Turns

/-!
# Sizes accounted for

From an empty table on, a size is at any time what the ledger of the run so far says: for the stores
of a session, and for a table that callers share, however their sections are interleaved.
-/
namespace ExpiringStore

/-- What a section enters. A background sweep is made in the same way as an explicit
one, and entered like it. -/
def Phase.entered (now : Instant) (t : Table) : Phase → Ledger
  | .setInsertion key _ => .ofSet t key
  | .deleteRemoval key => .ofDelete t key
  | .getEviction key => .ofEviction t key now
  | .sweepRetention reading => .ofSweep (t.sweep reading).2
  | _ => .blank

theorem Phase.accounts_run {phase next : Phase} {now : Instant} {t after : Table}
    (ran : phase.run now t = some (after, next)) :
    (phase.entered now t).Accounts t.size after.size := by
  cases phase with
  | idle | answered => cases ran
  | getLookup key reading =>
    simp only [run] at ran
    split at ran <;>
      obtain ⟨rfl, -⟩ := Prod.mk.inj (Option.some.inj ran) <;>
      exact Ledger.accounts_blank _
  | deleteRemoval key =>
    have erased : after = t.erase key := by
      simp only [run, Table.remove] at ran
      cases found : t.find? key <;>
        rw [found] at ran <;>
        exact (Prod.mk.inj (Option.some.inj ran)).1.symm
    exact erased ▸ Ledger.accounts_ofDelete t key
  | setInsertion key entry =>
    obtain ⟨rfl, -⟩ := Prod.mk.inj (Option.some.inj ran)
    exact Ledger.accounts_ofSet t key entry
  | getEviction key =>
    obtain ⟨rfl, -⟩ := Prod.mk.inj (Option.some.inj ran)
    exact Ledger.accounts_ofEviction t key now
  | sweepRetention reading =>
    obtain ⟨rfl, -⟩ := Prod.mk.inj (Option.some.inj ran)
    exact Ledger.accounts_ofSweep t reading
  | getReading | setReading | deleteReading | listSnapshot | sweepReading =>
    obtain ⟨rfl, -⟩ := Prod.mk.inj (Option.some.inj ran)
    exact Ledger.accounts_blank _

namespace Shared

def entered (s : Shared) : Turn → Ledger
  | .proceed caller => (s.callers caller).entered s.clock s.table
  | .tick _ | .enter _ _ => .blank

/-- What a row of turns enters, as far as they can be taken. -/
def ledger (s : Shared) : List Turn → Ledger
  | [] => .blank
  | turn :: rest =>
    match s.step turn with
    | some next => (s.entered turn).append (next.ledger rest)
    | none => .blank

variable {s next : Shared} {turn : Turn}

theorem accounts_step (stepped : s.step turn = some next) :
    (s.entered turn).Accounts s.table.size next.table.size := by
  rcases step_cases stepped with ⟨reading, rfl, -, rfl⟩ | ⟨caller, call, rfl, rfl⟩ |
    ⟨caller, table, phase, rfl, ran, rfl⟩
  · exact Ledger.accounts_blank _
  · exact Ledger.accounts_blank _
  · exact Phase.accounts_run ran

theorem accounts_run {turns : List Turn} (ran : s.run turns = some next) :
    (s.ledger turns).Accounts s.table.size next.table.size := by
  induction turns generalizing s with
  | nil =>
    obtain rfl := Option.some.inj ran
    exact Ledger.accounts_blank _
  | cons turn rest ih =>
    rw [run_cons] at ran
    obtain ⟨mid, stepped, ran⟩ := Option.bind_eq_some_iff.mp ran
    simp only [ledger, stepped]
    exact (accounts_step stepped).append (ih ran)

end Shared

/-- A sweep keeps what is not expired and nothing else, and says how many entries it has removed;
a background sweep does the same and logs as many. Sweeping now and then later is sweeping later,
and the two counts add up; nothing is left for a second sweep. In every session the size of a
store is what sets have added, less what has been deleted, evicted, swept and logged; where there
is one store, what has been swept and logged can be read off the answers and the log. The same
holds of a table that any number of callers share, where what is entered as swept comes from
sweeps of either kind. -/
theorem sweeps_are_accounted_for :
    (∀ (s : Store) (now : Instant),
      (∀ key entry, (s.sweep now).1.table.find? key = some entry ↔
        s.table.find? key = some entry ∧ entry.expiredAt now = false) ∧
      (s.sweep now).2 = s.table.countExpired now ∧ (s.sweep now).1.size + (s.sweep now).2 = s.size ∧
      (s.backgroundSweep now).1 = (s.sweep now).1 ∧
      sweptIn (s.backgroundSweep now).2 = (s.sweep now).2 ∧
      ((s.sweep now).1.sweep now).2 = 0) ∧
    (∀ (s : Store) (earlier later : Instant), earlier.toNanos ≤ later.toNanos →
      ((s.sweep earlier).1.sweep later).1 = (s.sweep later).1 ∧
      (s.sweep earlier).2 + ((s.sweep earlier).1.sweep later).2 = (s.sweep later).2) ∧
    (∀ (p : Pool) (interval : SweepInterval) (steps : List SessionStep),
      let created := (p.step (.create interval)).1
      let ledger := created.ledger p.stores.length steps
      (∃ s, (created.after steps).stores[p.stores.length]? = some s ∧
        s.size + ledger.deleted + ledger.evicted + ledger.swept + ledger.logged = ledger.inserted) ∧
      (p.stores = [] → (∀ another, .create another ∉ steps) →
        ledger.swept = removedIn (created.shown steps) ∧
        ledger.logged = sweptIn ((created.shown steps).flatMap Shown.events))) ∧
    ∀ (clock : Instant) (turns : List Turn) (s : Shared),
      (Shared.quiet clock Table.empty).run turns = some s →
      let ledger := (Shared.quiet clock Table.empty).ledger turns
      s.table.size + ledger.deleted + ledger.evicted + ledger.swept + ledger.logged =
        ledger.inserted := by
  refine ⟨fun s now => ?_, fun s earlier later order => s.sweep_sweep order,
    fun p interval steps => ⟨?_, ?_⟩, fun clock turns s ran => ?_⟩
  · obtain ⟨kept, counted, total⟩ := s.sweep_exact now
    have again := (s.sweep_sweep (Int.le_refl now.toNanos)).2
    exact ⟨kept, counted, total, rfl, s.sweptIn_backgroundSweep now, by omega⟩
  · have fresh := (p.getElem?_stores_create p.stores.length interval).trans (if_pos rfl)
    obtain ⟨after, held, accounts⟩ := Pool.accounts_after fresh steps
    exact ⟨after, held, accounts.trans (Nat.zero_add _)⟩
  · intro none old
    have sole : (p.step (.create interval)).1.stores.length = 1 := by
      simp only [Pool.step, Pool.addStore, none]
      rfl
    rw [none]
    exact Pool.ledger_of_sole sole old
  · exact (Shared.accounts_run ran).trans (Nat.zero_add _)

/-- A session in which entries go in all four ways, and a run in which a caller sets a key between
another caller's look at its expired entry and the eviction. -/
theorem sweeps_are_accounted_for_inEveryWay :
    let tenSeconds : SweepInterval := .clamp (.ofSeconds 10)
    let second : Option Duration := some (.ofSeconds 1)
    let created := ((Pool.onClock ⟨0, 0⟩).step (.create tenSeconds)).1
    let steps : List SessionStep := [.call 0 (.set "a" "x" second), .call 0 (.set "b" "x" second),
      .call 0 (.set "c" "x" second), .advance (.ofSeconds 2), .call 0 (.get "a"),
      .call 0 (.delete "b"), .call 0 .sweep, .call 0 (.set "d" "x" second),
      .call 0 (.set "d" "y" second), .advance (.ofSeconds 9), .call 0 (.set "e" "x" none)]
    let turns : List Turn := [.enter 0 (.set "a" "x" second), .proceed 0, .proceed 0, .tick ⟨2, 0⟩,
      .enter 1 (.get "a"), .proceed 1, .proceed 1, .enter 0 (.set "a" "y" none), .proceed 0,
      .proceed 0, .proceed 1]
    created.ledger 0 steps = ⟨5, 1, 1, 1, 1⟩ ∧
      (∃ s, (created.after steps).stores[0]? = some s ∧ s.size = 1) ∧
      removedIn (created.shown steps) = 1 ∧
      sweptIn ((created.shown steps).flatMap Shown.events) = 1 ∧
      (Shared.quiet ⟨0, 0⟩ Table.empty).ledger turns = ⟨1, 0, 0, 0, 0⟩ ∧
      ∃ s, (Shared.quiet ⟨0, 0⟩ Table.empty).run turns = some s ∧ s.table.size = 1 := by
  intro tenSeconds second created steps turns
  have entered : created.ledger 0 steps = ⟨5, 1, 1, 1, 1⟩ := by decide +kernel
  have enteredByTurns : (Shared.quiet ⟨0, 0⟩ Table.empty).ledger turns = ⟨1, 0, 0, 0, 0⟩ := by
    decide +kernel
  have taken : ((Shared.quiet ⟨0, 0⟩ Table.empty).run turns).isSome = true := by decide +kernel
  obtain ⟨shared, ran⟩ := Option.isSome_iff_exists.mp taken
  obtain ⟨-, -, sessions, runs⟩ := sweeps_are_accounted_for
  obtain ⟨⟨s, held, accounts⟩, told⟩ := sessions (Pool.onClock ⟨0, 0⟩) tenSeconds steps
  obtain ⟨swept, logged⟩ := told rfl (by simp [steps])
  have sharedAccounts := runs ⟨0, 0⟩ turns shared ran
  simp only [enteredByTurns] at sharedAccounts
  change s.size + (created.ledger 0 steps).deleted + (created.ledger 0 steps).evicted +
    (created.ledger 0 steps).swept + (created.ledger 0 steps).logged =
    (created.ledger 0 steps).inserted at accounts
  simp only [entered] at accounts
  exact ⟨entered, ⟨s, held, by omega⟩, swept.symm.trans (congrArg Ledger.swept entered),
    logged.symm.trans (congrArg Ledger.logged entered), enteredByTurns, shared, ran, by omega⟩

end ExpiringStore
