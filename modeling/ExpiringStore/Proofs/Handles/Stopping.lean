import ExpiringStore.Proofs.Handles.Moves
import ExpiringStore.Proofs.Sweeps

/-!
# Stores after a stop

What a store is asked for is answered from its table, whatever its sweeper does. A session goes on
after a stop as it would have gone on without it: until the clock moves nothing tells the two apart
but the sweeper's state, and after that nothing but what counts expired entries.
-/
namespace ExpiringStore

namespace Store

/-- An operation leaves a table that only the table before it decides. -/
theorem table_perform {s u : Store} (same : s.table = u.table) (now : Instant)
    (operation : Operation) :
    (s.perform now operation).1.table = (u.perform now operation).1.table := by
  cases operation with
  | get key => simp only [perform, get_eq, same]
  | delete key => simp only [perform, delete_eq, same]
  | set key value ttl => simp only [perform, set, same]
  | sweep => simp only [perform, sweep, same]
  | list | isEmpty | state | stop => exact same

/-- Whoever stops a store is told that it is stopped, also if it was before. -/
theorem answer_stop (s : Store) (now : Instant) : (s.perform now .stop).2.1 = .state .stopped := by
  simp only [perform, stop, Sweeper.stop]
  cases s.sweeper.state <;> rfl

/-- Only who asks for the sweeper's state is told anything of the sweeper. -/
theorem answer_perform {s u : Store} (same : s.table = u.table) (now : Instant)
    {operation : Operation} (asked : operation ≠ .state) :
    (s.perform now operation).2.1 = (u.perform now operation).2.1 := by
  cases operation with
  | get key => simp only [perform, get_eq, same]
  | delete key => simp only [perform, delete_eq, same]
  | set key value ttl => rfl
  | list => simp only [perform, list, same]
  | sweep => simp only [perform, sweep, same]
  | isEmpty => simp only [perform, isEmpty, same]
  | state => exact absurd rfl asked
  | stop => rw [answer_stop, answer_stop]

/-- What an operation leaves of live entries depends on the live entries before it. -/
theorem withoutExpired_perform {s u : Store} {now : Instant}
    (same : s.table.withoutExpired now = u.table.withoutExpired now) (operation : Operation) :
    (s.perform now operation).1.table.withoutExpired now =
      (u.perform now operation).1.table.withoutExpired now := by
  cases operation with
  | get key => simp only [perform, get_eq, Table.withoutExpired_evictExpired, same]
  | delete key => simp only [perform, delete_eq, Table.withoutExpired_erase, same]
  | set key value ttl => simp only [perform, set, Table.withoutExpired_insert, same]
  | sweep =>
    have again (t : Table) : (t.withoutExpired now).withoutExpired now = t.withoutExpired now :=
      t.withoutExpired_withoutExpired (Int.le_refl _)
    simp only [perform, sweep, Table.sweep, again, same]
  | list | isEmpty | state | stop => exact same

end Store

/-- Whether the answer counts expired entries or tells the sweeper's state. -/
def Operation.looksBehind : Operation → Bool
  | .sweep | .isEmpty | .state => true
  | .set .. | .get _ | .delete _ | .list | .stop => false

/-- Reads, writes, deletes and lists are answered from the live entries. -/
theorem Store.answer_perform_of_live {s u : Store} {now : Instant}
    (same : s.table.withoutExpired now = u.table.withoutExpired now) {operation : Operation}
    (live : operation.looksBehind = false) :
    (s.perform now operation).2.1 = (u.perform now operation).2.1 := by
  cases operation with
  | get key => simp only [perform, get_eq, Table.live?_eq_find?_withoutExpired, same]
  | delete key => simp only [perform, delete_eq, Table.live?_eq_find?_withoutExpired, same]
  | set key value ttl => rfl
  | list => simp only [perform, list, Table.liveKeys_eq_keys_withoutExpired, same]
  | stop => rw [answer_stop, answer_stop]
  | sweep | isEmpty | state => cases live

namespace Pool

/-- Two pools that differ in nothing but their sweepers and in what `view`
leaves out of their tables. -/
structure SameBut (view : Instant → Table → Table) (p q : Pool) : Prop where
  clock : p.clock = q.clock
  handles : p.handles = q.handles
  tables : ∀ number : Nat, (p.stores[number]?.map fun store : Store => view p.clock store.table) =
    q.stores[number]?.map fun store : Store => view p.clock store.table

namespace SameBut

variable {view : Instant → Table → Table} {p q : Pool}

theorem storeNumber? (same : SameBut view p q) (handle : Nat) :
    p.storeNumber? handle = q.storeNumber? handle := by
  rw [Pool.storeNumber?, same.handles, Pool.storeNumber?]

theorem length (same : SameBut view p q) : p.stores.length = q.stores.length := by
  have mapped : (p.stores.map fun store : Store => view p.clock store.table) =
      q.stores.map fun store : Store => view p.clock store.table := by
    apply List.ext_getElem?
    intro number
    rw [List.getElem?_map, List.getElem?_map, same.tables]
  simpa using congrArg List.length mapped

/-- A number belongs to a store in both pools, seen alike, or in neither. -/
theorem stores_cases (same : SameBut view p q) (number : Nat) :
    p.stores[number]? = none ∧ q.stores[number]? = none ∨
      ∃ s u, p.stores[number]? = some s ∧ q.stores[number]? = some u ∧
        view p.clock s.table = view p.clock u.table := by
  have viewed := same.tables number
  cases left : p.stores[number]? with
  | none =>
    rw [left, Option.map_none, eq_comm, Option.map_eq_none_iff] at viewed
    exact .inl ⟨rfl, viewed⟩
  | some s =>
    rw [left, Option.map_some, eq_comm, Option.map_eq_some_iff] at viewed
    obtain ⟨u, right, alike⟩ := viewed
    exact .inr ⟨s, u, rfl, right, alike.symm⟩

/-- What becomes of stores in both pools shows in the views if it does so
for each pair of stores. -/
theorem map_tables (same : SameBut view p q) {later : Instant} {f g : Store → Store} (number : Nat)
    (kept : ∀ s u : Store, view p.clock s.table = view p.clock u.table →
      view later (f s).table = view later (g u).table) :
    ((p.stores[number]?.map f).map fun store : Store => view later store.table) =
      (q.stores[number]?.map g).map fun store : Store => view later store.table := by
  obtain ⟨left, right⟩ | ⟨s, u, left, right, viewed⟩ := same.stores_cases number
  · rw [left, right]
    rfl
  · rw [left, right]
    exact congrArg some (kept s u viewed)

theorem call (same : SameBut view p q) (handle : Nat) (operation : Operation)
    (kept : ∀ s u : Store, view p.clock s.table = view p.clock u.table →
      view p.clock (s.perform p.clock operation).1.table =
        view p.clock (u.perform p.clock operation).1.table) :
    SameBut view (p.step (.call handle operation)).1 (q.step (.call handle operation)).1 := by
  refine ⟨?_, ?_, fun number => ?_⟩
  · rw [clock_call, clock_call, same.clock]
  · rw [handles_call, handles_call, same.handles]
  · rw [getElem?_stores_call, getElem?_stores_call, clock_call, ← same.storeNumber?, ← same.clock]
    split
    · exact same.map_tables number kept
    · exact same.tables number

theorem create (same : SameBut view p q) (interval : SweepInterval) :
    SameBut view (p.step (.create interval)).1 (q.step (.create interval)).1 := by
  have clock : (p.step (.create interval)).1.clock = p.clock := rfl
  refine ⟨same.clock, ?_, fun number => ?_⟩
  · simp only [step, addStore, same.handles, same.length]
  · rw [getElem?_stores_create, getElem?_stores_create, ← same.length, ← same.clock, clock]
    split
    · rfl
    · exact same.tables number

theorem clone (same : SameBut view p q) (handle : Nat) :
    SameBut view (p.step (.clone handle)).1 (q.step (.clone handle)).1 := by
  refine ⟨?_, ?_, fun number => ?_⟩
  · rw [clock_clone, clock_clone, same.clock]
  · rw [step_clone, step_clone, same.storeNumber?]
    cases q.storeNumber? handle <;> simp only [same.handles]
  · rw [stores_clone, stores_clone, clock_clone, same.tables]

theorem drop (same : SameBut view p q) (handle : Nat) :
    SameBut view (p.step (.drop handle)).1 (q.step (.drop handle)).1 := by
  refine ⟨?_, ?_, fun number => ?_⟩
  · rw [clock_drop, clock_drop, same.clock]
  · rw [handles_drop, handles_drop, same.handles]
  · rw [getElem?_stores_drop, getElem?_stores_drop, clock_drop, ← same.storeNumber?, ← same.handles]
    split
    · exact same.map_tables number fun _ _ viewed => viewed
    · exact same.tables number

theorem advance (same : SameBut view p q) (span : Duration)
    (kept : ∀ s u : Store, view p.clock s.table = view p.clock u.table →
      view (p.clockAfter span) (s.pass p.clock (p.clockAfter span)).1.table =
        view (p.clockAfter span) (u.pass p.clock (p.clockAfter span)).1.table) :
    SameBut view (p.step (.advance span)).1 (q.step (.advance span)).1 := by
  have after : p.clockAfter span = q.clockAfter span := by rw [clockAfter, same.clock, clockAfter]
  refine ⟨after, same.handles, fun number => ?_⟩
  rw [getElem?_stores_advance, getElem?_stores_advance, ← after, ← same.clock]
  exact same.map_tables number kept

/-- The answer to a step is the same if it is for each pair of stores that a call may meet. -/
theorem answer (same : SameBut view p q) {step : SessionStep}
    (told : ∀ handle operation, step = .call handle operation → ∀ s u : Store,
      view p.clock s.table = view p.clock u.table →
        (s.perform p.clock operation).2.1 = (u.perform p.clock operation).2.1) :
    (p.step step).2.1 = (q.step step).2.1 := by
  cases step with
  | call handle operation =>
    rw [shown_call, shown_call, store?, store?, ← same.storeNumber?, ← same.clock]
    cases p.storeNumber? handle with
    | none => rfl
    | some number =>
      simp only [Option.bind_some]
      obtain ⟨left, right⟩ | ⟨s, u, left, right, viewed⟩ := same.stores_cases number
      · rw [left, right]
      · rw [left, right]
        exact congrArg some (told handle operation rfl s u viewed)
  | create interval => simp only [step, addStore, same.handles]
  | clone handle =>
    rw [step_clone, step_clone, same.storeNumber?, same.handles]
    cases q.storeNumber? handle <;> rfl
  | drop handle => rfl
  | advance span => rw [answer_advance, answer_advance]

/-- Pools with the same live entries keep the same live entries. -/
theorem after_of_live (same : SameBut (fun now table => table.withoutExpired now) p q)
    (steps : List SessionStep) :
    SameBut (fun now table => table.withoutExpired now) (p.after steps) (q.after steps) := by
  induction steps generalizing p q with
  | nil => exact same
  | cons first rest ih =>
    apply ih
    cases first with
    | call handle operation =>
      exact same.call handle operation fun _ _ viewed =>
        Store.withoutExpired_perform viewed operation
    | create interval => exact same.create interval
    | clone handle => exact same.clone handle
    | drop handle => exact same.drop handle
    | advance span =>
      refine same.advance span fun s u viewed => ?_
      have order : p.clock.toNanos ≤ (p.clockAfter span).toNanos :=
        p.clock.toNanos_le_getD_after? span
      have swept (store : Store) :
          (store.pass p.clock (p.clockAfter span)).1.table.withoutExpired (p.clockAfter span) =
            (store.table.withoutExpired p.clock).withoutExpired (p.clockAfter span) := by
        rw [Table.withoutExpired_withoutExpired _ order, Store.pass_fst]
        split
        · exact Table.withoutExpired_withoutExpired _ (Int.le_refl _)
        · rfl
      rw [swept, swept, viewed]

/-- While the clock stands still, pools with the same tables keep the same tables. -/
theorem after_of_still (same : SameBut (fun _ table => table) p q) (steps : List SessionStep)
    (still : ∀ span, .advance span ∉ steps) :
    SameBut (fun _ table => table) (p.after steps) (q.after steps) := by
  induction steps generalizing p q with
  | nil => exact same
  | cons first rest ih =>
    refine ih ?_ fun span mem => still span (List.mem_cons_of_mem _ mem)
    cases first with
    | call handle operation =>
      exact same.call handle operation fun _ _ viewed =>
        Store.table_perform viewed p.clock operation
    | create interval => exact same.create interval
    | clone handle => exact same.clone handle
    | drop handle => exact same.drop handle
    | advance span => exact absurd List.mem_cons_self (still span)

theorem sizes (same : SameBut (fun _ table => table) p q) :
    p.stores.map Store.size = q.stores.map Store.size := by
  apply List.ext_getElem?
  intro number
  have tables := congrArg (Option.map Table.size) (same.tables number)
  rw [Option.map_map, Option.map_map] at tables
  rw [List.getElem?_map, List.getElem?_map]
  exact tables

end SameBut

/-- A stop changes nothing but a sweeper. -/
theorem sameBut_stop (view : Instant → Table → Table) (p : Pool) (handle : Nat) :
    SameBut view (p.step (.call handle .stop)).1 p := by
  refine ⟨p.clock_call handle .stop, p.handles_call handle .stop, fun number => ?_⟩
  rw [getElem?_stores_call]
  split
  · rw [Option.map_map]
    rfl
  · rfl

/-- After a stop a session goes on as without it, as far as live entries tell. -/
theorem answer_after_stop (p : Pool) (handle : Nat) (between : List SessionStep)
    {step : SessionStep} (live : ∀ handle operation, step = .call handle operation →
      operation.looksBehind = false) :
    (((p.step (.call handle .stop)).1.after between).step step).2.1 =
      ((p.after between).step step).2.1 := by
  refine ((p.sameBut_stop _ handle).after_of_live between).answer
    fun other operation called s u viewed => ?_
  exact Store.answer_perform_of_live viewed (live other operation called)

/-- After a stop an explicit sweep still leaves what it would have left without the stop. -/
theorem sweep_after_stop (p : Pool) (handle : Nat) (between : List SessionStep) {other number : Nat}
    (names : ((p.step (.call handle .stop)).1.after between).storeNumber? other = some number) :
    (((p.step (.call handle .stop)).1.after between).step
      (.call other .sweep)).1.stores[number]?.map Store.table =
      ((p.after between).step (.call other .sweep)).1.stores[number]?.map Store.table := by
  have same := (p.sameBut_stop _ handle).after_of_live between
  rw [getElem?_stores_call, getElem?_stores_call, ← same.storeNumber?, if_pos names, if_pos names,
    Option.map_map, Option.map_map, same.clock]
  have tables := same.tables number
  rw [same.clock] at tables
  exact tables

/-- An explicit sweep is told how much smaller it has made the store. -/
theorem exists_removed (p : Pool) {handle number : Nat} {store : Store}
    (names : p.storeNumber? handle = some number) (held : p.stores[number]? = some store) :
    ∃ left count, (p.step (.call handle .sweep)).1.stores[number]? = some left ∧
      (p.step (.call handle .sweep)).2.1 = some (.removed count) ∧
      left.size + count = store.size := by
  refine ⟨(store.sweep p.clock).1, (store.sweep p.clock).2, ?_, ?_, store.table.size_sweep p.clock⟩
  · rw [getElem?_stores_call, if_pos names, held]
    rfl
  · rw [shown_call, store?, names, Option.bind_some, held]
    rfl

/-- Until the clock moves, only the sweeper's state tells that there was a stop. -/
theorem answer_after_stop_of_still (p : Pool) (handle : Nat) {between : List SessionStep}
    (still : ∀ span, .advance span ∉ between) {step : SessionStep}
    (asked : ∀ handle, step ≠ .call handle .state) :
    (((p.step (.call handle .stop)).1.after between).step step).2.1 =
      ((p.after between).step step).2.1 := by
  refine ((p.sameBut_stop _ handle).after_of_still between still).answer
    fun other operation called s u viewed => ?_
  refine Store.answer_perform viewed _ fun state => asked other ?_
  rw [called, state]

end Pool

end ExpiringStore
