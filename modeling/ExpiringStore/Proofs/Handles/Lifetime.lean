import ExpiringStore.Proofs.Handles.Moves
import ExpiringStore.Proofs.Schedule

/-!
# The life of a sweeper among handles

A store's sweeper runs from the store's creation until the first stop of the store or the
drop of its last handle, whichever handles the session goes through, and as long as it
runs it sweeps at its ticks.
-/
namespace ExpiringStore

/-- No operation but a stop touches the sweeper. -/
theorem Store.sweeper_perform (s : Store) (now : Instant) (operation : Operation) :
    (s.perform now operation).1.sweeper =
      if operation = .stop then { s.sweeper with state := .stopped } else s.sweeper := by
  cases operation with
  | get key => simp only [perform, get_eq, reduceCtorEq, if_false]
  | delete key => simp only [perform, delete_eq, reduceCtorEq, if_false]
  | stop =>
    simp only [perform, stop, Sweeper.stop, if_true]
    cases s.sweeper.state <;> rfl
  | set key value ttl | list | sweep | isEmpty | state => rfl

namespace Pool

/-- Whether a step ends a store's sweeper: a stop of the store, or the drop of
the last handle to it. -/
def ends (p : Pool) (number : Nat) : SessionStep → Bool
  | .call handle .stop => p.storeNumber? handle == some number
  | .drop handle =>
    p.storeNumber? handle == some number && !(p.handles.set handle none).contains (some number)
  | _ => false

theorem ends_drop_iff {p : Pool} {number handle : Nat} : p.ends number (.drop handle) = true ↔
    p.storeNumber? handle = some number ∧ some number ∉ p.handles.set handle none := by
  simp only [ends, Bool.and_eq_true, beq_iff_eq, Bool.not_eq_true', ← Bool.not_eq_true,
    List.contains_iff_mem]

/-- Whether some step of a session ends a store's sweeper. -/
def ended (p : Pool) (number : Nat) : List SessionStep → Bool
  | [] => false
  | step :: rest => p.ends number step || (p.step step).1.ended number rest

/-- A pool has a store whose sweeper has run since its creation unless it is finished. -/
def Sweeping (number : Nat) (interval : SweepInterval) (created : Instant) (finished : Bool)
    (p : Pool) : Prop :=
  ∃ store, p.stores[number]? = some store ∧
    store.sweeper = ⟨interval, created, if finished then .stopped else .running⟩

namespace Sweeping

variable {number : Nat} {interval : SweepInterval} {created : Instant} {finished : Bool} {p : Pool}

theorem of_create (p : Pool) (interval : SweepInterval) :
    Sweeping p.stores.length interval p.clock false (p.step (.create interval)).1 :=
  ⟨(Store.create interval p.clock).1, by rw [getElem?_stores_create, if_pos rfl], rfl⟩

theorem call (sweeping : Sweeping number interval created finished p) (handle : Nat)
    (operation : Operation) :
    Sweeping number interval created (finished || p.ends number (.call handle operation))
      (p.step (.call handle operation)).1 := by
  obtain ⟨store, held, sweeper⟩ := sweeping
  rw [Sweeping, getElem?_stores_call, held]
  by_cases own : p.storeNumber? handle = some number
  · refine ⟨(store.perform p.clock operation).1, by rw [if_pos own, Option.map_some], ?_⟩
    rw [Store.sweeper_perform, sweeper]
    cases operation with
    | stop => simp [ends, own]
    | _ => simp [ends]
  · have goesOn : p.ends number (.call handle operation) = false := by
      cases operation with
      | stop => exact beq_eq_false_iff_ne.mpr own
      | _ => rfl
    rw [goesOn, Bool.or_false]
    exact ⟨store, if_neg own, sweeper⟩

theorem drop (sweeping : Sweeping number interval created finished p) (handle : Nat) :
    Sweeping number interval created (finished || p.ends number (.drop handle))
      (p.step (.drop handle)).1 := by
  obtain ⟨store, held, sweeper⟩ := sweeping
  rw [Sweeping, getElem?_stores_drop, held]
  by_cases last : p.storeNumber? handle = some number ∧ some number ∉ p.handles.set handle none
  · refine ⟨_, if_pos last, ?_⟩
    show store.sweeper.abandon = _
    rw [ends_drop_iff.mpr last, Bool.or_true, sweeper]
    rfl
  · have goesOn : p.ends number (.drop handle) = false :=
      Bool.not_eq_true _ ▸ mt ends_drop_iff.mp last
    rw [goesOn, Bool.or_false]
    exact ⟨store, if_neg last, sweeper⟩

theorem step (sweeping : Sweeping number interval created finished p) (step : SessionStep) :
    Sweeping number interval created (finished || p.ends number step) (p.step step).1 := by
  cases step with
  | call handle operation => exact sweeping.call handle operation
  | drop handle => exact sweeping.drop handle
  | create other =>
    obtain ⟨store, held, sweeper⟩ := sweeping
    have differs : number ≠ p.stores.length := Nat.ne_of_lt (List.getElem?_eq_some_iff.mp held).1
    show Sweeping number interval created (finished || false) _
    rw [Bool.or_false, Sweeping, getElem?_stores_create, if_neg differs]
    exact ⟨store, held, sweeper⟩
  | clone handle =>
    show Sweeping number interval created (finished || false) _
    rw [Bool.or_false, Sweeping, stores_clone]
    exact sweeping
  | advance span =>
    obtain ⟨store, held, sweeper⟩ := sweeping
    show Sweeping number interval created (finished || false) _
    rw [Bool.or_false, Sweeping, getElem?_stores_advance, held]
    refine ⟨_, Option.map_some .., ?_⟩
    rw [Store.pass_fst]
    split <;> exact sweeper

theorem after (sweeping : Sweeping number interval created finished p) (steps : List SessionStep) :
    Sweeping number interval created (finished || p.ended number steps) (p.after steps) := by
  induction steps generalizing p finished with
  | nil =>
    rw [ended, Bool.or_false]
    exact sweeping
  | cons first rest ih =>
    have later := ih (sweeping.step first)
    rwa [Bool.or_assoc] at later

/-- When the clock moves, a store is swept exactly if its sweeper has not ended and
has a tick on the way. -/
theorem exists_swept (sweeping : Sweeping number interval created finished p) (span : Duration) :
    ∃ store swept, p.stores[number]? = some store ∧
      (p.step (.advance span)).1.stores[number]? =
        some (if swept
          then { store with table := store.table.withoutExpired (p.clockAfter span) }
          else store) ∧
      (swept = true ↔ finished = false ∧
        ∃ k : Int, 1 ≤ k ∧ p.clock.floorMilli < created.toNanos + k * interval.span.toNanos ∧
          created.toNanos + k * interval.span.toNanos ≤ (p.clockAfter span).floorMilli) := by
  obtain ⟨store, held, sweeper⟩ := sweeping
  refine ⟨store, store.sweeper.wakes p.clock (p.clockAfter span), held, ?_, ?_⟩
  · rw [getElem?_stores_advance, held, Option.map_some, Store.pass_fst]
  · have running : store.sweeper.state = .running ↔ finished = false := by
      rw [sweeper]
      cases finished <;> simp
    rw [Sweeper.wakes_iff, running]
    simp only [Sweeper.tickAt, sweeper]

end Sweeping

/-- A handle that is not the last one to its store can be dropped without any effect on a store. -/
theorem stores_drop_of_not_last (p : Pool) {handle other number : Nat} (differs : other ≠ handle)
    (own : p.storeNumber? handle = some number) (names : p.storeNumber? other = some number) :
    (p.step (.drop handle)).1.stores = p.stores := by
  have left : some number ∈ p.handles.set handle none := by
    rw [← handles_drop, mem_handles_iff]
    exact ⟨other, by rw [storeNumber?_drop, if_neg differs, names]⟩
  apply List.ext_getElem?
  intro i
  rw [getElem?_stores_drop, if_neg]
  rintro ⟨same, last⟩
  rw [own, Option.some.injEq] at same
  exact last (same ▸ left)

end Pool

end ExpiringStore
