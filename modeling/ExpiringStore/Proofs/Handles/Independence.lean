import ExpiringStore.Proofs.Handles.Isolation
import ExpiringStore.Proofs.Handles.Lifetime
import ExpiringStore.Proofs.Handles.Sharing
import ExpiringStore.Proofs.Handles.Stopping

/-!
# Handles share a store, and stores share nothing

The main statement about sessions on many stores through many handles: which handle of a store is
used shows in nothing, what is done to one store shows in no other, and a store is swept from its
creation until it is stopped or nobody can reach it, while a stop takes nothing else away.
-/
namespace ExpiringStore

open Pool

/-- Handles to one store are interchangeable. A step on one store leaves every other as it was, and
a session shows of a store what the store's own steps show without the others. A store is swept at
its ticks until the first of its stop and the drop of its last handle; the drop of another handle
changes no store. After a stop all that asks for live entries is answered as it would have been, an
explicit sweep leaves what it would have left and counts what it takes away, and until the clock
moves every answer but the sweeper's state and every size is the same. -/
theorem sessions_share_and_isolate :
    (∀ p steps others, Rehandled p p steps others → p.shown steps = p.shown others) ∧
    (∀ (p : Pool) number step, p.concerns number step = false →
      (p.step step).1.stores[number]? = p.stores[number]?) ∧
    (∀ start number steps, (onClock start).shownOf number [] steps =
      ((onClock start).shown ((onClock start).alone number [] steps)).map
        fun shown => (shown.answer, shown.sizes)) ∧
    (∀ (p : Pool) interval steps span,
      let created := (p.step (.create interval)).1
      let q := created.after steps
      ∃ store swept, q.stores[p.stores.length]? = some store ∧
        (q.step (.advance span)).1.stores[p.stores.length]? =
          some (if swept
            then { store with table := store.table.withoutExpired (q.clockAfter span) }
            else store) ∧
        (swept = true ↔ created.ended p.stores.length steps = false ∧
          ∃ k : Int, 1 ≤ k ∧ q.clock.floorMilli < p.clock.toNanos + k * interval.span.toNanos ∧
            p.clock.toNanos + k * interval.span.toNanos ≤ (q.clockAfter span).floorMilli)) ∧
    (∀ (p : Pool) handle other number, other ≠ handle → p.storeNumber? handle = some number →
      p.storeNumber? other = some number → (p.step (.drop handle)).1.stores = p.stores) ∧
    (∀ (p : Pool) handle between step,
      (∀ handle operation, step = .call handle operation → operation.looksBehind = false) →
      (((p.step (.call handle .stop)).1.after between).step step).2.1 =
        ((p.after between).step step).2.1) ∧
    (∀ (p : Pool) handle between other number store,
      let q := (p.step (.call handle .stop)).1.after between
      q.storeNumber? other = some number → q.stores[number]? = some store →
        (q.step (.call other .sweep)).1.stores[number]?.map Store.table =
            ((p.after between).step (.call other .sweep)).1.stores[number]?.map Store.table ∧
          ∃ left count, (q.step (.call other .sweep)).1.stores[number]? = some left ∧
            (q.step (.call other .sweep)).2.1 = some (.removed count) ∧
            left.size + count = store.size) ∧
    ∀ (p : Pool) handle between step, (∀ span, .advance span ∉ between) →
      (∀ handle, step ≠ .call handle .state) →
      (((p.step (.call handle .stop)).1.after between).step step).2.1 =
        ((p.after between).step step).2.1 ∧
        ((p.step (.call handle .stop)).1.after between).stores.map Store.size =
          (p.after between).stores.map Store.size := by
  refine ⟨?_, ?_, ?_, ?_, ?_, ?_, ?_, ?_⟩
  · intro p steps others rehandled
    exact (Aligned.refl p).shown_eq rehandled
  · intro p number step other
    exact getElem?_stores_of_not_concerns other
  · intro start number steps
    exact (Alone.onClock start).shownOf_eq steps
  · intro p interval steps span
    have sweeping := (Sweeping.of_create p interval).after steps
    rw [Bool.false_or] at sweeping
    exact sweeping.exists_swept span
  · intro p handle other number differs own names
    exact p.stores_drop_of_not_last differs own names
  · intro p handle between step live
    exact p.answer_after_stop handle between live
  · intro p handle between other number store q names held
    exact ⟨p.sweep_after_stop handle between names, q.exists_removed names held⟩
  · intro p handle between step still asked
    exact ⟨p.answer_after_stop_of_still handle still asked,
      ((p.sameBut_stop _ handle).after_of_still between still).sizes⟩

/-- Two stores, the first of them with two handles of which either may write,
be dropped and be left. -/
theorem sessions_share_and_isolate_two_handles :
    let start := Pool.onClock ⟨0, 0⟩
    let opened := start.after [.create .standard, .clone 0, .create .standard]
    let between := [SessionStep.call 1 (.set "k" "v" (some (Duration.ofMillis 1)))]
    let later := between ++ [.advance (Duration.ofSeconds 2)]
    start.shown
        [.create .standard, .clone 0, .call 0 (.set "k" "v" none), .drop 0, .call 1 (.get "k")] =
      start.shown
        [.create .standard, .clone 0, .call 1 (.set "k" "v" none), .drop 1, .call 0 (.get "k")] ∧
      (opened.step (.call 2 (.set "k" "w" none))).1.stores[0]? = opened.stores[0]? ∧
      (opened.step (.drop 0)).1.stores = opened.stores ∧
      (((opened.step (.call 0 .stop)).1.after later).step (.call 1 (.get "k"))).2.1 =
        ((opened.after later).step (.call 1 (.get "k"))).2.1 ∧
      (∃ store left count, ((opened.step (.call 0 .stop)).1.after later).stores[0]? = some store ∧
        (((opened.step (.call 0 .stop)).1.after later).step (.call 1 .sweep)).1.stores[0]? =
          some left ∧
        (((opened.step (.call 0 .stop)).1.after later).step (.call 1 .sweep)).2.1 =
          some (.removed count) ∧
        left.size + count = store.size) ∧
      (((opened.step (.call 0 .stop)).1.after between).step (.call 1 .sweep)).2.1 =
        ((opened.after between).step (.call 1 .sweep)).2.1 := by
  intro start opened between later
  obtain ⟨alike, elsewhere, -, -, notLast, live, swept, still⟩ := sessions_share_and_isolate
  refine ⟨?_, ?_, ?_, ?_, ?_, ?_⟩
  · apply alike
    let swap (handle : Nat) : Nat := 1 - handle
    refine @Rehandled.cons _ _ (.create .standard) id _ _ (by decide) ?_
    refine @Rehandled.cons _ _ (.clone 0) id _ _ (by decide) ?_
    refine @Rehandled.cons _ _ (.call 0 (.set "k" "v" none)) swap _ _ (by decide) ?_
    refine @Rehandled.cons _ _ (.drop 0) swap _ _ (by decide) ?_
    refine @Rehandled.cons _ _ (.call 1 (.get "k")) swap _ _ (by decide) ?_
    exact .nil
  · exact elsewhere opened 0 (.call 2 (.set "k" "w" none)) (by decide)
  · exact notLast opened 0 1 0 (by decide) (by decide) (by decide)
  · refine live opened 0 later (.call 1 (.get "k")) fun handle operation called => ?_
    cases called
    rfl
  · let stopped := (opened.step (.call 0 .stop)).1.after later
    obtain ⟨store, held⟩ :=
      Option.isSome_iff_exists.mp (show stopped.stores[0]?.isSome = true by decide)
    obtain ⟨-, left, count, leaves, told, sum⟩ := swept opened 0 later 1 0 store (by decide) held
    exact ⟨store, left, count, held, leaves, told, sum⟩
  · refine (still opened 0 between (.call 1 .sweep) (fun span mem => ?_) fun handle asked => ?_).1
    · simp [between] at mem
    · cases asked

/-- A stop shows in the answer to a later explicit sweep: an entry that has expired since is still
there to be counted, while without the stop the sweeper has taken it. -/
theorem explicit_sweep_tells_of_stop :
    let opened := (Pool.onClock ⟨0, 0⟩).after [.create .standard, .clone 0]
    let set := SessionStep.call 1 (.set "k" "v" (some (Duration.ofMillis 1)))
    let later := [set, .advance (Duration.ofSeconds 2)]
    (((opened.step (.call 0 .stop)).1.after later).step (.call 1 .sweep)).2.1 = some (.removed 1) ∧
      ((opened.after later).step (.call 1 .sweep)).2.1 = some (.removed 0) := by
  decide

end ExpiringStore
