import ExpiringStore.Proofs.Handles.Moves

/-!
# Handles to one store are alike

Which of a store's live handles a step goes through makes no difference to what the session shows.
All that matters about the handles of a store is how many are left.
-/
namespace ExpiringStore.Pool

/-- Sessions that do the same, each in its own pool, with any of the handles of one replaced in the
other: a live handle by a live one to the same store, and one that is gone by one that is gone. -/
inductive Rehandled : Pool → Pool → List SessionStep → List SessionStep → Prop
  | nil {p q : Pool} : Rehandled p q [] []
  | cons {p q : Pool} {step : SessionStep} {number : Nat → Nat} {steps others : List SessionStep}
    (same : ∀ handle ∈ step.handle?, p.storeNumber? handle = q.storeNumber? (number handle))
    (rest : Rehandled (p.step step).1 (q.step (step.renumber number)).1 steps others) :
    Rehandled p q (step :: steps) (step.renumber number :: others)

/-- Two pools of the same stores with as many live handles to each. -/
structure Aligned (p q : Pool) : Prop where
  clock : p.clock = q.clock
  stores : p.stores = q.stores
  length : p.handles.length = q.handles.length
  count : ∀ number, p.handles.count (some number) = q.handles.count (some number)

/-- A dropped handle is one less of those to its store, wherever it stood. -/
theorem count_set_none {handles : List (Option Nat)} {handle number : Nat}
    (held : handles[handle]? = some (some number)) (other : Nat) :
    (handles.set handle none).count (some other) + (if number = other then 1 else 0) =
      handles.count (some other) := by
  obtain ⟨inside, there⟩ := List.getElem?_eq_some_iff.mp held
  have counted := List.count_set (a := none) (b := some other) inside
  have positive : number = other → 0 < handles.count (some other) := by
    rintro rfl
    exact List.count_pos_iff.mpr (List.mem_of_getElem? held)
  rw [counted, there]
  by_cases same : number = other
  · have least := positive same
    simp [same]
    omega
  · simp [same]

namespace Aligned

variable {p q : Pool}

theorem refl (p : Pool) : p.Aligned p := ⟨rfl, rfl, rfl, fun _ => rfl⟩

theorem store? (aligned : p.Aligned q) {handle other : Nat}
    (same : p.storeNumber? handle = q.storeNumber? other) : p.store? handle = q.store? other := by
  rw [Pool.store?, Pool.store?, same, aligned.stores]

theorem call (aligned : p.Aligned q) {handle other : Nat}
    (same : p.storeNumber? handle = q.storeNumber? other) (operation : Operation) :
    (p.step (.call handle operation)).1.Aligned (q.step (.call other operation)).1 ∧
      (p.step (.call handle operation)).2 = (q.step (.call other operation)).2 := by
  refine ⟨⟨?_, List.ext_getElem? fun number => ?_, ?_, fun number => ?_⟩, ?_⟩
  · rw [clock_call, clock_call, aligned.clock]
  · rw [getElem?_stores_call, getElem?_stores_call, same, aligned.stores, aligned.clock]
  · rw [handles_call, handles_call, aligned.length]
  · rw [handles_call, handles_call, aligned.count]
  · rw [shown_call, shown_call, aligned.store? same, aligned.clock]

theorem create (aligned : p.Aligned q) (interval : SweepInterval) :
    (p.step (.create interval)).1.Aligned (q.step (.create interval)).1 ∧
      (p.step (.create interval)).2 = (q.step (.create interval)).2 := by
  obtain ⟨clock, stores, length, count⟩ := aligned
  refine ⟨⟨clock, ?_, ?_, fun number => ?_⟩, ?_⟩
  · simp only [step, addStore, stores, clock]
  · simp only [step, addStore, List.length_append, length, List.length_singleton]
  · simp only [step, addStore, List.count_append, count, stores]
  · simp only [step, addStore, clock, length]

theorem clone (aligned : p.Aligned q) {handle other : Nat}
    (same : p.storeNumber? handle = q.storeNumber? other) :
    (p.step (.clone handle)).1.Aligned (q.step (.clone other)).1 ∧
      (p.step (.clone handle)).2 = (q.step (.clone other)).2 := by
  rw [step_clone, step_clone, same]
  cases q.storeNumber? other with
  | none => exact ⟨aligned, rfl⟩
  | some named =>
    obtain ⟨clock, stores, length, count⟩ := aligned
    refine ⟨⟨clock, stores, ?_, fun number => ?_⟩, by rw [length]⟩
    · simp only [List.length_append, length]
    · simp only [List.count_append, count]

/-- Either both handles are the last ones or neither is. -/
theorem drop (aligned : p.Aligned q) {handle other : Nat}
    (same : p.storeNumber? handle = q.storeNumber? other) :
    (p.step (.drop handle)).1.Aligned (q.step (.drop other)).1 ∧
      (p.step (.drop handle)).2 = (q.step (.drop other)).2 := by
  have counts (number : Nat) : (p.handles.set handle none).count (some number) =
      (q.handles.set other none).count (some number) := by
    cases named : q.storeNumber? other with
    | none =>
      rw [← handles_drop, ← handles_drop]
      simp only [step, Pool.drop, same, named]
      exact aligned.count number
    | some store =>
      have left := count_set_none (Option.join_eq_some_iff.mp (same.trans named)) number
      have right := count_set_none (Option.join_eq_some_iff.mp named) number
      have before := aligned.count number
      omega
  refine ⟨⟨?_, List.ext_getElem? fun number => ?_, ?_, fun number => ?_⟩, rfl⟩
  · rw [clock_drop, clock_drop, aligned.clock]
  · have left : some number ∈ p.handles.set handle none ↔
        some number ∈ q.handles.set other none := by
      rw [← List.count_pos_iff, ← List.count_pos_iff, counts]
    simp only [getElem?_stores_drop, same, left, aligned.stores]
  · rw [handles_drop, handles_drop, List.length_set, List.length_set, aligned.length]
  · rw [handles_drop, handles_drop, counts]

theorem step (aligned : p.Aligned q) (step : SessionStep) (number : Nat → Nat)
    (same : ∀ handle ∈ step.handle?, p.storeNumber? handle = q.storeNumber? (number handle)) :
    (p.step step).1.Aligned (q.step (step.renumber number)).1 ∧
      (p.step step).2 = (q.step (step.renumber number)).2 := by
  cases step with
  | call handle operation => exact aligned.call (same handle rfl) operation
  | create interval => exact aligned.create interval
  | clone handle => exact aligned.clone (same handle rfl)
  | drop handle => exact aligned.drop (same handle rfl)
  | advance span =>
    obtain ⟨clock, stores, length, count⟩ := aligned
    refine ⟨⟨?_, ?_, length, count⟩, ?_⟩ <;>
      simp only [Pool.step, SessionStep.renumber, advance, clock, stores]

/-- A session shows the same whichever handles it goes through. -/
theorem shown_eq (aligned : p.Aligned q) {steps others : List SessionStep}
    (rehandled : Rehandled p q steps others) : p.shown steps = q.shown others := by
  induction rehandled with
  | nil => rfl
  | @cons p q first number steps others same _ ih =>
    obtain ⟨after, told⟩ := aligned.step first number same
    rw [shown, shown, ih after, told, after.stores]

end Aligned

end ExpiringStore.Pool
