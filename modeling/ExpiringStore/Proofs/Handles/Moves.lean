import ExpiringStore.Proofs.Operations

/-!
# What a step of a session does

Each step by what it does to the clock, to the handles and to each store, and by what it
shows. A step that goes through a handle concerns the store behind it and no other; the
clock concerns them all.
-/
namespace ExpiringStore

namespace SessionStep

def handle? : SessionStep → Option Nat
  | .call handle _ | .clone handle | .drop handle => some handle
  | .create _ | .advance _ => none

/-- The same step through another handle, if it goes through one. -/
def renumber (number : Nat → Nat) : SessionStep → SessionStep
  | .call handle operation => .call (number handle) operation
  | .clone handle => .clone (number handle)
  | .drop handle => .drop (number handle)
  | .create interval => .create interval
  | .advance span => .advance span

end SessionStep

/-- What a step of a session shows: its answer, the sizes of all stores after
it, and what is logged. -/
structure Shown where
  answer : Option Answer
  sizes : List Nat
  events : List Event
  deriving DecidableEq, Repr

namespace Pool

/-- What a session shows, step by step. -/
def shown (p : Pool) : List SessionStep → List Shown
  | [] => []
  | step :: rest =>
    ⟨(p.step step).2.1, (p.step step).1.stores.map Store.size, (p.step step).2.2⟩ ::
      (p.step step).1.shown rest

section

variable (p : Pool) (handle number other : Nat)

/-! ## Calls -/

section

variable (operation : Operation)

/-- A call through a handle runs the operation on the store behind it. -/
theorem step_call : p.step (.call handle operation) =
    match p.storeNumber? handle, p.store? handle with
    | some number, some store =>
      ({ p with stores := p.stores.set number (store.perform p.clock operation).1 },
        some (store.perform p.clock operation).2.1, (store.perform p.clock operation).2.2)
    | _, _ => (p, none, []) := by
  simp only [step, call, withStore?, store?]
  cases p.storeNumber? handle with
  | none => rfl
  | some number =>
    simp only [Option.bind_some]
    cases p.stores[number]? <;> rfl

theorem clock_call : (p.step (.call handle operation)).1.clock = p.clock := by
  rw [step_call]
  split <;> rfl

theorem handles_call : (p.step (.call handle operation)).1.handles = p.handles := by
  rw [step_call]
  split <;> rfl

theorem storeNumber?_call :
    (p.step (.call handle operation)).1.storeNumber? other = p.storeNumber? other := by
  rw [storeNumber?, handles_call, storeNumber?]

theorem getElem?_stores_call : (p.step (.call handle operation)).1.stores[number]? =
    if p.storeNumber? handle = some number then
      p.stores[number]?.map fun store => (store.perform p.clock operation).1
    else p.stores[number]? := by
  rw [step_call, store?]
  cases p.storeNumber? handle with
  | none => rfl
  | some named =>
    simp only [Option.bind_some, Option.some.injEq]
    by_cases same : named = number
    · subst same
      rw [if_pos rfl]
      cases held : p.stores[named]? with
      | none => exact held
      | some store =>
        have inside := (List.getElem?_eq_some_iff.mp held).1
        simp [inside]
    · rw [if_neg same]
      cases p.stores[named]? with
      | none => rfl
      | some store => exact List.getElem?_set_ne same

theorem shown_call : (p.step (.call handle operation)).2 =
    match p.store? handle with
    | some store =>
      (some (store.perform p.clock operation).2.1, (store.perform p.clock operation).2.2)
    | none => (none, []) := by
  rw [step_call, store?]
  cases p.storeNumber? handle with
  | none => rfl
  | some named =>
    simp only [Option.bind_some]
    cases p.stores[named]? <;> rfl

end

/-! ## New stores and handles -/

theorem storeNumber?_length : p.storeNumber? p.handles.length = none := by
  simp [storeNumber?]

theorem storeNumber?_append (stores : List Store) (opened : Nat) :
    Pool.storeNumber? ⟨p.clock, stores, p.handles ++ [some opened]⟩ other =
      if other = p.handles.length then some opened else p.storeNumber? other := by
  unfold storeNumber?
  by_cases new : other = p.handles.length
  · simp [new]
  · rw [if_neg new]
    by_cases old : other < p.handles.length
    · rw [List.getElem?_append_left old]
    · have outside : p.handles.length ≤ other := by omega
      rw [List.getElem?_append_right outside, List.getElem?_eq_none (by simp; omega),
        List.getElem?_eq_none outside]

theorem storeNumber?_create (interval : SweepInterval) :
    (p.step (.create interval)).1.storeNumber? other =
      if other = p.handles.length then some p.stores.length else p.storeNumber? other :=
  p.storeNumber?_append other _ _

theorem getElem?_stores_create (interval : SweepInterval) :
    (p.step (.create interval)).1.stores[number]? =
      if number = p.stores.length then some (Store.create interval p.clock).1
        else p.stores[number]? := by
  simp only [step, addStore]
  by_cases new : number = p.stores.length
  · simp [new]
  · rw [if_neg new]
    by_cases old : number < p.stores.length
    · rw [List.getElem?_append_left old]
    · rw [List.getElem?_eq_none (by simp; omega), List.getElem?_eq_none (by omega)]

/-- A clone is one more handle to the store behind the handle. -/
theorem step_clone : p.step (.clone handle) =
    match p.storeNumber? handle with
    | some number =>
      ({ p with handles := p.handles ++ [some number] }, some (.handle p.handles.length), [])
    | none => (p, none, []) := by
  simp only [step, clone?]
  cases p.storeNumber? handle <;> rfl

theorem clock_clone : (p.step (.clone handle)).1.clock = p.clock := by
  rw [step_clone]
  split <;> rfl

theorem stores_clone : (p.step (.clone handle)).1.stores = p.stores := by
  rw [step_clone]
  split <;> rfl

theorem storeNumber?_clone : (p.step (.clone handle)).1.storeNumber? other =
    if other = p.handles.length then p.storeNumber? handle else p.storeNumber? other := by
  rw [step_clone]
  cases p.storeNumber? handle with
  | none =>
    by_cases new : other = p.handles.length
    · rw [if_pos new, new]
      exact p.storeNumber?_length
    · rw [if_neg new]
  | some named => exact p.storeNumber?_append other _ named

/-! ## Dropped handles -/

theorem handles_drop : (p.step (.drop handle)).1.handles = p.handles.set handle none := by
  simp only [step, drop]
  cases names : p.storeNumber? handle with
  | some named => rfl
  | none =>
    show p.handles = p.handles.set handle none
    apply List.ext_getElem?
    intro i
    by_cases same : handle = i
    · subst same
      by_cases inside : handle < p.handles.length
      · -- The handle has been handed out, and dropped before.
        rw [storeNumber?, List.getElem?_eq_getElem inside, Option.join_some] at names
        rw [List.getElem?_set_self inside, List.getElem?_eq_getElem inside, names]
      · rw [List.set_eq_of_length_le (by omega)]
    · rw [List.getElem?_set_ne same]

theorem clock_drop : (p.step (.drop handle)).1.clock = p.clock := by
  simp only [step, drop]
  split <;> rfl

theorem storeNumber?_drop : (p.step (.drop handle)).1.storeNumber? other =
    if other = handle then none else p.storeNumber? other := by
  rw [storeNumber?, handles_drop, List.getElem?_set, storeNumber?]
  by_cases same : handle = other
  · rw [if_pos same, if_pos same.symm]
    split <;> rfl
  · rw [if_neg same, if_neg (Ne.symm same)]

/-- The last handle to a store takes its sweeper with it. -/
theorem getElem?_stores_drop : (p.step (.drop handle)).1.stores[number]? =
    if p.storeNumber? handle = some number ∧ some number ∉ p.handles.set handle none then
      p.stores[number]?.map fun store => { store with sweeper := store.sweeper.abandon }
    else p.stores[number]? := by
  simp only [step, drop]
  cases p.storeNumber? handle with
  | none => simp
  | some named =>
    simp only [List.contains_iff_mem, Option.some.injEq]
    by_cases left : some named ∈ p.handles.set handle none
    · rw [if_pos left, if_neg]
      rintro ⟨rfl, gone⟩
      exact gone left
    · rw [if_neg left, List.getElem?_modify]
      by_cases same : named = number
      · subst same
        simp [left]
      · simp [same]

/-- A store that some handle leads to. -/
theorem mem_handles_iff : some number ∈ p.handles ↔
    ∃ handle, p.storeNumber? handle = some number := by
  rw [List.mem_iff_getElem?]
  exact exists_congr fun handle => Option.join_eq_some_iff.symm

/-! ## Time -/

def clockAfter (span : Duration) : Instant := (p.clock.after? span).getD Instant.last

theorem answer_advance (span : Duration) : (p.step (.advance span)).2.1 = some .done := rfl

theorem getElem?_stores_advance (span : Duration) : (p.step (.advance span)).1.stores[number]? =
    p.stores[number]?.map fun store => (store.pass p.clock (p.clockAfter span)).1 := by
  simp [step, advance, clockAfter, Function.comp_def]

end

end Pool

end ExpiringStore
