import ExpiringStore.Proofs.Accounting.Ledger
import ExpiringStore.Proofs.Handles.Moves

/-!
# The ledger of a session

What a session enters for each of its stores, step by step. A line of the log does not say which
store has been swept, so what is entered can be read off the log only where there is one.
-/
namespace ExpiringStore

/-- The entries that an answer says have been removed. -/
def Answer.removedCount : Answer → Nat
  | .removed count => count
  | _ => 0

/-- The entries that the answers of a session say have been removed. -/
def removedIn : List Shown → Nat
  | [] => 0
  | step :: rest => (step.answer.map Answer.removedCount).getD 0 + removedIn rest

namespace Pool

def entered (p : Pool) (number : Nat) (step : SessionStep) : Ledger :=
  match p.stores[number]?, step with
  | some store, .call handle operation =>
    if p.storeNumber? handle = some number then store.entered p.clock operation else .blank
  | some store, .advance span => .ofLog (sweptIn (store.pass p.clock (p.clockAfter span)).2)
  | _, _ => .blank

/-- What a session enters for the store with a number. -/
def ledger (p : Pool) (number : Nat) : List SessionStep → Ledger
  | [] => .blank
  | step :: rest => (p.entered number step).append ((p.step step).1.ledger number rest)

variable {p : Pool} {number : Nat} {store : Store}

theorem accounts_step (held : p.stores[number]? = some store) (step : SessionStep) :
    ∃ after, (p.step step).1.stores[number]? = some after ∧
      (p.entered number step).Accounts store.size after.size := by
  cases step with
  | call handle operation =>
    simp only [getElem?_stores_call, entered, held]
    by_cases names : p.storeNumber? handle = some number
    · rw [if_pos names, if_pos names]
      exact ⟨_, rfl, store.accounts_perform p.clock operation⟩
    · rw [if_neg names, if_neg names]
      exact ⟨_, rfl, Ledger.accounts_blank _⟩
  | create interval =>
    have old : number ≠ p.stores.length := Nat.ne_of_lt (List.getElem?_eq_some_iff.mp held).1
    simp only [getElem?_stores_create, entered, held, if_neg old]
    exact ⟨_, rfl, Ledger.accounts_blank _⟩
  | clone handle =>
    simp only [stores_clone, entered, held]
    exact ⟨_, rfl, Ledger.accounts_blank _⟩
  | drop handle =>
    simp only [getElem?_stores_drop, entered, held]
    split
    · exact ⟨_, rfl, Ledger.accounts_blank _⟩
    · exact ⟨_, rfl, Ledger.accounts_blank _⟩
  | advance span =>
    simp only [getElem?_stores_advance, entered, held]
    exact ⟨_, rfl, store.accounts_pass _ _⟩

theorem accounts_after (held : p.stores[number]? = some store) (steps : List SessionStep) :
    ∃ after, (p.after steps).stores[number]? = some after ∧
      (p.ledger number steps).Accounts store.size after.size := by
  induction steps generalizing p store with
  | nil => exact ⟨store, held, Ledger.accounts_blank _⟩
  | cons step rest ih =>
    obtain ⟨mid, there, entered⟩ := accounts_step held step
    obtain ⟨after, last, continued⟩ := ih there
    exact ⟨after, last, entered.append continued⟩

/-- Only a new store changes how many there are. -/
theorem length_stores_step (p : Pool) {step : SessionStep}
    (old : ∀ interval, step ≠ .create interval) :
    (p.step step).1.stores.length = p.stores.length := by
  cases step with
  | call handle operation =>
    rw [step_call]
    split
    · exact List.length_set
    · rfl
  | create interval => exact absurd rfl (old interval)
  | clone handle => rw [stores_clone]
  | drop handle =>
    simp only [step, drop]
    split
    · rfl
    · simp only
      split
      · rfl
      · exact List.length_modify _ _ _
  | advance span => simp only [step, advance, List.length_map]

/-- Where there is one store only, what is entered of sweeps is what has
been answered and logged. -/
theorem entered_of_sole (sole : p.stores.length = 1) {step : SessionStep}
    (old : ∀ interval, step ≠ .create interval) :
    (p.entered 0 step).swept = ((p.step step).2.1.map Answer.removedCount).getD 0 ∧
      (p.entered 0 step).logged = sweptIn (p.step step).2.2 := by
  obtain ⟨store, only⟩ := List.length_eq_one_iff.mp sole
  have held : p.stores[0]? = some store := by rw [only]; rfl
  cases step with
  | call handle operation =>
    rw [shown_call, store?]
    simp only [entered, held]
    by_cases names : p.storeNumber? handle = some 0
    · rw [if_pos names, names, Option.bind_some, held]
      cases operation with
      | stop =>
        simp only [Store.perform, Store.stop, Sweeper.stop]
        cases store.sweeper.state <;> exact ⟨rfl, rfl⟩
      | set | get | delete | list | sweep | isEmpty | state => exact ⟨rfl, rfl⟩
    · -- There is no other store that the handle could lead to.
      have nobody : ((p.storeNumber? handle).bind fun number => p.stores[number]?) = none := by
        cases other : p.storeNumber? handle with
        | none => rfl
        | some number =>
          rw [other, Option.some.injEq] at names
          rw [Option.bind_some, List.getElem?_eq_none_iff]
          omega
      rw [if_neg names, nobody]
      exact ⟨rfl, rfl⟩
  | create interval => exact absurd rfl (old interval)
  | clone handle =>
    rw [step_clone]
    simp only [entered, held]
    cases p.storeNumber? handle <;> exact ⟨rfl, rfl⟩
  | drop handle =>
    simp only [entered, held]
    exact ⟨rfl, rfl⟩
  | advance span =>
    simp only [entered, held]
    refine ⟨rfl, ?_⟩
    simp only [step, advance, only, List.map_cons, List.map_nil, List.flatMap_cons,
      List.flatMap_nil, List.append_nil]
    rfl

theorem ledger_of_sole (sole : p.stores.length = 1) {steps : List SessionStep}
    (old : ∀ interval, .create interval ∉ steps) :
    (p.ledger 0 steps).swept = removedIn (p.shown steps) ∧
      (p.ledger 0 steps).logged = sweptIn ((p.shown steps).flatMap Shown.events) := by
  induction steps generalizing p with
  | nil => exact ⟨rfl, rfl⟩
  | cons step rest ih =>
    have oldStep : ∀ interval, step ≠ .create interval := by
      rintro interval rfl
      exact old interval List.mem_cons_self
    obtain ⟨swept, logged⟩ := entered_of_sole sole oldStep
    obtain ⟨sweptLater, loggedLater⟩ := ih ((p.length_stores_step oldStep).trans sole)
      fun interval mem => old interval (List.mem_cons_of_mem _ mem)
    refine ⟨congrArg₂ (· + ·) swept sweptLater, ?_⟩
    rw [shown, List.flatMap_cons, sweptIn_append, ← loggedLater]
    exact congrArg (· + _) logged

end Pool

end ExpiringStore
