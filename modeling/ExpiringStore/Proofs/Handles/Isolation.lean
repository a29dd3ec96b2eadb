import Mathlib.Data.List.Basic
import ExpiringStore.Proofs.Handles.Moves

/-!
# Stores do not see each other

A session on many stores, reduced to the steps that concern one of them, is a session on that
store alone. It shows of the store what the whole session shows, with the store's handles
numbered among themselves.
-/
namespace ExpiringStore

/-- The same answer, where it hands out a handle with another number for it. -/
def Answer.renumber (number : Nat → Nat) : Answer → Answer
  | .handle old => .handle (number old)
  | answer => answer

/-- No operation hands out a handle. -/
theorem Store.renumber_perform (s : Store) (now : Instant) (operation : Operation)
    (number : Nat → Nat) :
    (s.perform now operation).2.1.renumber number = (s.perform now operation).2.1 := by
  cases operation <;> rfl

namespace Pool

/-- Whether a step concerns a store: it creates it, goes through a handle to
it, or lets time pass. -/
def concerns (p : Pool) (number : Nat) : SessionStep → Bool
  | .call handle _ | .clone handle | .drop handle => p.storeNumber? handle == some number
  | .create _ => p.stores.length == number
  | .advance _ => true

def opened (p : Pool) : SessionStep → List Nat
  | .create _ | .clone _ => [p.handles.length]
  | .call _ _ | .drop _ | .advance _ => []

/-- The steps that concern one store, for a pool without any other. The handles that the store has
been given so far are `own`; a handle's new number is its place among them. -/
def alone (p : Pool) (number : Nat) (own : List Nat) : List SessionStep → List SessionStep
  | [] => []
  | step :: rest =>
    if p.concerns number step then
      step.renumber own.idxOf :: (p.step step).1.alone number (own ++ p.opened step) rest
    else (p.step step).1.alone number own rest

/-- What the steps that concern one store show of it: their answers, in the same new numbers, and
the size of the store after them, once there is one. -/
def shownOf (p : Pool) (number : Nat) (own : List Nat) :
    List SessionStep → List (Option Answer × List Nat)
  | [] => []
  | step :: rest =>
    if p.concerns number step then
      ((p.step step).2.1.map (Answer.renumber (own ++ p.opened step).idxOf),
        (p.step step).1.stores[number]?.toList.map Store.size) ::
        (p.step step).1.shownOf number (own ++ p.opened step) rest
    else (p.step step).1.shownOf number own rest

/-- A step that does not concern a store leaves it as it was, table and sweeper. -/
theorem getElem?_stores_of_not_concerns {p : Pool} {number : Nat} {step : SessionStep}
    (other : p.concerns number step = false) :
    (p.step step).1.stores[number]? = p.stores[number]? := by
  cases step with
  | call handle operation => rw [getElem?_stores_call, if_neg (beq_eq_false_iff_ne.mp other)]
  | create interval => rw [getElem?_stores_create, if_neg (Ne.symm (beq_eq_false_iff_ne.mp other))]
  | clone handle => rw [stores_clone]
  | drop handle => rw [getElem?_stores_drop, if_neg fun last => beq_eq_false_iff_ne.mp other last.1]
  | advance span => cases other

/-- A pool of one store, which is the store `number` of another pool and has been
given its handles `own`. -/
structure Alone (number : Nat) (own : List Nat) (p q : Pool) : Prop where
  clock : q.clock = p.clock
  stores : q.stores = p.stores[number]?.toList
  handles : q.handles = own.map fun handle => (p.storeNumber? handle).map fun _ => 0
  all : ∀ handle, p.storeNumber? handle = some number → handle ∈ own
  only : ∀ handle ∈ own, ∀ named, p.storeNumber? handle = some named → named = number
  known : ∀ handle ∈ own, handle < p.handles.length
  distinct : own.Nodup

theorem set_idxOf_map {α : Type} {own : List Nat} (distinct : own.Nodup) {handle : Nat}
    (held : handle ∈ own) (f : Nat → α) (x : α) :
    (own.map f).set (own.idxOf handle) x = own.map fun other =>
      if other = handle then x else f other := by
  induction own with
  | nil => cases held
  | cons first rest ih =>
    obtain ⟨new, distinct⟩ := List.nodup_cons.mp distinct
    by_cases same : first = handle
    · subst same
      have others : rest.map f = rest.map fun other => if other = first then x else f other :=
        List.map_congr_left fun other mem => by
          rw [if_neg fun same : other = first => new (same ▸ mem)]
      rw [List.idxOf_cons_self, List.map_cons, List.set_cons_zero, others, List.map_cons,
        if_pos rfl]
    · have later := (List.mem_cons.mp held).resolve_left (Ne.symm same)
      rw [List.idxOf_cons_ne _ same, List.map_cons, List.set_cons_succ, ih distinct later,
        List.map_cons, if_neg same]

theorem eq_toList_of_getElem? {α : Type} {items : List α} {item : Option α}
    (first : items[0]? = item) (none : ∀ next, items[next + 1]? = none) : items = item.toList := by
  cases items with
  | nil => exact first ▸ rfl
  | cons head tail =>
    cases tail with
    | nil => exact first ▸ rfl
    | cons second rest => exact absurd (none 0) nofun

namespace Alone

variable {number : Nat} {own : List Nat} {p q : Pool}

theorem onClock (start : Instant) : Alone number [] (Pool.onClock start) (Pool.onClock start) where
  clock := rfl
  stores := rfl
  handles := rfl
  all handle named := by cases named
  only handle mem := by cases mem
  known handle mem := by cases mem
  distinct := List.nodup_nil

theorem getElem?_stores (alone : Alone number own p q) : q.stores[0]? = p.stores[number]? := by
  rw [alone.stores]
  cases p.stores[number]? <;> rfl

/-- The store's live handles are live under their new numbers. -/
theorem storeNumber?_idxOf (alone : Alone number own p q) {handle : Nat}
    (named : p.storeNumber? handle = some number) : q.storeNumber? (own.idxOf handle) = some 0 := by
  have held := alone.all handle named
  rw [storeNumber?, alone.handles, List.getElem?_map, List.getElem?_idxOf held,
    Option.map_some, named]
  rfl

theorem store?_idxOf (alone : Alone number own p q) {handle : Nat}
    (named : p.storeNumber? handle = some number) :
    q.store? (own.idxOf handle) = p.store? handle := by
  rw [store?, alone.storeNumber?_idxOf named, Option.bind_some, alone.getElem?_stores,
    store?, named, Option.bind_some]

/-- What happens elsewhere leaves the store alone. -/
theorem elsewhere (alone : Alone number own p q) {after : Pool} (clock : after.clock = p.clock)
    (stores : after.stores[number]? = p.stores[number]?)
    (length : p.handles.length ≤ after.handles.length)
    (kept : ∀ handle ∈ own, after.storeNumber? handle = p.storeNumber? handle)
    (none : ∀ handle, after.storeNumber? handle = some number →
      p.storeNumber? handle = some number) :
    Alone number own after q where
  clock := alone.clock.trans clock.symm
  stores := by rw [alone.stores, stores]
  handles := by
    rw [alone.handles]
    exact List.map_congr_left fun handle mem => by rw [kept handle mem]
  all handle named := alone.all handle (none handle named)
  only handle mem named names := alone.only handle mem named (kept handle mem ▸ names)
  known handle mem := Nat.lt_of_lt_of_le (alone.known handle mem) length
  distinct := alone.distinct

theorem of_not_concerns (alone : Alone number own p q) {step : SessionStep}
    (other : p.concerns number step = false) : Alone number own (p.step step).1 q := by
  have stores := getElem?_stores_of_not_concerns other
  have old (handle : Nat) (mem : handle ∈ own) : handle ≠ p.handles.length :=
    Nat.ne_of_lt (alone.known handle mem)
  cases step with
  | call handle operation =>
    refine alone.elsewhere (p.clock_call handle operation) stores ?_ ?_ ?_
    · exact Nat.le_of_eq (by rw [handles_call])
    · exact fun _ _ => storeNumber?_call ..
    · exact fun _ names => storeNumber?_call .. ▸ names
  | create interval =>
    refine alone.elsewhere rfl stores ?_ ?_ ?_
    · simp [step, addStore]
    · intro handle mem
      rw [storeNumber?_create, if_neg (old handle mem)]
    · intro handle names
      rw [storeNumber?_create] at names
      split at names
      · exact absurd (Option.some.inj names) (beq_eq_false_iff_ne.mp other)
      · exact names
  | clone cloned =>
    refine alone.elsewhere (p.clock_clone cloned) stores ?_ ?_ ?_
    · rw [step_clone]
      cases p.storeNumber? cloned <;> simp
    · intro handle mem
      rw [storeNumber?_clone, if_neg (old handle mem)]
    · intro handle names
      rw [storeNumber?_clone] at names
      split at names
      · exact absurd names (beq_eq_false_iff_ne.mp other)
      · exact names
  | drop dropped =>
    refine alone.elsewhere (p.clock_drop dropped) stores ?_ ?_ ?_
    · exact Nat.le_of_eq (by rw [handles_drop, List.length_set])
    · intro handle mem
      rw [storeNumber?_drop]
      split
      · rename_i same
        -- A handle of the store that is dropped here would be one of the store, unless
        -- it was dropped before.
        cases names : p.storeNumber? handle with
        | none => rfl
        | some named =>
          have own := alone.only handle mem named names
          rw [same] at names
          exact absurd (own ▸ names) (beq_eq_false_iff_ne.mp other)
      · rfl
    · intro handle names
      rw [storeNumber?_drop] at names
      split at names
      · cases names
      · exact names
  | advance span => cases other

/-- One more handle to the store. -/
theorem openHandle (alone : Alone number own p q) {after others : Pool}
    (clock : others.clock = after.clock) (stores : others.stores = after.stores[number]?.toList)
    (handles : others.handles = q.handles ++ [some 0])
    (length : after.handles.length = p.handles.length + 1)
    (names : ∀ handle, after.storeNumber? handle =
      if handle = p.handles.length then some number else p.storeNumber? handle) :
    Alone number (own ++ [p.handles.length]) after others where
  clock := clock
  stores := stores
  handles := by
    rw [handles, alone.handles, List.map_append, List.map_singleton, names, if_pos rfl,
      Option.map_some]
    congr 1
    refine List.map_congr_left fun handle mem => ?_
    rw [names, if_neg (Nat.ne_of_lt (alone.known handle mem))]
  all handle named := by
    rw [names] at named
    split at named
    · rename_i new
      rw [new]
      exact List.mem_append_right _ List.mem_cons_self
    · exact List.mem_append_left _ (alone.all handle named)
  only handle mem named has := by
    rw [names] at has
    split at has
    · exact (Option.some.inj has).symm
    · rename_i old
      rcases List.mem_append.mp mem with before | new
      · exact alone.only handle before named has
      · exact absurd (List.mem_singleton.mp new) old
  known handle mem := by
    rw [length]
    rcases List.mem_append.mp mem with before | new
    · have bound := alone.known handle before
      omega
    · rw [List.mem_singleton.mp new]
      omega
  distinct := by
    refine List.nodup_append.mpr ⟨alone.distinct, by simp, fun handle mem new single => ?_⟩
    rw [List.mem_singleton.mp single]
    exact Nat.ne_of_lt (alone.known handle mem)

theorem call (alone : Alone number own p q) {handle : Nat}
    (named : p.storeNumber? handle = some number) (operation : Operation) :
    Alone number own (p.step (.call handle operation)).1
        (q.step (.call (own.idxOf handle) operation)).1 ∧
      (q.step (.call (own.idxOf handle) operation)).2.1 =
        (p.step (.call handle operation)).2.1 := by
  refine ⟨⟨?_, ?_, ?_, ?_, ?_, ?_, alone.distinct⟩, ?_⟩
  · rw [clock_call, clock_call, alone.clock]
  · rw [getElem?_stores_call, if_pos named, step_call, alone.storeNumber?_idxOf named, store?,
      alone.storeNumber?_idxOf named, Option.bind_some, alone.getElem?_stores]
    have stores := alone.stores
    cases held : p.stores[number]? with
    | none =>
      rw [held] at stores
      exact stores
    | some store =>
      rw [held] at stores
      simp only [stores, alone.clock]
      rfl
  · simp only [handles_call, storeNumber?_call, alone.handles]
  · simpa only [storeNumber?_call] using alone.all
  · simpa only [storeNumber?_call] using alone.only
  · simpa only [handles_call] using alone.known
  · rw [shown_call, shown_call, alone.store?_idxOf named, alone.clock]

theorem create (alone : Alone number own p q) (next : p.stores.length = number)
    (interval : SweepInterval) :
    Alone number (own ++ [p.handles.length]) (p.step (.create interval)).1
        (q.step (.create interval)).1 ∧
      (q.step (.create interval)).2.1 = some (.handle own.length) := by
  have absent : p.stores[number]? = none := List.getElem?_eq_none (by omega)
  have none : q.stores = [] := by rw [alone.stores, absent, Option.toList_none]
  refine ⟨alone.openHandle ?_ ?_ ?_ ?_ ?_, ?_⟩
  · exact alone.clock
  · rw [getElem?_stores_create, if_pos next.symm]
    simp only [step, addStore, none, alone.clock]
    rfl
  · simp only [step, addStore, none]
    rfl
  · simp [step, addStore]
  · intro handle
    rw [storeNumber?_create, next]
  · simp only [step, addStore, alone.handles, List.length_map]

theorem clone (alone : Alone number own p q) {handle : Nat}
    (named : p.storeNumber? handle = some number) :
    Alone number (own ++ [p.handles.length]) (p.step (.clone handle)).1
        (q.step (.clone (own.idxOf handle))).1 ∧
      (q.step (.clone (own.idxOf handle))).2.1 = some (.handle own.length) := by
  refine ⟨alone.openHandle ?_ ?_ ?_ ?_ ?_, ?_⟩
  · rw [clock_clone, clock_clone, alone.clock]
  · rw [stores_clone, stores_clone, alone.stores]
  · rw [step_clone, alone.storeNumber?_idxOf named]
  · rw [step_clone, named]
    exact List.length_append
  · intro other
    rw [storeNumber?_clone, named]
  · rw [step_clone, alone.storeNumber?_idxOf named, alone.handles, List.length_map]

/-- A handle is the last one to the store under both its numbers or under neither. -/
theorem drop (alone : Alone number own p q) {handle : Nat}
    (named : p.storeNumber? handle = some number) :
    Alone number own (p.step (.drop handle)).1 (q.step (.drop (own.idxOf handle))).1 := by
  have named' := alone.storeNumber?_idxOf named
  have names (other : Nat) : (p.step (.drop handle)).1.storeNumber? other =
      if other = handle then none else p.storeNumber? other := p.storeNumber?_drop handle other
  have handles : (q.step (.drop (own.idxOf handle))).1.handles =
      own.map fun other => ((p.step (.drop handle)).1.storeNumber? other).map fun _ => 0 := by
    rw [handles_drop, alone.handles, set_idxOf_map alone.distinct (alone.all handle named)]
    refine List.map_congr_left fun other _ => ?_
    rw [names]
    split <;> rfl
  have only (other : Nat) (mem : other ∈ own) (store : Nat)
      (has : (p.step (.drop handle)).1.storeNumber? other = some store) : store = number := by
    rw [names] at has
    split at has
    · cases has
    · exact alone.only other mem store has
  have all (other : Nat) (has : (p.step (.drop handle)).1.storeNumber? other = some number) :
      other ∈ own := by
    rw [names] at has
    split at has
    · cases has
    · exact alone.all other has
  have left : some 0 ∈ q.handles.set (own.idxOf handle) none ↔
      some number ∈ p.handles.set handle none := by
    rw [← handles_drop, ← handles_drop, handles, List.mem_map, mem_handles_iff]
    constructor
    · rintro ⟨other, mem, has⟩
      obtain ⟨store, named, -⟩ := Option.map_eq_some_iff.mp has
      exact ⟨other, only other mem store named ▸ named⟩
    · rintro ⟨other, has⟩
      exact ⟨other, all other has, by rw [has, Option.map_some]⟩
  refine ⟨?_, eq_toList_of_getElem? ?_ fun next => ?_, handles, all, only, ?_, alone.distinct⟩
  · rw [clock_drop, clock_drop, alone.clock]
  · simp only [getElem?_stores_drop, named, named', left, alone.getElem?_stores, true_and]
  · rw [getElem?_stores_drop, if_neg (by simp [named']), alone.stores]
    cases p.stores[number]? <;> rfl
  · simpa only [handles_drop, List.length_set] using alone.known

theorem advance (alone : Alone number own p q) (span : Duration) :
    Alone number own (p.step (.advance span)).1 (q.step (.advance span)).1 := by
  have clock : (q.step (.advance span)).1.clock = (p.step (.advance span)).1.clock := by
    simp only [step, Pool.advance, alone.clock]
  refine ⟨clock, eq_toList_of_getElem? ?_ fun next => ?_, alone.handles, alone.all, alone.only,
    alone.known, alone.distinct⟩
  · simp only [getElem?_stores_advance, alone.getElem?_stores, alone.clock, clockAfter]
  · rw [getElem?_stores_advance, alone.stores]
    cases p.stores[number]? <;> rfl

/-- A step that concerns the store does to it alone what it does to it among
others, and answers alike. -/
theorem of_concerns (alone : Alone number own p q) {step : SessionStep}
    (concerned : p.concerns number step = true) :
    Alone number (own ++ p.opened step) (p.step step).1 (q.step (step.renumber own.idxOf)).1 ∧
      (q.step (step.renumber own.idxOf)).2.1 =
        (p.step step).2.1.map (Answer.renumber (own ++ p.opened step).idxOf) := by
  have fresh : (own ++ [p.handles.length]).idxOf p.handles.length = own.length := by
    have new : p.handles.length ∉ own := fun mem => Nat.lt_irrefl _ (alone.known _ mem)
    rw [List.idxOf_append_of_notMem new, List.idxOf_cons_self]
    rfl
  cases step with
  | call handle operation =>
    obtain ⟨after, told⟩ := alone.call (beq_iff_eq.mp concerned) operation
    rw [opened, List.append_nil, SessionStep.renumber, told, shown_call]
    refine ⟨after, ?_⟩
    cases p.store? handle with
    | none => rfl
    | some store => rw [Option.map_some, Store.renumber_perform]
  | create interval =>
    obtain ⟨after, told⟩ := alone.create (beq_iff_eq.mp concerned) interval
    exact ⟨after, told.trans (by rw [opened, ← fresh]; rfl)⟩
  | clone handle =>
    have named : p.storeNumber? handle = some number := beq_iff_eq.mp concerned
    obtain ⟨after, told⟩ := alone.clone named
    refine ⟨after, told.trans ?_⟩
    rw [step_clone, named, opened, ← fresh]
    rfl
  | drop handle =>
    rw [opened, List.append_nil]
    exact ⟨alone.drop (beq_iff_eq.mp concerned), rfl⟩
  | advance span =>
    rw [opened, List.append_nil]
    exact ⟨alone.advance span, rfl⟩

/-- What a session shows of a store is what the store's own steps show without the others. -/
theorem shownOf_eq (alone : Alone number own p q) (steps : List SessionStep) :
    p.shownOf number own steps =
      (q.shown (p.alone number own steps)).map fun shown => (shown.answer, shown.sizes) := by
  induction steps generalizing own p q with
  | nil => rfl
  | cons first rest ih =>
    rw [shownOf, Pool.alone]
    cases concerned : p.concerns number first with
    | false => exact ih (alone.of_not_concerns concerned)
    | true =>
      obtain ⟨after, told⟩ := alone.of_concerns concerned
      simp only [if_true, shown, List.map_cons, told, after.stores, ih after]

end Alone

end Pool

end ExpiringStore
