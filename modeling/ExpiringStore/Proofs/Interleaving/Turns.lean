import ExpiringStore.Proofs.Interleaving.Phases

/-!
# Turns in a row

What one turn of the clock or of a caller keeps, and from it a run of any number of turns. A call
that is not interrupted is the store's operation.
-/
namespace ExpiringStore

namespace Shared

variable {s next : Shared} {turn : Turn} {caller : Nat}

theorem place_self (s : Shared) (caller : Nat) (phase : Phase) :
    (s.place caller phase).callers caller = phase := if_pos rfl

theorem place_other (s : Shared) {caller other : Nat} (phase : Phase) (differs : other ≠ caller) :
    (s.place caller phase).callers other = s.callers other := if_neg differs

/-- What a turn can be: the clock moves on, a call begins, or a section runs. -/
theorem step_cases (stepped : s.step turn = some next) :
    (∃ reading, turn = .tick reading ∧ s.clock.toNanos ≤ reading.toNanos ∧
      next = { s with clock := reading }) ∨
    (∃ caller call, turn = .enter caller call ∧ next = s.place caller call.phase) ∨
    ∃ caller table phase, turn = .proceed caller ∧
      (s.callers caller).run s.clock s.table = some (table, phase) ∧
      next = { s with table := table }.place caller phase := by
  cases turn with
  | tick reading =>
    simp only [step] at stepped
    split at stepped
    · rename_i later
      exact .inl ⟨reading, rfl, Instant.atOrBefore_iff.mp later, (Option.some.inj stepped).symm⟩
    · cases stepped
  | enter caller call =>
    simp only [step] at stepped
    split at stepped
    · exact .inr (.inl ⟨caller, call, rfl, (Option.some.inj stepped).symm⟩)
    · cases stepped
  | proceed caller =>
    obtain ⟨⟨table, phase⟩, ran, rfl⟩ := Option.map_eq_some_iff.mp stepped
    exact .inr (.inr ⟨caller, table, phase, rfl, ran, rfl⟩)

theorem clock_le_of_step (stepped : s.step turn = some next) :
    s.clock.toNanos ≤ next.clock.toNanos := by
  rcases step_cases stepped with ⟨reading, -, later, rfl⟩ | ⟨caller, call, -, rfl⟩ |
    ⟨caller, table, phase, -, -, rfl⟩
  · exact later
  · exact Int.le_refl _
  · exact Int.le_refl _

/-- A turn of one caller leaves the others where they are. -/
theorem callers_of_step (stepped : s.step turn = some next) (others : turn.caller? ≠ some caller) :
    next.callers caller = s.callers caller := by
  rcases step_cases stepped with ⟨reading, rfl, -, rfl⟩ | ⟨mover, call, rfl, rfl⟩ |
    ⟨mover, table, phase, rfl, -, rfl⟩
  · rfl
  · exact place_other _ _ fun same => others (congrArg some same.symm)
  · exact place_other _ _ fun same => others (congrArg some same.symm)

/-- No caller holds a clock reading that is ahead of the clock. -/
def Punctual (s : Shared) : Prop := ∀ caller, (s.callers caller).Punctual s.clock

theorem Punctual.place (punctual : s.Punctual) {phase : Phase} (here : phase.Punctual s.clock) :
    (s.place caller phase).Punctual := by
  intro other
  by_cases same : other = caller
  · rw [same, place_self]
    exact here
  · rw [place_other s phase same]
    exact punctual other

theorem Punctual.step (punctual : s.Punctual) (stepped : s.step turn = some next) :
    next.Punctual := by
  rcases step_cases stepped with ⟨reading, -, later, rfl⟩ | ⟨mover, call, -, rfl⟩ |
    ⟨mover, table, phase, -, ran, rfl⟩
  · exact fun caller => (punctual caller).mono later
  · exact punctual.place (Phase.punctual_phase call s.clock)
  · exact Punctual.place (s := { s with table := table }) punctual (Phase.punctual_of_run ran)

/-- What a turn does to an entry. -/
theorem find?_of_step (punctual : s.Punctual) (stepped : s.step turn = some next) {key : String}
    {entry : Entry} (held : s.table.find? key = some entry) :
    next.table.find? key = some entry ∨ ∃ caller, turn = .proceed caller ∧
      ((s.callers caller).Reclaims key ∧ entry.expiredAt s.clock = true ∨
        (s.callers caller).Writes key) := by
  rcases step_cases stepped with ⟨reading, -, -, rfl⟩ | ⟨mover, call, -, rfl⟩ |
    ⟨mover, table, phase, rfl, ran, rfl⟩
  · exact .inl held
  · exact .inl held
  · rcases Phase.find?_of_run (punctual mover) ran held with kept | lost
    · exact .inl kept
    · exact .inr ⟨mover, rfl, lost⟩

theorem run_cons (s : Shared) (turn : Turn) (rest : List Turn) :
    s.run (turn :: rest) = (s.step turn).bind fun next => next.run rest := rfl

theorem run_append (s : Shared) (first rest : List Turn) :
    s.run (first ++ rest) = (s.run first).bind fun mid => mid.run rest := by
  simp [run, List.foldlM_append]

theorem Punctual.run (punctual : s.Punctual) {turns : List Turn} (ran : s.run turns = some next) :
    next.Punctual := by
  induction turns generalizing s with
  | nil => exact Option.some.inj ran ▸ punctual
  | cons turn rest ih =>
    rw [run_cons] at ran
    obtain ⟨mid, stepped, ran⟩ := Option.bind_eq_some_iff.mp ran
    exact ih (punctual.step stepped) ran

theorem clock_le_of_run {turns : List Turn} (ran : s.run turns = some next) :
    s.clock.toNanos ≤ next.clock.toNanos := by
  induction turns generalizing s with
  | nil => exact Option.some.inj ran ▸ Int.le_refl _
  | cons turn rest ih =>
    rw [run_cons] at ran
    obtain ⟨mid, stepped, ran⟩ := Option.bind_eq_some_iff.mp ran
    exact Int.le_trans (clock_le_of_step stepped) (ih ran)

/-- Somewhere in a run the section of a call deletes or writes `key`. -/
def WrittenIn (s : Shared) (turns : List Turn) (key : String) : Prop :=
  ∃ before caller rest mid, turns = before ++ .proceed caller :: rest ∧
    s.run before = some mid ∧ (mid.callers caller).Writes key

theorem WrittenIn.cons {turns : List Turn} {key : String} (written : next.WrittenIn turns key)
    (stepped : s.step turn = some next) : s.WrittenIn (turn :: turns) key := by
  obtain ⟨before, caller, rest, mid, rfl, ran, writes⟩ := written
  refine ⟨turn :: before, caller, rest, mid, rfl, ?_, writes⟩
  rw [run_cons, stepped]
  exact ran

/-- An entry that has still not expired at the end of a run is still there, unless its key was
deleted or written on the way. -/
theorem find?_of_run (punctual : s.Punctual) {turns : List Turn} (ran : s.run turns = some next)
    {key : String} {entry : Entry} (held : s.table.find? key = some entry)
    (live : entry.expiredAt next.clock = false) :
    next.table.find? key = some entry ∨ s.WrittenIn turns key := by
  induction turns generalizing s with
  | nil => exact .inl (Option.some.inj ran ▸ held)
  | cons turn rest ih =>
    have wholeRun := clock_le_of_run ran
    rw [run_cons] at ran
    obtain ⟨mid, stepped, ran⟩ := Option.bind_eq_some_iff.mp ran
    rcases find?_of_step punctual stepped held with kept | ⟨caller, rfl, ⟨-, expired⟩ | writes⟩
    · exact (ih (punctual.step stepped) ran kept).imp_right fun written => written.cons stepped
    · rw [Entry.expiredAt_mono expired wholeRun] at live
      cases live
    · exact .inr ⟨[], caller, rest, s, rfl, rfl, writes⟩

theorem run_proceed {phase arrived : Phase} {table : Table}
    (ran : phase.run s.clock s.table = some (table, arrived)) (more : Nat) :
    (s.place caller phase).run (List.replicate (more + 1) (.proceed caller)) =
      ({ s with table := table }.place caller arrived).run
        (List.replicate more (.proceed caller)) := by
  have moved : (s.place caller phase).step (.proceed caller) =
      some ({ s with table := table }.place caller arrived) := by
    have here : ((s.place caller phase).callers caller).run s.clock s.table =
        some (table, arrived) := by
      rw [place_self, ran]
    simp only [step]
    rw [show (s.place caller phase).clock = s.clock from rfl,
      show (s.place caller phase).table = s.table from rfl, here]
    refine congrArg some (congrArg (Shared.mk s.clock table) (funext fun other => ?_))
    by_cases same : other = caller <;> simp [place, same]
  rw [List.replicate_succ, run_cons, moved, Option.bind_some]

/-- A call whose sections are run in a row is the store's operation. -/
theorem run_alone (store : Store) (held : s.table = store.table)
    (free : (s.callers caller).free = true) (call : TableCall) :
    ∃ sections, s.run (.enter caller call :: List.replicate sections (.proceed caller)) =
      some ({ s with table := (store.perform s.clock call.operation).1.table }.place caller
        (.answered (store.perform s.clock call.operation).2.1)) := by
  have enters (sections : Nat) :
      s.run (.enter caller call :: List.replicate sections (.proceed caller)) =
        (s.place caller call.phase).run (List.replicate sections (.proceed caller)) := by
    rw [run_cons, step, if_pos free, Option.bind_some]
  cases call with
  | get key =>
    cases found : s.table.lookup key s.clock with
    | missing =>
      have looked : (Phase.getLookup key s.clock).run s.clock s.table =
          some (s.table, .answered (.value none)) := by simp only [Phase.run, found]
      refine ⟨2, ?_⟩
      rw [enters, TableCall.phase, run_proceed rfl, run_proceed looked]
      simp [TableCall.operation, Store.perform, Store.get, ← held, found, run]
    | live value =>
      have looked : (Phase.getLookup key s.clock).run s.clock s.table =
          some (s.table, .answered (.value (some value))) := by simp only [Phase.run, found]
      refine ⟨2, ?_⟩
      rw [enters, TableCall.phase, run_proceed rfl, run_proceed looked]
      simp [TableCall.operation, Store.perform, Store.get, ← held, found, run]
    | expired =>
      have looked : (Phase.getLookup key s.clock).run s.clock s.table =
          some (s.table, .getEviction key) := by simp only [Phase.run, found]
      refine ⟨3, ?_⟩
      rw [enters, TableCall.phase, run_proceed rfl, run_proceed looked, run_proceed rfl]
      simp [TableCall.operation, Store.perform, Store.get, ← held, found, run]
  | set key value ttl =>
    refine ⟨2, ?_⟩
    rw [enters, TableCall.phase, run_proceed rfl, run_proceed rfl]
    simp [TableCall.operation, Store.perform, Store.set, ← held, run]
  | delete key =>
    cases found : s.table.find? key with
    | none =>
      have removed : (Phase.deleteRemoval key).run s.clock s.table =
          some (s.table.erase key, .answered (.deleted false)) := by
        simp only [Phase.run, Table.remove, found]
      refine ⟨1, ?_⟩
      rw [enters, TableCall.phase, run_proceed removed]
      simp [TableCall.operation, Store.perform, Store.delete, Table.remove, ← held, found, run]
    | some entry =>
      have removed : (Phase.deleteRemoval key).run s.clock s.table =
          some (s.table.erase key, .deleteReading entry) := by
        simp only [Phase.run, Table.remove, found]
      refine ⟨2, ?_⟩
      rw [enters, TableCall.phase, run_proceed removed, run_proceed rfl]
      simp [TableCall.operation, Store.perform, Store.delete, Table.remove, ← held, found, run]
  | list =>
    refine ⟨1, ?_⟩
    rw [enters, TableCall.phase, run_proceed rfl]
    simp [TableCall.operation, Store.perform, Store.list, ← held, run]
  | sweep =>
    refine ⟨2, ?_⟩
    rw [enters, TableCall.phase, run_proceed rfl, run_proceed rfl]
    simp [TableCall.operation, Store.perform, Store.sweep, Table.sweep, ← held, run]

end Shared

end ExpiringStore
