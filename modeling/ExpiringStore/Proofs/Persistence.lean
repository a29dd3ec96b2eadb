import ExpiringStore.Proofs.Privacy.Logs

/-!
# What stays until it is written

An entry without a deadline stays under its key, whatever reaches its store through a handle or over
a front-end and however much time passes, until that key is written or removed. Reading clocks in
any order does not change this.
-/
namespace ExpiringStore

def Operation.written? : Operation → Option String
  | .set key _ _ | .delete key => some key
  | .get _ | .list | .sweep | .isEmpty | .state | .stop => none

def Rpc.Call.written? : Call → Option String
  | .set key _ _ | .delete key => some key
  | .get _ | .list => none

def Traffic.call? : Traffic → Option Rpc.Call
  | .call asked => some asked
  | .message target body => Rpc.callOf? target body
  | .request asked => asked.call?
  | .advance _ => none

/-- What may happen to a store, each with the clock reading at which it does: an operation through a
handle, a request over a front-end, or time that passes. -/
inductive Happening where
  | performed (now : Instant) (operation : Operation)
  | served (now : Instant) (traffic : Traffic)
  deriving DecidableEq, Repr

namespace Happening

def written? : Happening → Option String
  | .performed _ operation => operation.written?
  | .served _ traffic => traffic.call?.bind Rpc.Call.written?

/-- What is left of a store. -/
def after (store : Store) : Happening → Store
  | .performed now operation => (store.perform now operation).1
  | .served now traffic => (traffic.serve store now).1

end Happening

theorem Entry.expiredAt_of_lasting {entry : Entry} (lasting : entry.deadline = none)
    (now : Instant) :
    entry.expiredAt now = false := by
  rw [Entry.expiredAt, lasting]

/-- A call leaves a store as it was, or does to it what an operation does
that writes the same key. -/
theorem Rpc.effect_eq_perform (store : Store) (now : Instant) (call? : Option Call) :
    (effect store now call?).1 = store ∨
      ∃ operation : Operation, operation.written? = call?.bind Call.written? ∧
      (effect store now call?).1 = (store.perform now operation).1 := by
  cases call? with
  | none => exact .inl rfl
  | some call =>
    cases call with
    | get key =>
      simp only [effect, handle]
      split
      · exact .inl rfl
      · exact .inr ⟨.get key, rfl, rfl⟩
    | set key value ttlSeconds =>
      simp only [effect, handle]
      split
      · exact .inl rfl
      · split
        · exact .inl rfl
        · exact .inr ⟨.set key value (ttlOfSeconds ttlSeconds), rfl, rfl⟩
    | delete key =>
      simp only [effect, handle]
      split
      · exact .inl rfl
      · exact .inr ⟨.delete key, rfl, rfl⟩
    | list => exact .inl rfl

section

variable {store : Store} {key : String} {entry : Entry} (held : store.table.find? key = some entry)
  (lasting : entry.deadline = none)
include held lasting

theorem Table.find?_withoutExpired_of_lasting (now : Instant) :
    (store.table.withoutExpired now).find? key = some entry := by
  rw [find?_withoutExpired, held, Option.filter_some, Entry.expiredAt_of_lasting lasting]
  rfl

theorem Store.find?_perform_of_lasting (now : Instant) {operation : Operation}
    (others : operation.written? ≠ some key) :
    (store.perform now operation).1.table.find? key = some entry := by
  cases operation with
  | set other value ttl =>
    have differs : key ≠ other := fun same => others (congrArg some same.symm)
    exact (Table.find?_insert _ _ _ _).trans ((if_neg differs).trans held)
  | get other =>
    simp only [perform, get_eq, Table.find?_evictExpired]
    split
    · rename_i same
      rw [← same, held, Option.filter_some, Entry.expiredAt_of_lasting lasting]
      rfl
    · exact held
  | delete other =>
    have differs : key ≠ other := fun same => others (congrArg some same.symm)
    simp only [perform, delete_eq, Table.find?_erase, if_neg differs, held]
  | sweep => exact Table.find?_withoutExpired_of_lasting held lasting now
  | list | isEmpty | state | stop => exact held

theorem Rpc.find?_effect_of_lasting (now : Instant) {call? : Option Call}
    (others : call?.bind Call.written? ≠ some key) :
    (effect store now call?).1.table.find? key = some entry := by
  rcases effect_eq_perform store now call? with same | ⟨operation, writes, does⟩
  · rw [same, held]
  · rw [does]
    exact Store.find?_perform_of_lasting held lasting now (writes ▸ others)

/-- What happens under other keys, and the passing of time, leave an entry without a
deadline where it is. -/
theorem Happening.find?_after {happening : Happening} (others : happening.written? ≠ some key) :
    (happening.after store).table.find? key = some entry := by
  cases happening with
  | performed now operation => exact Store.find?_perform_of_lasting held lasting now others
  | served now traffic =>
    cases traffic with
    | call asked => exact @Rpc.find?_effect_of_lasting _ _ _ held lasting now (some asked) others
    | message target body =>
      have leaves := (Rpc.handleRaw_eq_effect store now target body).1
      exact (congrArg (·.table.find? key) leaves).trans
        (Rpc.find?_effect_of_lasting held lasting now others)
    | request asked =>
      have leaves := (Http.does_handle store now asked).1
      exact (congrArg (·.table.find? key) leaves).trans
        (Rpc.find?_effect_of_lasting held lasting now others)
    | advance span =>
      simp only [after, Traffic.serve, Store.pass_fst]
      split
      · exact Table.find?_withoutExpired_of_lasting held lasting _
      · exact held

theorem Happening.find?_foldl_after {between : List Happening}
    (others : ∀ happening ∈ between, happening.written? ≠ some key) :
    (between.foldl after store).table.find? key = some entry := by
  induction between generalizing store with
  | nil => exact held
  | cons first rest ih =>
    have kept := find?_after held lasting (others first List.mem_cons_self)
    exact ih kept fun happening mem => others happening (List.mem_cons_of_mem _ mem)

end

end ExpiringStore
