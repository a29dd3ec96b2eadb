import ExpiringStore.Proofs.Operations

/-!
# What concerns one key

An act on a store that has to do with the entry under one key: it leaves all other entries alone,
and depends on none of them.
-/
namespace ExpiringStore

/-- The key that an operation has to do with, if it is one key. -/
def Operation.key? : Operation → Option String
  | .set key _ _ | .get key | .delete key => some key
  | .list | .sweep | .isEmpty | .state | .stop => none

/-- What acts on a store through one key: no other entry is touched, and what is answered, and left
under the key, depends on the entry under it only. -/
structure Concerns {α : Type} (key : String) (act : Store → Store × α) : Prop where
  sweeper : ∀ store, (act store).1.sweeper = store.sweeper
  elsewhere : ∀ store other, other ≠ key → (act store).1.table.find? other = store.table.find? other
  here : ∀ store store', store.table.find? key = store'.table.find? key →
    (act store).1.table.find? key = (act store').1.table.find? key ∧ (act store).2 = (act store').2

namespace Concerns

variable {α β : Type} {key : String}

/-- Whatever leaves the store as it is and does not look at it. -/
theorem const (answer : α) : Concerns key fun store => (store, answer) where
  sweeper _ := rfl
  elsewhere _ _ _ := rfl
  here _ _ same := ⟨same, rfl⟩

/-- What is made of an answer. -/
theorem map {act : Store → Store × α} (concerns : Concerns key act) (f : α → β) :
    Concerns key fun store => ((act store).1, f (act store).2) where
  sweeper := concerns.sweeper
  elsewhere := concerns.elsewhere
  here store store' same :=
    ⟨(concerns.here store store' same).1, congrArg f (concerns.here store store' same).2⟩

theorem congr {act act' : Store → Store × α} (concerns : Concerns key act)
    (same : ∀ store, act store = act' store) :
    Concerns key act' := by
  rwa [← funext same]

theorem get (now : Instant) : Concerns key fun store => store.get key now where
  sweeper store := by rw [Store.get_eq]
  elsewhere store other differs := by
    rw [Store.get_eq]
    exact (Table.find?_evictExpired _ _ _ _).trans (if_neg differs)
  here store store' same := by
    simp only [Store.get_eq, Table.find?_evictExpired, Table.live?, same, if_true, and_self]

theorem delete (now : Instant) : Concerns key fun store => store.delete key now where
  sweeper store := by rw [Store.delete_eq]
  elsewhere store other differs := by
    rw [Store.delete_eq]
    exact (Table.find?_erase _ _ _).trans (if_neg differs)
  here store store' same := by
    simp only [Store.delete_eq, Table.find?_erase, Table.live?, same, if_true, and_self]

theorem set (value : String) (ttl : Option Duration) (now : Instant) (answer : α) :
    Concerns key fun store => (store.set key value ttl now, answer) where
  sweeper _ := rfl
  elsewhere store other differs := (Table.find?_insert _ _ _ _).trans (if_neg differs)
  here store store' same := by
    simp only [Store.set, Table.find?_insert, if_true, and_self]

/-- An operation on a key concerns that key. -/
theorem perform {operation : Operation} (on : operation.key? = some key) (now : Instant) :
    Concerns key fun store => store.perform now operation := by
  cases operation with
  | set name value ttl =>
    obtain rfl : name = key := Option.some.inj on
    exact .set value ttl now _
  | get name =>
    obtain rfl : name = key := Option.some.inj on
    exact (Concerns.get now).map fun found => (Answer.value found, ([] : List Event))
  | delete name =>
    obtain rfl : name = key := Option.some.inj on
    exact (Concerns.delete now).map fun wasLive => (Answer.deleted wasLive, ([] : List Event))
  | list | sweep | isEmpty | state | stop => cases on

end Concerns

end ExpiringStore
