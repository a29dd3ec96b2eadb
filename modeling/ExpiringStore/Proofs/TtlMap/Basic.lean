import Mathlib.Data.Finmap
import ExpiringStore.Time

/-!
# A map with times to live

The store as its clients may think of it: a finite map in which nothing is ever swept. A pair stays
until its key is deleted or written again, and whether it counts is asked only when it is looked at.
-/
namespace ExpiringStore

/-- A value and the moment, in nanoseconds, from which it no longer counts, if there is one. -/
structure TimedValue where
  value : String
  deadline : Option Int
  deriving DecidableEq

namespace TimedValue

/-- A value counts until its deadline, which is excluded. -/
def LiveAt (v : TimedValue) (now : Instant) : Prop :=
  ∀ deadline ∈ v.deadline, now.toNanos < deadline

instance (v : TimedValue) (now : Instant) : Decidable (v.LiveAt now) :=
  match h : v.deadline with
  | none => isTrue fun deadline has => by simp [h] at has
  | some deadline =>
    decidable_of_iff (now.toNanos < deadline) (by simp [LiveAt, h])

/-- The moment `ttl` after `now`. There is none without a time to live, for one of no length, and
for a sum that no clock will ever read. -/
def deadlineAfter (now : Instant) : Option Duration → Option Int
  | none => none
  | some ttl =>
    let sum := now.toNanos + ttl.toNanos
    if ttl.toNanos = 0 ∨ Instant.last.toNanos < sum then none else some sum

end TimedValue

abbrev TtlMap := Finmap fun _ : String => TimedValue

namespace TtlMap

/-- What clients ask for. -/
inductive Request where
  | set (key value : String) (ttl : Option Duration)
  | get (key : String)
  | delete (key : String)
  | list
  deriving DecidableEq, Repr

/-- What clients are told. A list of keys has no order and no duplicates. -/
inductive Reply where
  | value (found : Option String)
  | deleted (wasLive : Bool)
  | keys (live : Finset String)
  deriving DecidableEq

def live? (m : TtlMap) (now : Instant) (key : String) : Option TimedValue :=
  (m.lookup key).filter fun pair => pair.LiveAt now

def serve (m : TtlMap) (now : Instant) : Request → TtlMap × Option Reply
  | .set key value ttl => (m.insert key ⟨value, TimedValue.deadlineAfter now ttl⟩, none)
  | .get key => (m, some (.value ((m.live? now key).map TimedValue.value)))
  | .delete key => (m.erase key, some (.deleted (m.live? now key).isSome))
  | .list => (m, some (.keys (m.keys.filter fun key => (m.live? now key).isSome)))

/-- The replies to requests that are made one after the other, each with its clock reading. -/
def replies (m : TtlMap) : List (Instant × Request) → List Reply
  | [] => []
  | (now, request) :: rest =>
    let (after, reply) := m.serve now request
    reply.toList ++ after.replies rest

end TtlMap

end ExpiringStore
