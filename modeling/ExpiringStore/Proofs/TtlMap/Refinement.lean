import ExpiringStore.Proofs.TtlMap.Simulation

/-!
# Sweeps cannot be seen

A run on one store, through any of its handles, mixes requests with sweeps, stops, new handles and
time that passes. Its replies are those of the map with times to live to the requests alone.
-/
namespace ExpiringStore

namespace Operation

/-- The request that an operation is, unless it is none that the map knows. -/
def request? : Operation → Option TtlMap.Request
  | .set key value ttl => some (.set key value ttl)
  | .get key => some (.get key)
  | .delete key => some (.delete key)
  | .list => some .list
  | .sweep | .isEmpty | .state | .stop => none

end Operation

namespace Answer

/-- The answer to a read, a deletion or a listing as a reply of the map. -/
def reply? : Answer → Option TtlMap.Reply
  | .value found => some (.value found)
  | .deleted wasLive => some (.deleted wasLive)
  | .keys listed => some (.keys listed.toFinset)
  | .done | .removed _ | .empty _ | .state _ | .handle _ => none

end Answer

/-- What may happen in a run. The sweep loop gets its turn whenever it likes, and the clock may also
move without waking it. -/
inductive Move where
  | call (handle : Nat) (operation : Operation)
  | clone (handle : Nat)
  | backgroundSweep (handle : Nat)
  | advance (span : Duration)
  | wait (reading : Instant)
  deriving DecidableEq, Repr

namespace Move

def handle? : Move → Option Nat
  | .call handle _ | .clone handle | .backgroundSweep handle => some handle
  | .advance _ | .wait _ => none

def newHandles : Move → Nat
  | .clone _ => 1
  | .call _ _ | .backgroundSweep _ | .advance _ | .wait _ => 0

/-- The clock after a move. It never goes back. -/
def clockAfter (now : Instant) : Move → Instant
  | .advance span => (now.after? span).getD Instant.last
  | .wait reading => if now.atOrBefore reading then reading else now
  | .call _ _ | .clone _ | .backgroundSweep _ => now

def request? : Move → Option TtlMap.Request
  | .call _ operation => operation.request?
  | .clone _ | .backgroundSweep _ | .advance _ | .wait _ => none

/-- Moves that go only through handles handed out before, `handles` of them at the start. -/
def Reach (handles : Nat) : List Move → Prop
  | [] => True
  | move :: rest =>
    (∀ handle ∈ move.handle?, handle < handles) ∧ Reach (handles + move.newHandles) rest

instance : (handles : Nat) → (moves : List Move) → Decidable (Reach handles moves)
  | _, [] => isTrue trivial
  | handles, move :: rest =>
    have : Decidable (Reach (handles + move.newHandles) rest) := instDecidableReach _ rest
    inferInstanceAs (Decidable (_ ∧ _))

/-- The requests among moves, each with the clock reading at which it is made. -/
def requests (now : Instant) : List Move → List (Instant × TtlMap.Request)
  | [] => []
  | move :: rest =>
    (move.request?.map fun request => (now, request)).toList ++ requests (move.clockAfter now) rest

end Move

namespace Pool

def move (p : Pool) : Move → Pool × Option Answer
  | .call handle operation => ((p.call handle operation).1, (p.call handle operation).2.1)
  | .clone handle => ((p.step (.clone handle)).1, (p.step (.clone handle)).2.1)
  | .backgroundSweep handle =>
    match p.withStore? handle fun store => store.backgroundSweep p.clock with
    | some (after, _) => (after, none)
    | none => (p, none)
  | .advance span => ((p.advance span).1, none)
  | .wait reading =>
    ({ p with clock := if p.clock.atOrBefore reading then reading else p.clock }, none)

def answers (p : Pool) : List Move → List Answer
  | [] => []
  | move :: rest => (p.move move).2.toList ++ (p.move move).1.answers rest

end Pool

namespace TtlMap

def serve? (m : TtlMap) (now : Instant) : Option Request → TtlMap × Option Reply
  | none => (m, none)
  | some request => m.serve now request

theorem replies_append (m : TtlMap) (now : Instant) (request? : Option Request)
    (rest : List (Instant × Request)) :
    m.replies ((request?.map fun request => (now, request)).toList ++ rest) =
      (m.serve? now request?).2.toList ++ (m.serve? now request?).1.replies rest := by
  cases request? <;> rfl

end TtlMap

namespace Represents

variable {now : Instant} {s : Store} {m : TtlMap}

/-- An operation on a store is the request on the map, or nothing at all. -/
theorem perform (holds : Represents now s.table m) (operation : Operation) :
    Represents now (s.perform now operation).1.table (m.serve? now operation.request?).1 ∧
      (s.perform now operation).2.1.reply? = (m.serve? now operation.request?).2 := by
  cases operation with
  | set key value ttl =>
    refine ⟨?_, rfl⟩
    have stored := holds.insert key (Entry.withTtl value ttl now)
    rwa [Entry.timed_withTtl] at stored
  | get key =>
    simp only [Store.perform, Store.get_eq, Operation.request?, TtlMap.serve?, TtlMap.serve,
      Answer.reply?]
    exact ⟨holds.evictExpired key, by rw [holds.value_live?]⟩
  | delete key =>
    simp only [Store.perform, Store.delete_eq, Operation.request?, TtlMap.serve?, TtlMap.serve,
      Answer.reply?]
    exact ⟨holds.erase key, by rw [holds.isSome_live?]⟩
  | list =>
    refine ⟨holds, ?_⟩
    simp only [Store.perform, Operation.request?, TtlMap.serve?, TtlMap.serve, Answer.reply?,
      Store.list, holds.toFinset_liveKeys]
  | sweep => exact ⟨holds.withoutExpired, rfl⟩
  | isEmpty => exact ⟨holds, rfl⟩
  | state => exact ⟨holds, rfl⟩
  | stop => exact ⟨holds, rfl⟩

/-- Whether or not the timer wakes the sweep loop, the later reading is represented. -/
theorem pass {later : Instant} (holds : Represents now s.table m)
    (order : now.toNanos ≤ later.toNanos) : Represents later (s.pass now later).1.table m := by
  have kept := holds.mono order
  rw [Store.pass_fst]
  split
  · exact kept.withoutExpired
  · exact kept

end Represents

theorem Store.nodup_of_perform_keys {s : Store} {now : Instant} {operation : Operation}
    {listed : List String} (told : (s.perform now operation).2.1 = .keys listed) :
    listed.Nodup := by
  cases operation with
  | list =>
    obtain rfl := Answer.keys.inj told
    exact Table.nodup_liveKeys s.table now
  | set | get | delete | sweep | isEmpty | state | stop => cases told

/-- A pool of one store and this many handles, all to that store. -/
structure Pool.Sole (p : Pool) (store : Store) (handles : Nat) : Prop where
  stores : p.stores = [store]
  handles : p.handles = List.replicate handles (some 0)

namespace Pool.Sole

variable {p : Pool} {store : Store} {handles handle : Nat}

theorem storeNumber? (sole : p.Sole store handles) (given : handle < handles) :
    p.storeNumber? handle = some 0 := by
  simp [Pool.storeNumber?, sole.handles, given]

theorem withStore? {α : Type} (sole : p.Sole store handles) (given : handle < handles)
    (operation : Store → Store × α) :
    p.withStore? handle operation =
      some ({ p with stores := [(operation store).1] }, (operation store).2) := by
  simp [Pool.withStore?, sole.storeNumber? given, sole.stores]

theorem addStore (interval : SweepInterval) (start : Instant) :
    ((Pool.onClock start).addStore interval).1.Sole (Store.create interval start).1 1 :=
  ⟨rfl, rfl⟩

/-- One move keeps the store in step with the map and answers as the map does. -/
theorem move {m : TtlMap} (sole : p.Sole store handles) (holds : Represents p.clock store.table m)
    (move : Move) (reach : ∀ handle ∈ move.handle?, handle < handles) :
    (∃ after, (p.move move).1.Sole after (handles + move.newHandles) ∧
      Represents (p.move move).1.clock after.table (m.serve? p.clock move.request?).1) ∧
    (p.move move).1.clock = move.clockAfter p.clock ∧
    (p.move move).2.bind Answer.reply? = (m.serve? p.clock move.request?).2 ∧
    ∀ listed, (p.move move).2 = some (.keys listed) → listed.Nodup := by
  cases move with
  | call handle operation =>
    have called := sole.withStore? (reach handle rfl) fun store => store.perform p.clock operation
    obtain ⟨kept, replied⟩ := holds.perform operation
    simp only [Pool.move, Pool.call, called]
    refine ⟨⟨_, ⟨rfl, sole.handles⟩, kept⟩, rfl, replied, fun listed told => ?_⟩
    exact Store.nodup_of_perform_keys (Option.some.inj told)
  | clone handle =>
    simp only [Pool.move, Pool.step, Pool.clone?, sole.storeNumber? (reach handle rfl),
      Option.map_some]
    refine ⟨⟨store, ⟨sole.stores, ?_⟩, holds⟩, rfl, rfl, fun listed told => by cases told⟩
    rw [sole.handles]
    exact List.replicate_succ'.symm
  | backgroundSweep handle =>
    have swept := sole.withStore? (reach handle rfl) fun store => store.backgroundSweep p.clock
    simp only [Pool.move, swept]
    exact ⟨⟨_, ⟨rfl, sole.handles⟩, holds.withoutExpired⟩, rfl, rfl,
      fun listed told => by cases told⟩
  | advance span =>
    have passed := holds.pass (p.clock.toNanos_le_getD_after? span)
    refine ⟨⟨_, ⟨?_, sole.handles⟩, passed⟩, rfl, rfl, fun listed told => by cases told⟩
    simp [Pool.move, Pool.advance, sole.stores]
  | wait reading =>
    refine ⟨⟨store, ⟨sole.stores, sole.handles⟩, ?_⟩, rfl, rfl, fun listed told => by cases told⟩
    simp only [Pool.move]
    split
    · rename_i later
      exact holds.mono (Instant.atOrBefore_iff.mp later)
    · exact holds

/-- A run replies as the map does to its requests, and lists no key twice. -/
theorem replies_answers {m : TtlMap} (sole : p.Sole store handles)
    (holds : Represents p.clock store.table m) (moves : List Move)
    (reach : Move.Reach handles moves) :
    (p.answers moves).filterMap Answer.reply? = m.replies (Move.requests p.clock moves) ∧
      ∀ listed, .keys listed ∈ p.answers moves → listed.Nodup := by
  induction moves generalizing p store handles m with
  | nil => exact ⟨rfl, fun listed told => by cases told⟩
  | cons first rest ih =>
    obtain ⟨⟨after, soleAfter, kept⟩, clock, replied, distinct⟩ := sole.move holds first reach.1
    obtain ⟨repliedRest, distinctRest⟩ := ih soleAfter kept reach.2
    constructor
    · rw [Pool.answers, Move.requests, TtlMap.replies_append, List.filterMap_append,
        repliedRest, clock, ← replied]
      cases (p.move first).2 <;> rfl
    · intro listed told
      rw [Pool.answers, List.mem_append] at told
      rcases told with now | later
      · exact distinct listed (Option.mem_toList.mp now)
      · exact distinctRest listed later

end Pool.Sole

/-- Whatever moves are made through the handles of a new store, its answers to reads, deletions and
listings are the replies of the map with times to live to the requests among them. So two runs that
make the same requests at the same clock readings are answered alike, however their sweeps, stops,
handles and clock movements differ. -/
theorem answers_eq_replies (interval : SweepInterval) (start : Instant) (moves : List Move)
    (reach : Move.Reach 1 moves) :
    let run := fun interval start => ((Pool.onClock start).addStore interval).1.answers
    (run interval start moves).filterMap Answer.reply? =
        TtlMap.replies ∅ (Move.requests start moves) ∧
      (∀ listed, .keys listed ∈ run interval start moves → listed.Nodup) ∧
      ∀ interval' start' others, Move.Reach 1 others →
        Move.requests start' others = Move.requests start moves →
        (run interval' start' others).filterMap Answer.reply? =
          (run interval start moves).filterMap Answer.reply? := by
  have follows := fun interval start =>
    Pool.Sole.replies_answers (Pool.Sole.addStore interval start) (Represents.empty start)
  obtain ⟨replied, distinct⟩ := follows interval start moves reach
  refine ⟨replied, distinct, fun interval' start' others reachOthers same => ?_⟩
  exact (follows interval' start' others reachOthers).1.trans (same ▸ replied.symm)

/-- A key read before its deadline through a second handle, then at it, with sweeps of both kinds
and a stop in between. -/
def Move.aroundDeadline (before : Duration) (deadline : Instant) : List Move :=
  [.call 0 (.set "k" "v" (some (Duration.ofSeconds 2))), .clone 0, .call 0 (.set "l" "w" none),
    .advance before, .backgroundSweep 1, .call 1 (.get "k"), .wait deadline, .call 0 .stop,
    .call 1 .list, .call 0 .sweep, .call 1 (.get "k"), .call 0 (.delete "l")]

theorem answers_eq_replies_aroundDeadline :
    let moves := Move.aroundDeadline ⟨1, 999999999⟩ ⟨3, 0⟩
    Move.Reach 1 moves ∧
      (((Pool.onClock ⟨1, 0⟩).addStore SweepInterval.standard).1.answers moves).filterMap
          Answer.reply? = TtlMap.replies ∅ (Move.requests ⟨1, 0⟩ moves) ∧
      TtlMap.replies ∅ (Move.requests ⟨1, 0⟩ moves) =
        [.value (some "v"), .keys {"l"}, .value none, .deleted true] := by
  intro moves
  have reach : Move.Reach 1 moves := by decide
  have replied := (answers_eq_replies SweepInterval.standard ⟨1, 0⟩ _ reach).1
  refine ⟨reach, replied, ?_⟩
  rw [← replied]
  decide

end ExpiringStore
