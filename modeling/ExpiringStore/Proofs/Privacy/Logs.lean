import ExpiringStore.Proofs.Privacy.Calls

/-!
# What the log tells

The log of a store under any traffic tells of keys no more than the start that a line shows,
and nothing of values: traffic that differs in nothing else leaves the same log, down to the
counts of background sweeps.
-/
namespace ExpiringStore

namespace Rpc

/-- Calls that differ by a renaming of keys and by values that are all within the
limit or all over it. -/
inductive Call.Renamed (ρ : KeyRenaming) : Call → Call → Prop
  | get (key : String) : Renamed ρ (.get key) (.get (ρ key))
  | set (key : String) {value other : String} (ttlSeconds : Int64)
    (limit : value.utf8ByteSize ≤ maxValueBytes ↔ other.utf8ByteSize ≤ maxValueBytes) :
    Renamed ρ (.set key value ttlSeconds) (.set (ρ key) other ttlSeconds)
  | delete (key : String) : Renamed ρ (.delete key) (.delete (ρ key))
  | list : Renamed ρ .list .list

/-- What two clients ask for is alike: calls that differ by a renaming, or nothing that
is within the limits. -/
inductive Alike (ρ : KeyRenaming) : Option Call → Option Call → Prop
  | made {call other : Call} (renamed : call.Renamed ρ other) : Alike ρ (some call) (some other)
  | refused {call? other? : Option Call} (inadmissible : ∀ call ∈ call?, ¬call.Admissible)
    (inadmissible' : ∀ call ∈ other?, ¬call.Admissible) : Alike ρ call? other?

theorem checkValue_congr {value other : String}
    (limit : value.utf8ByteSize ≤ maxValueBytes ↔ other.utf8ByteSize ≤ maxValueBytes) :
    checkValue value = checkValue other := by
  by_cases tooLong : maxValueBytes < value.utf8ByteSize
  · have tooLong' := Nat.lt_of_not_le (mt limit.mpr (Nat.not_le.mpr tooLong))
    rw [checkValue, checkValue, if_pos tooLong, if_pos tooLong']
  · have within := Nat.not_lt.mpr (limit.mp (Nat.le_of_not_lt tooLong))
    rw [checkValue, checkValue, if_neg tooLong, if_neg within]

/-- Renamed calls leave renamed stores renamed and log the same. -/
theorem effect_renamed {ρ : KeyRenaming} {call other : Call} (renamed : call.Renamed ρ other)
    {s u : Store} (stores : s.Renamed ρ u) (now : Instant) :
    (effect s now (some call)).1.Renamed ρ (effect u now (some other)).1 ∧
      (effect s now (some call)).2 = (effect u now (some other)).2 := by
  cases renamed with
  | get key =>
    simp only [effect, handle, ρ.checkKey_rename]
    split
    · exact ⟨stores, rfl⟩
    · exact ⟨stores.get key now, by rw [ρ.logKey_rename]⟩
  | @set key value other ttlSeconds limit =>
    simp only [effect, handle, ρ.checkKey_rename, checkValue_congr limit]
    split
    · exact ⟨stores, rfl⟩
    · split
      · exact ⟨stores, rfl⟩
      · exact ⟨stores.set key value other _ now, by rw [ρ.logKey_rename]⟩
  | delete key =>
    simp only [effect, handle, ρ.checkKey_rename]
    split
    · exact ⟨stores, rfl⟩
    · exact ⟨stores.delete key now, by rw [ρ.logKey_rename]⟩
  | list => exact ⟨stores, rfl⟩

theorem effect_alike {ρ : KeyRenaming} {call? other? : Option Call} (alike : Alike ρ call? other?)
    {s u : Store} (stores : s.Renamed ρ u) (now : Instant) :
    (effect s now call?).1.Renamed ρ (effect u now other?).1 ∧
      (effect s now call?).2 = (effect u now other?).2 := by
  cases alike with
  | made renamed => exact effect_renamed renamed stores now
  | refused inadmissible inadmissible' =>
    rw [effect_of_inadmissible s now inadmissible, effect_of_inadmissible u now inadmissible']
    exact ⟨stores, rfl⟩

end Rpc

/-- What reaches a store: a remote call or the bytes of one, a request over
HTTP, or time that passes. -/
inductive Traffic where
  | call (call : Rpc.Call)
  | message (target : String) (body : Bytes)
  | request (request : Http.Request)
  | advance (span : Duration)
  deriving DecidableEq, Repr

namespace Traffic

/-- What becomes of a store and the clock, and what is logged. -/
def serve (store : Store) (now : Instant) : Traffic → Store × Instant × List Event
  | .call asked =>
    let (after, _, events) := Rpc.handle store now asked
    (after, now, events)
  | .message target body =>
    let (after, _, events) := Rpc.handleRaw store now target body
    (after, now, events)
  | .request asked =>
    let (after, _, events) := Http.handle store now asked
    (after, now, events)
  | .advance span =>
    let later := (now.after? span).getD Instant.last
    let (after, events) := store.pass now later
    (after, later, events)

def logFrom (store : Store) (now : Instant) : List Traffic → List Event
  | [] => []
  | first :: rest =>
    let (after, later, events) := first.serve store now
    events ++ logFrom after later rest

/-- What a new store logs, its creation included. -/
def log (interval : SweepInterval) (start : Instant) (traffic : List Traffic) : List Event :=
  let (store, events) := Store.create interval start
  events ++ logFrom store start traffic

/-- Traffic of one kind that asks alike. -/
inductive Renamed (ρ : KeyRenaming) : Traffic → Traffic → Prop
  | call {call other : Rpc.Call} (renamed : call.Renamed ρ other) :
    Renamed ρ (.call call) (.call other)
  | message {target target' : String} {body body' : Bytes}
    (alike : Rpc.Alike ρ (Rpc.callOf? target body) (Rpc.callOf? target' body')) :
    Renamed ρ (.message target body) (.message target' body')
  | request {request other : Http.Request} (alike : Rpc.Alike ρ request.call? other.call?) :
    Renamed ρ (.request request) (.request other)
  | advance (span : Duration) : Renamed ρ (.advance span) (.advance span)

/-- Requests that make renamed calls, in whatever spelling, ask alike. -/
theorem Renamed.of_makes {ρ : KeyRenaming} {request other : Http.Request} {call call' : Rpc.Call}
    (makes : Http.Makes request call) (makes' : Http.Makes other call')
    (renamed : call.Renamed ρ call') :
    Renamed ρ (.request request) (.request other) := by
  refine .request ?_
  rw [Http.call?_of_makes makes, Http.call?_of_makes makes']
  exact .made renamed

theorem serve_renamed {ρ : KeyRenaming} {first other : Traffic} (renamed : Renamed ρ first other)
    {s u : Store} (stores : s.Renamed ρ u) (now : Instant) :
    (first.serve s now).1.Renamed ρ (other.serve u now).1 ∧
      (first.serve s now).2 = (other.serve u now).2 := by
  cases renamed with
  | call renamed =>
    obtain ⟨after, events⟩ := Rpc.effect_renamed renamed stores now
    exact ⟨after, congrArg (now, ·) events⟩
  | @message target target' body body' alike =>
    obtain ⟨after, events⟩ := Rpc.effect_alike alike stores now
    obtain ⟨leaves, logs⟩ := Rpc.handleRaw_eq_effect s now target body
    obtain ⟨leaves', logs'⟩ := Rpc.handleRaw_eq_effect u now target' body'
    rw [← leaves, ← leaves'] at after
    rw [← logs, ← logs'] at events
    exact ⟨after, congrArg (now, ·) events⟩
  | @request request other alike =>
    obtain ⟨after, events⟩ := Rpc.effect_alike alike stores now
    obtain ⟨leaves, logs⟩ := Http.does_handle s now request
    obtain ⟨leaves', logs'⟩ := Http.does_handle u now other
    rw [← leaves, ← leaves'] at after
    refine ⟨after, congrArg (now, ·) ?_⟩
    exact logs.trans ((congrArg (List.map (Event.via .http)) events).trans logs'.symm)
  | advance span =>
    obtain ⟨after, events⟩ := stores.pass now ((now.after? span).getD Instant.last)
    exact ⟨after, congrArg ((now.after? span).getD Instant.last, ·) events⟩

theorem logFrom_cons (store : Store) (now : Instant) (first : Traffic) (rest : List Traffic) :
    logFrom store now (first :: rest) = (first.serve store now).2.2 ++
      logFrom (first.serve store now).1 (first.serve store now).2.1 rest := rfl

theorem logFrom_renamed {ρ : KeyRenaming} {traffic others : List Traffic}
    (renamed : List.Forall₂ (Renamed ρ) traffic others) {s u : Store} (stores : s.Renamed ρ u)
    (now : Instant) :
    logFrom s now traffic = logFrom u now others := by
  induction renamed generalizing s u now with
  | nil => rfl
  | cons first rest ih =>
    obtain ⟨after, same⟩ := serve_renamed first stores now
    rw [logFrom_cons, logFrom_cons, same, ih after]

end Traffic

/-- Traffic on a new store that differs by a renaming of keys which keeps all that a
line shows of them, and by values that stay within the limit or over it, leaves the same log. -/
theorem log_tells_starts_of_keys (ρ : KeyRenaming) (interval : SweepInterval) (start : Instant)
    {traffic others : List Traffic} (renamed : List.Forall₂ (Traffic.Renamed ρ) traffic others) :
    Traffic.log interval start traffic = Traffic.log interval start others := by
  have logs := Traffic.logFrom_renamed renamed (.refl_create ρ interval start) start
  exact congrArg ((Store.create interval start).2 ++ ·) logs

/-- A write over each front-end, a read, and an expired entry that is swept in the background. -/
def Traffic.twoWrites (first second value other : String) : List Traffic :=
  [.call (.set first value 1), .request (Http.requestOf (.set second other 0)),
    .request (Http.requestOf (.get first)), .advance (Duration.ofSeconds 2)]

theorem log_tells_starts_of_keys_swapped :
    let traffic := Traffic.twoWrites "sixteen-bytes-okA" "sixteen-bytes-okB" "secret" "v"
    let others := Traffic.twoWrites "sixteen-bytes-okB" "sixteen-bytes-okA" "" "another"
    Traffic.log .standard ⟨0, 0⟩ traffic = Traffic.log .standard ⟨0, 0⟩ others ∧
      (Traffic.log .standard ⟨0, 0⟩ traffic).map Event.line =
        ["DEBUG sweeper started (interval: 1s)", "DEBUG SET sixteen-bytes-ok... (ttl: 1s)",
          "DEBUG SET sixteen-bytes-ok... (ttl: never)", "DEBUG GET sixteen-bytes-ok...",
          "DEBUG swept expired entries removed=1"] := by
  intro traffic others
  let ρ := KeyRenaming.swap "sixteen-bytes-okA" "sixteen-bytes-okB"
    (by decide) (by decide) (by decide)
  have toB : ρ "sixteen-bytes-okA" = "sixteen-bytes-okB" := Equiv.swap_apply_left ..
  have toA : ρ "sixteen-bytes-okB" = "sixteen-bytes-okA" := Equiv.swap_apply_right ..
  have makes (call : Rpc.Call) (key : String) (is : call.key? = some key) (filled : key ≠ "") :=
    Http.makes_requestOf call fun other has => Option.some.inj (is.symm.trans has) ▸ filled
  refine ⟨log_tells_starts_of_keys ρ .standard ⟨0, 0⟩
    (.cons ?_ (.cons ?_ (.cons ?_ (.cons ?_ .nil)))), ?_⟩
  · exact .call (toB ▸ .set "sixteen-bytes-okA" 1 (by decide))
  · refine .of_makes (makes _ _ rfl (by decide) (by decide))
      (makes _ _ rfl (by decide) (by decide)) ?_
    exact toA ▸ .set "sixteen-bytes-okB" 0 (by decide)
  · refine .of_makes (makes _ _ rfl (by decide) (by decide))
      (makes _ _ rfl (by decide) (by decide)) ?_
    exact toB ▸ .get "sixteen-bytes-okA"
  · exact .advance _
  · decide

end ExpiringStore
