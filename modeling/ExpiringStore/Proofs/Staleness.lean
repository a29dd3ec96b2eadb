import ExpiringStore.Proofs.Operations
import ExpiringStore.Proofs.Schedule

/-!
# How long an expired entry stays

While a store's sweeper runs, no entry is left whose deadline a past tick has reached, so an expired
entry that nobody touches is gone an interval and a millisecond after its deadline.
-/
namespace ExpiringStore

/-- A deadline that the ticks up to `now` have not reached, given after the sweeper was created. -/
structure Sweeper.Ahead (s : Sweeper) (now deadline : Instant) : Prop where
  created_lt : s.created.toNanos < deadline.toNanos
  tick_lt : ∀ k, 1 ≤ k → s.tickAt k ≤ now.floorMilli → s.tickAt k < deadline.toNanos

/-- An expired entry is at most an interval and the timer's millisecond old. -/
theorem Sweeper.Ahead.lt_add {s : Sweeper} {now deadline : Instant} (ahead : s.Ahead now deadline) :
    now.toNanos < deadline.toNanos + s.interval.span.toNanos + nanosPerMilli := by
  by_contra late
  have rounding := now.floorMilli_bounds.2
  -- The latest tick is less than an interval behind the whole milliseconds of the clock.
  have reached : s.tickAt (s.latestTick now.floorMilli) ≤ now.floorMilli :=
    tickAt_le_iff.mpr (Int.le_refl _)
  have next : now.floorMilli < s.tickAt (s.latestTick now.floorMilli + 1) := by
    rw [← Int.not_le, tickAt_le_iff]
    omega
  rw [tickAt_succ] at next
  have past : deadline.toNanos < s.tickAt (s.latestTick now.floorMilli) := by omega
  have first := one_le_of_created_lt_tickAt (Int.lt_trans ahead.created_lt past)
  have before := ahead.tick_lt _ first reached
  omega

/-- While its sweeper runs, a store holds no entry that a tick up to `now` has reached. -/
structure Store.Prompt (s : Store) (now : Instant) : Prop where
  created_le : s.sweeper.created.toNanos ≤ now.toNanos
  ahead : ∀ {key entry deadline}, s.table.find? key = some entry → entry.deadline = some deadline →
    s.sweeper.Ahead now deadline

namespace Store.Prompt

variable {s : Store} {now : Instant}

theorem create (interval : SweepInterval) (now : Instant) :
    (Store.create interval now).1.Prompt now :=
  ⟨Int.le_refl _, fun found _ => by cases found⟩

/-- Taking entries away keeps a store prompt. -/
theorem of_find? (prompt : s.Prompt now) {table : Table}
    (kept : ∀ {key entry}, table.find? key = some entry → s.table.find? key = some entry) :
    ({ s with table := table } : Store).Prompt now :=
  ⟨prompt.created_le, fun found has => prompt.ahead (kept found) has⟩

theorem evictExpired (prompt : s.Prompt now) (key : String) (reading : Instant) :
    ({ s with table := s.table.evictExpired key reading } : Store).Prompt now := by
  apply prompt.of_find?
  intro other entry found
  rw [Table.find?_evictExpired] at found
  split at found
  · rename_i same
    rw [same]
    exact (Option.filter_eq_some_iff.mp found).1
  · exact found

theorem erase (prompt : s.Prompt now) (key : String) :
    ({ s with table := s.table.erase key } : Store).Prompt now := by
  apply prompt.of_find?
  intro other entry found
  rw [Table.find?_erase] at found
  split at found
  · cases found
  · exact found

theorem withoutExpired (prompt : s.Prompt now) (reading : Instant) :
    ({ s with table := s.table.withoutExpired reading } : Store).Prompt now := by
  apply prompt.of_find?
  intro key entry found
  rw [Table.find?_withoutExpired] at found
  exact (Option.filter_eq_some_iff.mp found).1

/-- A deadline given now lies behind every tick that has passed. -/
theorem set (prompt : s.Prompt now) (key value : String) (ttl : Option Duration) :
    (s.set key value ttl now).Prompt now := by
  refine ⟨prompt.created_le, fun {other entry deadline} found has => ?_⟩
  simp only [Store.set, Table.find?_insert] at found
  split at found
  · obtain rfl := Option.some.inj found
    obtain ⟨span, -, positive, sum⟩ := Entry.toNanos_of_deadlineFor has
    have created := prompt.created_le
    have rounding := now.floorMilli_bounds.1
    exact ⟨by simp only [Store.set]; omega, fun k _ reached => by omega⟩
  · exact prompt.ahead found has

/-- An operation leaves a prompt store prompt, and only a stop touches the sweeper. -/
theorem perform (prompt : s.Prompt now) (operation : Operation) :
    (s.perform now operation).1.Prompt now := by
  cases operation with
  | set key value ttl => exact prompt.set key value ttl
  | get key =>
    simp only [Store.perform, Store.get_eq]
    exact prompt.evictExpired key now
  | delete key =>
    simp only [Store.perform, Store.delete_eq]
    exact prompt.erase key
  | sweep => exact prompt.withoutExpired now
  | stop =>
    refine ⟨prompt.created_le, fun {key entry deadline} found has => ?_⟩
    have ahead := prompt.ahead found has
    exact ⟨ahead.created_lt, ahead.tick_lt⟩
  | list | isEmpty | state => exact prompt

end Store.Prompt

/-- Only a stop changes the sweeper, and it does not leave it running. -/
theorem Store.running_of_perform {s : Store} {now : Instant} {operation : Operation}
    (running : (s.perform now operation).1.sweeper.state = .running) :
    s.sweeper.state = .running := by
  cases operation with
  | stop =>
    simp only [Store.perform, Store.stop, Sweeper.stop] at running
    cases state : s.sweeper.state <;> simp [Lifecycle.stop, state] at running
  | get key =>
    simp only [Store.perform, Store.get_eq] at running
    exact running
  | delete key =>
    simp only [Store.perform, Store.delete_eq] at running
    exact running
  | set | list | sweep | isEmpty | state => exact running

/-- The clock's move keeps a running store prompt: either no tick has passed, or the sweep at the
new reading has removed what the ticks have reached. -/
theorem Store.Prompt.pass {s : Store} {before after : Instant} (prompt : s.Prompt before)
    (running : s.sweeper.state = .running) (order : before.toNanos ≤ after.toNanos) :
    (s.pass before after).1.Prompt after := by
  have created := Int.le_trans prompt.created_le order
  rw [Store.pass_fst]
  split
  · refine ⟨created, fun {key entry deadline} found has => ?_⟩
    rw [Table.find?_withoutExpired, Option.filter_eq_some_iff] at found
    obtain ⟨held, live⟩ := found
    refine ⟨(prompt.ahead held has).created_lt, fun k _ reached => ?_⟩
    have notReached : ¬ deadline.toNanos ≤ after.toNanos := fun past => by
      rw [Entry.expiredAt_iff.mpr ⟨deadline, has, past⟩] at live
      cases live
    have rounding := after.floorMilli_bounds.1
    exact Int.lt_of_le_of_lt reached (by omega)
  · rename_i asleep
    refine ⟨created, fun {key entry deadline} found has => ?_⟩
    have ahead := prompt.ahead found has
    refine ⟨ahead.created_lt, fun k first reached => ahead.tick_lt k first ?_⟩
    -- A tick that the old reading had not reached would have woken the loop.
    by_contra passed
    exact asleep (Sweeper.wakes_iff.mpr ⟨running, k, first, Int.not_le.mp passed, reached⟩)

theorem Store.sweeper_pass (s : Store) (before after : Instant) :
    (s.pass before after).1.sweeper = s.sweeper := by
  rw [Store.pass_fst]
  split <;> rfl

/-- All stores of a pool whose sweepers run are prompt. -/
def Pool.Prompt (p : Pool) : Prop :=
  ∀ s ∈ p.stores, s.sweeper.state = .running → s.Prompt p.clock

namespace Pool.Prompt

variable {p : Pool}

/-- A call changes one store, by one operation at the pool's reading. -/
theorem call (prompt : p.Prompt) (handle : Nat) (operation : Operation) :
    (p.call handle operation).1.Prompt := by
  unfold Pool.call Pool.withStore?
  cases p.storeNumber? handle with
  | none => exact prompt
  | some number =>
    cases there : p.stores[number]? with
    | none => simpa [there] using prompt
    | some store =>
      simp only [there]
      intro s mem running
      rcases List.mem_or_eq_of_mem_set mem with old | rfl
      · exact prompt s old running
      · have was := Store.running_of_perform running
        exact (prompt store (List.mem_of_getElem? there) was).perform operation

theorem addStore (prompt : p.Prompt) (interval : SweepInterval) :
    (p.addStore interval).1.Prompt := by
  intro s mem running
  rcases List.mem_append.mp mem with old | new
  · exact prompt s old running
  · obtain rfl := List.mem_singleton.mp new
    exact Store.Prompt.create interval p.clock

/-- The last handle takes the sweeper with it, any other handle nothing. -/
theorem drop (prompt : p.Prompt) (handle : Nat) : (p.drop handle).Prompt := by
  unfold Pool.drop
  cases p.storeNumber? handle with
  | none => exact prompt
  | some number =>
    intro s mem running
    simp only at mem
    split at mem
    · exact prompt s mem running
    · obtain ⟨i, inside, rfl⟩ := List.mem_iff_getElem.mp mem
      simp only [List.getElem_modify] at running ⊢
      split at running
      · simp [Sweeper.abandon] at running
      · rename_i other
        rw [if_neg other]
        exact prompt _ (List.getElem_mem _) running

theorem advance (prompt : p.Prompt) (span : Duration) : (p.advance span).1.Prompt := by
  intro s mem running
  simp only [Pool.advance, List.mem_map] at mem
  obtain ⟨_, ⟨store, held, rfl⟩, rfl⟩ := mem
  rw [Store.sweeper_pass] at running
  exact (prompt store held running).pass running (p.clock.toNanos_le_getD_after? span)

theorem step (prompt : p.Prompt) (step : SessionStep) : (p.step step).1.Prompt := by
  cases step with
  | call handle operation => exact prompt.call handle operation
  | create interval => exact prompt.addStore interval
  | clone handle =>
    simp only [Pool.step, Pool.clone?]
    cases p.storeNumber? handle <;> exact prompt
  | drop handle => exact prompt.drop handle
  | advance span => exact prompt.advance span

theorem after (prompt : p.Prompt) (steps : List SessionStep) : (p.after steps).Prompt := by
  induction steps generalizing p with
  | nil => exact prompt
  | cons first rest ih => exact ih (prompt.step first)

end Pool.Prompt

/-- After any session, a store whose sweeper runs holds no entry with a deadline at or before a tick
up to the whole milliseconds of the clock. So an expired entry is gone as soon as the interval and
one millisecond have passed since its deadline, whether or not anybody has touched it. -/
theorem deadline_ahead_of_ticks (start : Instant) (steps : List SessionStep) (s : Store)
    (held : s ∈ ((Pool.onClock start).after steps).stores) (running : s.sweeper.state = .running)
    (key : String) (entry : Entry) (deadline : Instant) (found : s.table.find? key = some entry)
    (has : entry.deadline = some deadline) :
    let now := ((Pool.onClock start).after steps).clock
    (∀ k, 1 ≤ k → s.sweeper.tickAt k ≤ now.floorMilli → s.sweeper.tickAt k < deadline.toNanos) ∧
      now.toNanos < deadline.toNanos + s.sweeper.interval.span.toNanos + nanosPerMilli := by
  have fresh : (Pool.onClock start).Prompt := fun s mem => by cases mem
  have ahead := (fresh.after steps s held running).ahead found has
  exact ⟨ahead.tick_lt, ahead.lt_add⟩

/-- An interval of a millisecond and a half on a store created between two milliseconds: the entry
has expired, and the first tick has not come. -/
theorem deadline_ahead_of_ticks_expired :
    let pool := (Pool.onClock ⟨0, 300000⟩).after [.create (SweepInterval.clamp ⟨0, 1500000⟩),
      .call 0 (.set "k" "v" (some (Duration.ofMillis 1))), .clone 0, .advance ⟨0, 1400000⟩, .drop 0]
    ∃ s ∈ pool.stores, s.sweeper.state = .running ∧
      s.table.find? "k" = some (Entry.expiringAt "v" ⟨0, 1300000⟩) ∧
      (Entry.expiringAt "v" ⟨0, 1300000⟩).expiredAt pool.clock = true ∧
      pool.clock.toNanos < 1300000 + s.sweeper.interval.span.toNanos + nanosPerMilli := by
  intro pool
  have held : pool.stores.head (by decide) ∈ pool.stores := List.head_mem _
  have found : (pool.stores.head (by decide)).table.find? "k" =
      some (Entry.expiringAt "v" ⟨0, 1300000⟩) := by decide
  refine ⟨_, held, by decide, found, by decide, ?_⟩
  exact (deadline_ahead_of_ticks _ _ _ held (by decide) "k" _ ⟨0, 1300000⟩ found rfl).2

end ExpiringStore
