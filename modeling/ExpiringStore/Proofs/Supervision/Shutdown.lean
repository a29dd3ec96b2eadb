import ExpiringStore.Proofs.Supervision.Invariants

/-!
# The end of a sweeper

However starts, stops and iterations of the loop are mixed, a stop returns only when no loop is
running, and no stop has to wait for more than the loop's next look at the shutdown channel. A stop
that nothing comes in between is the sweeper's.
-/
namespace ExpiringStore

/-- One step forward in the life of a sweeper. -/
inductive Lifecycle.Precedes : Lifecycle → Lifecycle → Prop
  | started : Precedes .created .running
  | stopped : Precedes .running .stopped
  | neverStarted : Precedes .created .stopped

def StopPhase.owes : StopPhase → List Event
  | .locked (some _) | .joining _ => [.sweeperStopped]
  | .locked none | .leaving _ | .returned | .cancelled => []

namespace Supervision

variable {s next : Supervision} {move : Move}

theorem state_of_step (sound : s.Sound) (stepped : s.step move = some next) :
    next.state = s.state ∨ s.state.Precedes next.state := by
  cases takes_of_step stepped with
  | start attached fresh =>
    rw [fresh]
    exact .inr .started
  | lock attached going =>
    cases state : s.state with
    | created => exact .inr .neverStarted
    | running => exact .inr .stopped
    | stopped => exact absurd state going
  | notice here noticed =>
    obtain rfl := sound.audible.eq_endLoop here noticed
    exact .inl rfl
  | _ => exact .inl rfl

/-- Behind the lock section of a stop no loop is begun. -/
theorem loops_of_step (sound : s.Sound) (stopped : s.state = .stopped)
    (stepped : s.step move = some next) :
    next.state = .stopped ∧ next.loops.length = s.loops.length := by
  cases takes_of_step stepped with
  | start attached fresh =>
    rw [stopped] at fresh
    cases fresh
  | lock attached going => exact absurd stopped going
  | notice here noticed =>
    obtain rfl := sound.audible.eq_endLoop here noticed
    exact ⟨stopped, List.length_set⟩
  | _ => exact ⟨stopped, rfl⟩

theorem loops_of_run (sound : s.Sound) (stopped : s.state = .stopped) {moves : List Move}
    (ran : s.run moves = some next) : next.loops.length = s.loops.length := by
  have kept : next.state = .stopped ∧ next.loops.length = s.loops.length := by
    refine sound.run_induction (P := fun t => t.state = .stopped ∧ t.loops.length = s.loops.length)
      ?_ ⟨stopped, rfl⟩ ran
    intro mid after move sound ⟨stopped, same⟩ stepped
    obtain ⟨still, length⟩ := loops_of_step sound stopped stepped
    exact ⟨still, length.trans same⟩
  exact kept.2

theorem lock_of_step (stepped : s.step .stop = some next) :
    next.state = .stopped ∧ next.loops.length = s.loops.length := by
  cases takes_of_step stepped with
  | lock => exact ⟨rfl, rfl⟩
  | lockAgain attached stopped => exact ⟨stopped, rfl⟩

theorem mem_set_of_ne {stops : List StopPhase} {stop old new : StopPhase} {call : Nat}
    (mem : stop ∈ stops) (here : stops[call]? = some old) (differs : stop ≠ old) :
    stop ∈ stops.set call new := by
  obtain ⟨position, found⟩ := List.mem_iff_getElem?.mp mem
  have elsewhere : call ≠ position := by
    rintro rfl
    exact differs (Option.some.inj (found.symm.trans here))
  exact List.mem_of_getElem? ((List.getElem?_set_ne elsewhere).trans found)

theorem returned_of_step (sound : s.Sound) (returned : .returned ∈ s.stops)
    (stepped : s.step move = some next) : .returned ∈ next.stops := by
  cases takes_of_step stepped with
  | startAgain | start | sweep | serve | drop => exact returned
  | lock | lockAgain => exact List.mem_append_left _ returned
  | sendFirst here | sendAgain here | join here | leave here
  | cancelJoining here | cancelLeaving here =>
    exact mem_set_of_ne returned here nofun
  | notice here noticed =>
    obtain rfl := sound.audible.eq_endLoop here noticed
    exact returned

theorem returned_of_run (sound : s.Sound) (returned : .returned ∈ s.stops) {moves : List Move}
    (ran : s.run moves = some next) : .returned ∈ next.stops :=
  sound.run_induction (P := fun t => .returned ∈ t.stops) returned_of_step returned ran

theorem signalled_set {stops : List StopPhase} {old phase : StopPhase} {call : Nat}
    (here : stops[call]? = some old) (sent : phase.hasSent = true) :
    ∃ stop ∈ stops.set call phase, stop.hasSent = true := by
  obtain ⟨bound, -⟩ := List.getElem?_eq_some_iff.mp here
  exact ⟨phase, List.mem_set bound phase, sent⟩

theorem Signalled.step (signalled : s.Signalled) (sound : s.Sound)
    (stepped : s.step move = some next) : next.Signalled := by
  cases takes_of_step stepped with
  | startAgain | start | sweep | serve => exact signalled
  | lock | lockAgain =>
    exact signalled.imp_left fun ⟨stop, mem, sent⟩ => ⟨stop, List.mem_append_left _ mem, sent⟩
  | sendFirst here | sendAgain here | join here | leave here
  | cancelJoining here | cancelLeaving here =>
    exact .inl (signalled_set here rfl)
  | notice here noticed =>
    obtain rfl := sound.audible.eq_endLoop here noticed
    exact signalled
  | drop => exact .inr rfl

theorem signalled_of_send {call : Nat} (stepped : s.step (.send call) = some next) :
    next.Signalled := by
  cases takes_of_step stepped with
  | sendFirst here | sendAgain here => exact .inl (signalled_set here rfl)

theorem signalled_of_drop (stepped : s.step .drop = some next) : next.Signalled := by
  cases takes_of_step stepped with
  | drop => exact .inr rfl

theorem Signalled.run (signalled : s.Signalled) (sound : s.Sound) {moves : List Move}
    (ran : s.run moves = some next) : next.Signalled :=
  sound.run_induction (fun sound signalled stepped => signalled.step sound stepped) signalled ran

theorem not_running (quiet : ∀ running, some running ∉ s.loops) (loop : Nat) : ¬s.Running loop :=
  fun ⟨running, here⟩ => quiet running (List.mem_of_getElem? here)

/-- Only a loop that is running sweeps. -/
theorem running_of_sweep {loop : Nat} {now : Instant}
    (stepped : s.step (.sweep loop now) = some next) :
    s.Running loop := by
  cases takes_of_step stepped with
  | sweep here => exact ⟨_, here⟩

/-- A loop that has been told to end finds its shutdown branch ready, and
taking it ends the loop. -/
theorem step_notice (sound : s.Sound) (signalled : s.Signalled) {loop : Nat} {running : SweepLoop}
    (here : s.loops[loop]? = some (some running)) :
    s.step (.notice loop) = some (s.endLoop loop running) := by
  have mem := List.mem_of_getElem? here
  have told := sound.audible.signalled signalled running mem
  have noticed : s.notice? loop running = some (s.endLoop loop running) := by
    unfold notice? Watch.changed?
    by_cases seen : running.receiver.seen = s.shutdown.version
    · have closed := told.resolve_left (by omega)
      simp [seen, closed]
    · have behind := (sound.audible.listens running mem).2
      have stopValue := sound.audible.onlyTrue (by omega)
      simp [seen, stopValue]
  simp only [step, here, noticed]

/-- Once a stop has returned no loop is running. -/
theorem Sound.quiet (sound : s.Sound) (returned : .returned ∈ s.stops) (running : SweepLoop) :
    some running ∉ s.loops := by
  intro mem
  have closed := sound.held.returned returned
  rw [(sound.held.byLoop running mem).2] at closed
  cases closed

theorem Sound.stopped (sound : s.Sound) {call : Nat} {phase : StopPhase}
    (here : s.stops[call]? = some phase) : s.state = .stopped := by
  refine Decidable.byContradiction fun going => ?_
  rw [sound.ordered.noStopYet going] at here
  cases here

/-! ## Stops come to their end -/

/-- A stop has run to its end, and but for the loop the rest of the sweeper is as it was. -/
structure Finished (s : Supervision) (call : Nat) (phase : StopPhase)
    (after : Supervision) : Prop where
  returned : after.stops[call]? = some .returned
  state : after.state = s.state
  table : after.table = s.table
  log : after.log = s.log ++ phase.owes

variable {call : Nat} {phase : StopPhase}

theorem exists_leave (sound : s.Sound) (quiet : ∀ running, some running ∉ s.loops)
    {receiver : Receiver} (here : s.stops[call]? = some (.leaving receiver)) :
    ∃ after, s.run [.leave call] = some after ∧ s.Finished call (.leaving receiver) after := by
  have stopped := sound.stopped here
  have closed := sound.held.byNobody (by simp [stopped]) quiet
  have seen := sound.held.silent receiver (.inr (List.mem_of_getElem? here))
  have told : (s.exit.changed? receiver).isSome = true := by
    rw [Watch.changed?_of_seen _ seen, closed]
    rfl
  obtain ⟨bound, -⟩ := List.getElem?_eq_some_iff.mp here
  have left : s.step (.leave call) = some (s.settle call .returned) := by
    simp only [step, here, told, if_true]
  refine ⟨s.settle call .returned, ?_, List.getElem?_set_self bound, rfl, rfl, ?_⟩
  · rw [run_cons, left]
    rfl
  · exact (List.append_nil _).symm

/-- A stop that waits returns as soon as no loop is running. -/
theorem exists_wait (sound : s.Sound) (quiet : ∀ running, some running ∉ s.loops)
    (here : s.stops[call]? = some phase) (sent : phase.hasSent = true)
    (waits : phase ≠ .cancelled) :
    ∃ further after, further.Sublist [.join call, .leave call] ∧ s.run further = some after ∧
      s.Finished call phase after := by
  cases phase with
  | locked => cases sent
  | cancelled => exact absurd rfl waits
  | returned => exact ⟨[], s, List.nil_sublist _, rfl, here, rfl, rfl, (List.append_nil _).symm⟩
  | leaving receiver =>
    obtain ⟨after, ran, finished⟩ := exists_leave sound quiet here
    exact ⟨[.leave call], after, List.sublist_cons_self _ _, ran, finished⟩
  | joining loop =>
    have bound := sound.ordered.begun loop (.inr (.inr (List.mem_of_getElem? here)))
    have ended : s.loops[loop]? = some none := by
      cases found : s.loops[loop] with
      | none => rw [List.getElem?_eq_getElem bound, found]
      | some running => exact absurd (found ▸ List.getElem_mem bound) (quiet running)
    have joined : s.step (.join call) = some (s.joined call) := by
      simp only [step, here, ended, if_true]
    have waiting : (s.joined call).stops[call]? = some (.leaving s.exitReceiver) :=
      List.getElem?_set_self (List.getElem?_eq_some_iff.mp here).1
    obtain ⟨after, ran, finished⟩ := exists_leave (sound.step joined) quiet waiting
    refine ⟨[.join call, .leave call], after, List.Sublist.refl _, ?_, finished.returned,
      finished.state, finished.table, ?_⟩
    · rw [run_cons, joined]
      exact ran
    · exact finished.log.trans (List.append_nil _)

/-- A stop that has signalled waits for nothing but the loop's next look at the shutdown channel. -/
theorem exists_notice (sound : s.Sound) (here : s.stops[call]? = some phase)
    (sent : phase.hasSent = true) (waits : phase ≠ .cancelled) :
    ∃ further after, further.Sublist [.notice 0, .join call, .leave call] ∧
      s.run further = some after ∧
      s.Finished call phase after := by
  have signalled : s.Signalled := .inl ⟨phase, List.mem_of_getElem? here, sent⟩
  -- The only loop there can be is the first.
  match found : s.loops[0]? with
  | some (some running) =>
    have noticed := step_notice sound signalled found
    have quiet := not_mem_set_none sound.ordered.oneLoop found
    obtain ⟨further, after, part, ran, finished⟩ :=
      exists_wait (sound.step noticed) quiet here sent waits
    refine ⟨.notice 0 :: further, after, part.cons_cons _, ?_, finished.returned, finished.state,
      finished.table, finished.log⟩
    rw [run_cons, noticed]
    exact ran
  | some none | none =>
    have quiet (running : SweepLoop) : some running ∉ s.loops := by
      intro mem
      obtain ⟨loop, here⟩ := List.mem_iff_getElem?.mp mem
      have first : loop = 0 := by
        have bound := (List.getElem?_eq_some_iff.mp here).1
        have one := sound.ordered.oneLoop
        omega
      rw [first, found] at here
      cases here
    obtain ⟨further, after, part, ran, finished⟩ := exists_wait sound quiet here sent waits
    exact ⟨further, after, part.cons _, ran, finished⟩

/-- Having signalled, a stop waits, and what it has to report is still to be reported. -/
theorem stops_send (bound : call < s.stops.length) (handle : Option Nat) :
    ∃ phase, (s.send call handle).stops[call]? = some phase ∧ phase.hasSent = true ∧
      phase ≠ .cancelled ∧ phase.owes = (StopPhase.locked handle).owes := by
  cases handle with
  | none => exact ⟨.leaving s.exitReceiver, List.getElem?_set_self bound, rfl, nofun, rfl⟩
  | some loop => exact ⟨.joining loop, List.getElem?_set_self bound, rfl, nofun, rfl⟩

/-- No stop hangs: it can always go on to its end, with the loop's help at most once. -/
theorem exists_return (sound : s.Sound) (here : s.stops[call]? = some phase)
    (waits : phase ≠ .cancelled) :
    ∃ further after, further.Sublist [.send call, .notice 0, .join call, .leave call] ∧
      s.run further = some after ∧ s.Finished call phase after := by
  by_cases sent : phase.hasSent = true
  · obtain ⟨further, after, part, ran, finished⟩ := exists_notice sound here sent waits
    exact ⟨further, after, part.cons _, ran, finished⟩
  · cases phase with
    | locked handle =>
      have sends : s.step (.send call) = some (s.send call handle) := by simp only [step, here]
      have bound := (List.getElem?_eq_some_iff.mp here).1
      have frame : (s.send call handle).state = s.state ∧ (s.send call handle).table = s.table ∧
          (s.send call handle).log = s.log := by cases handle <;> exact ⟨rfl, rfl, rfl⟩
      obtain ⟨waiting, called, signalled, waits, owes⟩ := stops_send bound handle
      obtain ⟨further, after, part, ran, finished⟩ :=
        exists_notice (sound.step sends) called signalled waits
      refine ⟨.send call :: further, after, part.cons_cons _, ?_, finished.returned,
        finished.state.trans frame.1, finished.table.trans frame.2.1, ?_⟩
      · rw [run_cons, sends]
        exact ran
      · rw [finished.log, frame.2.2, owes]
    | _ => exact absurd rfl sent

/-- A start that is made at once is the sweeper's. -/
theorem start_alone (created : Instant) (stepped : s.step .start = some next) :
    next.state = (Sweeper.start ⟨s.interval, created, s.state⟩).1.state ∧
      next.log = s.log ++ (Sweeper.start ⟨s.interval, created, s.state⟩).2 := by
  cases takes_of_step stepped with
  | start attached fresh => simp [Sweeper.start, fresh, Lifecycle.start]
  | startAgain attached begun =>
    cases state : s.state with
    | created => exact absurd state begun
    | running | stopped => simp [Sweeper.start, Lifecycle.start]

/-- An iteration of the loop that sweeps is the store's background sweep. -/
theorem sweep_alone (s : Supervision) (created now : Instant) :
    let swept := Store.backgroundSweep ⟨s.table, ⟨s.interval, created, s.state⟩⟩ now
    (s.sweep now).table = swept.1.table ∧ (s.sweep now).log = s.log ++ swept.2 :=
  ⟨rfl, rfl⟩

/-- A stop that nothing but the loop comes in between is the sweeper's. -/
theorem stop_alone (sound : s.Sound) (attached : s.dropped = false) (created : Instant) :
    ∃ further after, s.run (.stop :: further) = some after ∧
      after.stops[s.stops.length]? = some .returned ∧ after.table = s.table ∧
      after.state = (Sweeper.stop ⟨s.interval, created, s.state⟩).1.state ∧
      after.log = s.log ++ (Sweeper.stop ⟨s.interval, created, s.state⟩).2 := by
  have stepped : s.step .stop = some s.lock := by simp [step, attached]
  have handle := sound.ordered.handle attached
  obtain ⟨owner, called, reports⟩ : ∃ owner, s.lock.stops[s.stops.length]? = some (.locked owner) ∧
      (StopPhase.locked owner).owes = (Sweeper.stop ⟨s.interval, created, s.state⟩).2 := by
    by_cases stopped : s.state = .stopped
    · exact ⟨none, by simp [lock, stopped],
        by simp [StopPhase.owes, Sweeper.stop, Lifecycle.stop, stopped]⟩
    · refine ⟨s.handle, by simp [lock, stopped], ?_⟩
      cases state : s.state with
      | stopped => exact absurd state stopped
      | created =>
        have none : s.handle = none := by simpa [state] using handle
        simp [none, StopPhase.owes, Sweeper.stop, Lifecycle.stop]
      | running =>
        obtain ⟨loop, some⟩ := Option.isSome_iff_exists.mp (handle.mpr state)
        simp [some, StopPhase.owes, Sweeper.stop, Lifecycle.stop]
  have locked := (sound.step stepped).stopped called
  have frame : s.lock.table = s.table ∧ s.lock.log = s.log := by
    unfold lock
    split <;> exact ⟨rfl, rfl⟩
  obtain ⟨further, after, -, ran, finished⟩ := exists_return (sound.step stepped) called (by simp)
  refine ⟨further, after, ?_, finished.returned, finished.table.trans frame.1, ?_, ?_⟩
  · rw [run_cons, stepped]
    exact ran
  · rw [finished.state, locked]
    cases s.state <;> rfl
  · rw [finished.log, frame.2, reports]

end Supervision

/-- However starts, stops and iterations of the sweep loop are mixed, the sweeper's life only moves
forward; one loop at most is ever begun, and none behind the lock section of a stop; once a stop has
returned no loop is running or sweeps any more, whether or not others were given up; once a stop has
signalled, or the sweeper has been dropped, a loop that still runs can take its shutdown branch at
any time, and ends when it does; and every stop that is not given up can come to its end by its own
sections and one such look of the loop. -/
theorem stops_end_the_loop {interval : SweepInterval} {table : Table}
    {moves : List Supervision.Move} {s : Supervision}
    (ran : (Supervision.new interval table).run moves = some s) :
    (∀ move next, s.step move = some next → next.state = s.state ∨ s.state.Precedes next.state) ∧
    s.loops.length ≤ 1 ∧
    (∀ locked further later, s.step .stop = some locked → locked.run further = some later →
      later.loops.length = s.loops.length) ∧
    (.returned ∈ s.stops → ∀ further later, s.run further = some later →
      (∀ loop, ¬later.Running loop) ∧ ∀ loop now, later.step (.sweep loop now) = none) ∧
    (∀ move next further later loop, (∃ call, move = .send call) ∨ move = .drop →
      s.step move = some next → next.run further = some later → later.Running loop →
        ∃ ended, later.step (.notice loop) = some ended ∧ ∀ other, ¬ended.Running other) ∧
    ∀ call phase, s.stops[call]? = some phase → phase ≠ .cancelled →
      ∃ further later, further.Sublist [.send call, .notice 0, .join call, .leave call] ∧
        s.run further = some later ∧ later.stops[call]? = some .returned := by
  have sound := (Supervision.sound_new interval table).run ran
  refine ⟨?_, sound.ordered.oneLoop, ?_, ?_, ?_, ?_⟩
  · intro move next stepped
    exact Supervision.state_of_step sound stepped
  · intro locked further later stepped ranOn
    obtain ⟨stopped, same⟩ := Supervision.lock_of_step stepped
    exact (Supervision.loops_of_run (sound.step stepped) stopped ranOn).trans same
  · intro returned further later ranOn
    have quiet := (sound.run ranOn).quiet (Supervision.returned_of_run sound returned ranOn)
    refine ⟨Supervision.not_running quiet, fun loop now => Option.eq_none_iff_forall_ne_some.mpr ?_⟩
    intro swept stepped
    exact Supervision.not_running quiet loop (Supervision.running_of_sweep stepped)
  · intro move next further later loop signals stepped ranOn ⟨running, here⟩
    have signalled : next.Signalled := by
      rcases signals with ⟨call, rfl⟩ | rfl
      · exact Supervision.signalled_of_send stepped
      · exact Supervision.signalled_of_drop stepped
    have soundNext := sound.step stepped
    have soundLater := soundNext.run ranOn
    have noticed := Supervision.step_notice soundLater (signalled.run soundNext ranOn) here
    have quiet := Supervision.not_mem_set_none soundLater.ordered.oneLoop here
    exact ⟨later.endLoop loop running, noticed, Supervision.not_running quiet⟩
  · intro call phase here waits
    obtain ⟨further, after, part, ranOn, finished⟩ := Supervision.exists_return sound here waits
    exact ⟨further, after, part, ranOn, finished.returned⟩

/-- A stop is given up while it waits for the loop, the loop sweeps although it has been
told to end, and a second stop, which has no handle to wait for, still returns only
behind the loop's end. -/
def Supervision.givenUp (now : Instant) : List Supervision.Move :=
  [.start, .stop, .start, .send 0, .cancel 0, .stop, .sweep 0 now, .send 1, .notice 0, .leave 1]

theorem stops_end_the_loop_givenUp :
    let start := Supervision.new .standard { entries := [("k", Entry.expiringAt "v" ⟨1, 0⟩)] }
    ∃ s, start.run (Supervision.givenUp ⟨2, 0⟩) = some s ∧ s.stops = [.cancelled, .returned] ∧
      s.log.map Event.text = ["sweeper started (interval: 1s)", "swept expired entries removed=1"] ∧
      (∀ loop, ¬s.Running loop) ∧ ∀ now, s.step (.sweep 0 now) = none := by
  intro start
  have ends : (start.run (Supervision.givenUp ⟨2, 0⟩)).isSome = true := by decide
  obtain ⟨s, ran⟩ := Option.isSome_iff_exists.mp ends
  have seen : (start.run (Supervision.givenUp ⟨2, 0⟩)).map
      (fun s => (s.stops, s.log.map Event.text)) =
      some ([.cancelled, .returned],
        ["sweeper started (interval: 1s)", "swept expired entries removed=1"]) := by decide
  rw [ran] at seen
  simp only [Option.map_some, Option.some.injEq, Prod.mk.injEq] at seen
  obtain ⟨stops, log⟩ := seen
  obtain ⟨-, -, -, quiet, -, -⟩ := stops_end_the_loop ran
  obtain ⟨ended, noSweep⟩ := quiet (stops ▸ by decide) [] s rfl
  exact ⟨s, ran, stops, log, ended, noSweep 0⟩

end ExpiringStore
