import ExpiringStore.Store.Supervision

/-!
# What a move can be

Every move by what it needs and what it leaves, so that no later proof opens a step again.
-/
namespace ExpiringStore.Supervision

/-- What a move does. The lock sections of starts and stops have a first and a later form. -/
inductive Takes (s : Supervision) : Move → Supervision → Prop
  | start (attached : s.dropped = false) (fresh : s.state = .created) :
    Takes s .start
      { s with state := .running, handle := some s.loops.length, exitSender := false,
               shutdown := s.shutdown.subscribe.1,
               loops := s.loops ++ [some ⟨s.shutdown.subscribe.2, s.exitSender⟩],
               log := s.log ++ [.sweeperStarted s.interval.span] }
  | startAgain (attached : s.dropped = false) (begun : s.state ≠ .created) : Takes s .start s
  | lock (attached : s.dropped = false) (going : s.state ≠ .stopped) :
    Takes s .stop
      { s with state := .stopped, handle := none, exitSender := false,
               exit := s.exit.dropSender s.exitSender, stops := s.stops ++ [.locked s.handle] }
  | lockAgain (attached : s.dropped = false) (stopped : s.state = .stopped) :
    Takes s .stop { s with stops := s.stops ++ [.locked none] }
  | sendFirst {call loop : Nat} (here : s.stops[call]? = some (.locked (some loop))) :
    Takes s (.send call)
      { s with shutdown := s.shutdown.send true, stops := s.stops.set call (.joining loop) }
  | sendAgain {call : Nat} (here : s.stops[call]? = some (.locked none)) :
    Takes s (.send call)
      { s with shutdown := s.shutdown.send true, exit := (s.exit.duplicate s.exitReceiver).1,
               stops := s.stops.set call (.leaving s.exitReceiver) }
  | join {call loop : Nat} (here : s.stops[call]? = some (.joining loop))
    (ended : s.loops[loop]? = some none) :
    Takes s (.join call)
      { s with log := s.log ++ [.sweeperStopped], exit := (s.exit.duplicate s.exitReceiver).1,
               stops := s.stops.set call (.leaving s.exitReceiver) }
  | leave {call : Nat} {receiver : Receiver} (here : s.stops[call]? = some (.leaving receiver))
    (told : (s.exit.changed? receiver).isSome = true) :
    Takes s (.leave call) { s with exit := s.exit.release, stops := s.stops.set call .returned }
  | cancelJoining {call loop : Nat} (here : s.stops[call]? = some (.joining loop)) :
    Takes s (.cancel call) { s with stops := s.stops.set call .cancelled }
  | cancelLeaving {call : Nat} {receiver : Receiver}
    (here : s.stops[call]? = some (.leaving receiver)) :
    Takes s (.cancel call) { s with exit := s.exit.release, stops := s.stops.set call .cancelled }
  | sweep {loop : Nat} {running : SweepLoop} (here : s.loops[loop]? = some (some running))
    (now : Instant) : Takes s (.sweep loop now) (s.sweep now)
  | notice {loop : Nat} {running : SweepLoop} {next : Supervision}
    (here : s.loops[loop]? = some (some running)) (noticed : s.notice? loop running = some next) :
    Takes s (.notice loop) next
  | serve (table : Table) : Takes s (.serve table) { s with table := table }
  | drop (attached : s.dropped = false) (ended : ∀ stop ∈ s.stops, stop.isOver = true) :
    Takes s .drop s.drop

variable {s next : Supervision} {move : Move}

theorem start_of_created (fresh : s.state = .created) :
    s.start = { s with
      state := .running
      handle := some s.loops.length
      exitSender := false
      shutdown := s.shutdown.subscribe.1
      loops := s.loops ++ [some ⟨s.shutdown.subscribe.2, s.exitSender⟩]
      log := s.log ++ [.sweeperStarted s.interval.span] } := by
  simp only [start, fresh, Lifecycle.start]

theorem start_of_begun (begun : s.state ≠ .created) : s.start = s := by
  obtain ⟨interval, state⟩ := s
  cases state with
  | created => exact absurd rfl begun
  | running | stopped => rfl

/-- Every step is one of the moves above. -/
theorem takes_of_step (stepped : s.step move = some next) : s.Takes move next := by
  cases move with
  | start =>
    simp only [step, Option.ite_none_left_eq_some, Option.some.injEq, Bool.not_eq_true] at stepped
    obtain ⟨attached, rfl⟩ := stepped
    by_cases fresh : s.state = .created
    · rw [start_of_created fresh]
      exact .start attached fresh
    · rw [start_of_begun fresh]
      exact .startAgain attached fresh
  | stop =>
    simp only [step, Option.ite_none_left_eq_some, Option.some.injEq, Bool.not_eq_true] at stepped
    obtain ⟨attached, rfl⟩ := stepped
    unfold lock
    split
    · rename_i stopped
      exact .lockAgain attached stopped
    · rename_i going
      exact .lock attached going
  | send call =>
    simp only [step] at stepped
    split at stepped
    · rename_i handle here
      obtain rfl := Option.some.inj stepped
      cases handle with
      | none => exact .sendAgain here
      | some loop => exact .sendFirst here
    · cases stepped
  | join call =>
    simp only [step] at stepped
    split at stepped
    · rename_i loop here
      split at stepped
      · rename_i ended
        obtain rfl := Option.some.inj stepped
        exact .join here ended
      · cases stepped
    · cases stepped
  | leave call =>
    simp only [step] at stepped
    split at stepped
    · rename_i receiver here
      split at stepped
      · rename_i told
        obtain rfl := Option.some.inj stepped
        exact .leave here told
      · cases stepped
    · cases stepped
  | cancel call =>
    simp only [step] at stepped
    split at stepped
    · rename_i here
      obtain rfl := Option.some.inj stepped
      exact .cancelJoining here
    · rename_i here
      obtain rfl := Option.some.inj stepped
      exact .cancelLeaving here
    · cases stepped
  | sweep loop now =>
    simp only [step] at stepped
    split at stepped
    · rename_i here
      obtain rfl := Option.some.inj stepped
      exact .sweep here now
    · cases stepped
  | notice loop =>
    simp only [step] at stepped
    split at stepped
    · rename_i here
      exact .notice here stepped
    · cases stepped
  | serve table =>
    obtain rfl := Option.some.inj stepped
    exact .serve table
  | drop =>
    simp only [step, Option.ite_none_left_eq_some, Option.some.injEq, Bool.or_eq_true, not_or,
      Bool.not_eq_true, Bool.not_eq_false', List.all_eq_true] at stepped
    obtain ⟨⟨attached, ended⟩, rfl⟩ := stepped
    exact .drop attached ended

end ExpiringStore.Supervision
