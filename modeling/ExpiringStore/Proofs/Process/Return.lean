import ExpiringStore.Proofs.Process.Course

/-!
# The way to the return

How far a process is from its return. What it does by itself, and every front-end that completes,
brings it nearer, and what goes on around it takes it no further away; so it makes a bounded number
of moves. It is never stuck: where it waits, what it waits for can happen.
-/
namespace ExpiringStore

/-- How many stages are still to come at most. -/
def Stage.distance : Stage → Nat
  | .begun => 10
  | .bindingHttp => 9
  | .bindingGrpc _ => 8
  | .startingGrpc _ => 7
  | .startingHttp _ => 6
  | .waiting => 5
  | .telling _ => 4
  | .draining _ => 3
  | .served _ => 2
  | .stopping _ => 1
  | .returned _ => 0

/-- How much is still to come of the stop of a sweeper, the loop's end included. -/
def Supervision.distance (s : Supervision) : Nat :=
  (match s.stops with
    | [] => 4
    | phase :: _ => phase.sectionsLeft) + if s.loops = [none] then 0 else 1

namespace Supervision

variable {s after : Supervision} {move : Move}

theorem Kept.distance_aside (kept : s.Kept) (isAside : move.isAside = true)
    (stepped : s.step move = some after) : after.distance ≤ s.distance := by
  cases takes_of_step stepped with
  | sweep | serve => exact Nat.le_refl _
  | @notice loop running _ here noticed =>
    obtain rfl := kept.sound.audible.eq_endLoop here noticed
    obtain ⟨only, loops⟩ := List.length_eq_one_iff.mp kept.begunOnce
    have first : loop = 0 := by
      have bound := (List.getElem?_eq_some_iff.mp here).1
      have one := kept.begunOnce
      omega
    simp [distance, endLoop, loops, first]
  | _ => cases isAside

/-- A loop that looks at its shutdown channel after the signal ends, and has
nothing to do any more. -/
theorem Kept.exists_notice (kept : s.Kept) (signalled : s.Signalled) (runs : s.loops ≠ [none]) :
    ∃ after, s.step (.notice 0) = some after ∧ after.distance < s.distance := by
  obtain ⟨loop, loops⟩ := List.length_eq_one_iff.mp kept.begunOnce
  cases loop with
  | none => exact absurd loops runs
  | some running =>
    have here : s.loops[0]? = some (some running) := by rw [loops]; rfl
    refine ⟨_, step_notice kept.sound signalled here, ?_⟩
    simp [distance, endLoop, loops]

theorem step_send_of_locked {handle : Option Nat} (only : s.stops = [.locked handle]) :
    s.step (.send 0) = some (s.send 0 handle) := by
  simp [step, only]

/-- Once the loop has ended, the stop that waits for it goes on. -/
theorem Kept.step_join (kept : s.Kept) (ended : s.loops = [none]) {loop : Nat}
    (only : s.stops = [.joining loop]) : s.step (.join 0) = some (s.joined 0) := by
  have bound := kept.sound.ordered.begun loop (.inr (.inr (by simp [only])))
  have first : loop = 0 := by rw [kept.begunOnce] at bound; omega
  simp [step, only, ended, first]

/-- Once the loop has ended, the exit channel is closed. -/
theorem Kept.step_leave (kept : s.Kept) (ended : s.loops = [none]) {receiver : Receiver}
    (only : s.stops = [.leaving receiver]) : s.step (.leave 0) = some (s.settle 0 .returned) := by
  have here : s.stops[0]? = some (.leaving receiver) := by rw [only]; rfl
  have closed := kept.sound.held.byNobody (by simp [kept.sound.stopped here]) (by simp [ended])
  have seen := kept.sound.held.silent receiver (.inr (List.mem_of_getElem? here))
  simp [step, here, Watch.changed?_of_seen _ seen, closed]

end Supervision

namespace Process

variable {launch : Launch} {p next : Process} {move : Move}

/-- How far a process is from its return at most. A stage counts three: it may start a front-end,
which counts two while it runs and one until it is joined. -/
def distance (p : Process) : Nat :=
  3 * p.stage.distance + 2 * p.running.length + p.completed.length + (if p.asked then 0 else 1) +
    (p.store.map Supervision.distance).getD 5

/-- Whether a move is the process's own or the end of a front-end that it waits for. -/
def Move.isOwn : Move → Bool
  | .advance | .complete _ _ | .hear | .join _ => true
  | .ask | .aside _ => false

@[simp] theorem completed_start (p : Process) (listeners : Listeners) (frontEnd : FrontEnd) :
    (p.start listeners frontEnd).completed = p.completed := by
  unfold start
  split <;> rfl

@[simp] theorem asked_start (p : Process) (listeners : Listeners) (frontEnd : FrontEnd) :
    (p.start listeners frontEnd).asked = p.asked := by
  unfold start
  split <;> rfl

theorem running_start_le (p : Process) (listeners : Listeners) (frontEnd : FrontEnd) :
    (p.start listeners frontEnd).running.length ≤ p.running.length + 1 := by
  unfold start
  split
  · exact Nat.le_succ _
  · simp

theorem distance_lt_of_own (sound : p.Sound launch) (takes : Takes launch p move next)
    (own : move.isOwn = true) : next.distance < p.distance := by
  have tended := sound.tended
  cases takes with
  | refuse here | refuseAgain here | undescribed here | tell here | drained here | finish here
  | unboundHttp here | boundHttp here | unboundGrpc here | boundGrpc here | hear here =>
    simp only [distance, here, Stage.distance]
    omega
  | create here =>
    simp only [Tended, here] at tended
    have fresh : (Supervision.new launch.config.sweepInterval Table.empty).start.distance = 5 := rfl
    simp only [distance, here, Stage.distance, tended, Option.map_some, Option.map_none,
      Option.getD_some, Option.getD_none, fresh]
    omega
  | @startGrpc listeners here | @startHttp listeners here =>
    have one := p.running_start_le listeners
    simp only [distance, here, Stage.distance, completed_start, asked_start, store_start]
    have grpc := one .grpc
    have http := one .http
    omega
  | callStop here held stepped =>
    obtain ⟨kept, going, none⟩ := tended.served here held
    obtain ⟨-, loops, -, loop, stops⟩ := kept.stop going none stepped
    simp only [distance, here, Stage.distance, held, Option.map_some, Option.getD_some,
      Supervision.distance, loops, stops, none, StopPhase.sectionsLeft]
    omega
  | stopOn here held isSection stepped =>
    obtain ⟨kept, phase, only, -⟩ := tended.stopping here held
    obtain ⟨-, loops, next, stops, -, fewer, -⟩ := kept.stopSection only isSection stepped
    simp only [distance, held, Option.map_some, Option.getD_some, Supervision.distance, loops,
      stops, only]
    omega
  | complete runs =>
    have some := List.length_pos_of_mem runs
    simp only [distance, List.length_erase_of_mem runs, List.length_append, List.length_singleton]
    omega
  | joinFirst here done | joinNext here done =>
    have bound := (List.getElem?_eq_some_iff.mp done).1
    simp only [distance, here, Stage.distance, List.length_eraseIdx_of_lt bound]
    omega
  | ask | aside => cases own

/-- What goes on around a process takes it no further away. -/
theorem distance_le_of_other (sound : p.Sound launch) (takes : Takes launch p move next)
    (other : move.isOwn = false) : next.distance ≤ p.distance := by
  cases takes with
  | ask =>
    simp only [distance, if_true]
    split <;> omega
  | aside held isAside stepped =>
    have kept := sound.tended.kept held
    have nearer := kept.distance_aside isAside stepped
    simp only [distance, held, Option.map_some, Option.getD_some]
    omega
  | _ => cases other

/-- However a run of moves is mixed, few of them are the process's own. -/
theorem countP_isOwn_le (sound : p.Sound launch) {moves : List Move}
    (ran : p.run launch moves = some next) :
    moves.countP Move.isOwn + next.distance ≤ p.distance := by
  induction moves generalizing p with
  | nil =>
    obtain rfl := Option.some.inj ran
    simp
  | cons move rest ih =>
    rw [run_cons] at ran
    obtain ⟨mid, stepped, ran⟩ := Option.bind_eq_some_iff.mp ran
    have further := ih (sound.step stepped) ran
    have takes := takes_of_step stepped
    rw [List.countP_cons]
    cases own : move.isOwn with
    | true =>
      have nearer := distance_lt_of_own sound takes own
      simp only [if_true]
      omega
    | false =>
      have nearer := distance_le_of_other sound takes own
      simp only [Bool.false_eq_true, if_false]
      omega

/-- However often it is asked to shut down and whatever its clients do, a process makes at most
thirty-six moves of its own, the ends of its front-ends included. -/
theorem countP_isOwn_of_run {moves : List Move} (ran : fresh.run launch moves = some p) :
    moves.countP Move.isOwn ≤ 36 :=
  Nat.le_trans (Nat.le_add_right _ _) (countP_isOwn_le (sound_fresh launch) ran)

/-- Wherever a process stands, something can happen that brings it nearer to its return. -/
theorem exists_nearer (sound : p.Sound launch) (going : ∀ result, p.stage ≠ .returned result) :
    ∃ move next, p.step launch move = some next ∧ next.distance < p.distance := by
  have own (move : Move) {next : Process} (isOwn : move.isOwn = true)
      (stepped : p.step launch move = some next) :
      ∃ move next, p.step launch move = some next ∧ next.distance < p.distance :=
    ⟨move, next, stepped, distance_lt_of_own sound (takes_of_step stepped) isOwn⟩
  have tended := sound.tended
  cases here : p.stage with
  | begun | bindingHttp | bindingGrpc http | startingGrpc listeners | startingHttp listeners
  | telling result =>
    exact own .advance rfl (by simp only [step, advance?, here]; rfl)
  | waiting =>
    cases asked : p.asked with
    | false => exact ⟨.ask, _, rfl, by simp [distance, asked]⟩
    | true => exact own .hear rfl (by simp only [step, hear?, here, asked]; rfl)
  | draining result =>
    cases completed : p.completed with
    | cons server rest =>
      exact own (.join 0) rfl (by simp [step, join?, completed, stageAfter?, here]; rfl)
    | nil =>
      cases running : p.running with
      | cons frontEnd rest =>
        exact own (.complete frontEnd (.ok ())) rfl (by simp [step, complete?, running]; rfl)
      | nil => exact own .advance rfl (by simp [step, advance?, here, completed, running]; rfl)
  | served result =>
    simp only [Tended, here] at tended
    obtain ⟨store, held, kept, -⟩ := tended
    have locks : store.step .stop = some store.lock := by simp [Supervision.step, kept.attached]
    exact own .advance rfl (by simp [step, advance?, here, moveStore?, held, locks]; rfl)
  | stopping result =>
    simp only [Tended, here] at tended
    obtain ⟨store, phase, held, kept, only, waits⟩ := tended
    have called : p.stop? = some phase := by simp [stop?, held, only]
    have stops {next : Process} (moved : p.stopOn? result = some next) :
        ∃ move next, p.step launch move = some next ∧ next.distance < p.distance :=
      own .advance rfl
        ((by simp only [step, advance?, here] : p.step launch .advance = _).trans moved)
    have advances {inner : Supervision.Move} {after : Supervision}
        (moves : store.step inner = some after) (isNext : p.stopOn? result = p.moveStore? inner) :
        ∃ move next, p.step launch move = some next ∧ next.distance < p.distance :=
      stops (isNext.trans (by simp only [moveStore?, held, moves, Option.map_some]; rfl))
    -- A stop that has signalled is held up by the loop alone, which ends when it
    -- looks at its channel.
    have notices (signalled : store.Signalled) (runs : store.loops ≠ [none]) :
        ∃ move next, p.step launch move = some next ∧ next.distance < p.distance := by
      obtain ⟨after, moves, nearer⟩ := kept.exists_notice signalled runs
      refine ⟨.aside (.notice 0), { p with store := some after }, ?_, ?_⟩
      · simp [step, aside?, held, Supervision.Move.isAside, moves]
      · simp only [distance, held, Option.map_some, Option.getD_some]
        omega
    cases phase with
    | locked handle =>
      exact advances (Supervision.step_send_of_locked only) (by simp only [stopOn?, called])
    | joining loop =>
      by_cases ended : store.loops = [none]
      · exact advances (kept.step_join ended only) (by simp only [stopOn?, called])
      · exact notices (.inl ⟨_, only ▸ List.mem_singleton_self _, rfl⟩) ended
    | leaving receiver =>
      by_cases ended : store.loops = [none]
      · exact advances (kept.step_leave ended only) (by simp only [stopOn?, called])
      · exact notices (.inl ⟨_, only ▸ List.mem_singleton_self _, rfl⟩) ended
    | returned => exact stops (by simp only [stopOn?, called]; rfl)
    | cancelled => exact absurd rfl waits
  | returned result => exact absurd here (going result)

/-- A process can always go on to its return. -/
theorem exists_return (sound : p.Sound launch) :
    ∃ further later result, p.run launch further = some later ∧ later.stage = .returned result := by
  -- By induction on the distance, since a process that has not returned has a
  -- move which lessens it.
  induction far : p.distance using Nat.strongRecOn generalizing p with
  | ind far ih =>
    by_cases going : ∀ result, p.stage ≠ .returned result
    · obtain ⟨move, next, stepped, nearer⟩ := exists_nearer sound going
      obtain ⟨further, later, result, ran, returned⟩ :=
        ih next.distance (by omega) (sound.step stepped) rfl
      refine ⟨move :: further, later, result, ?_, returned⟩
      rw [run_cons, stepped]
      exact ran
    · obtain ⟨result, returned⟩ := Classical.not_forall_not.mp going
      exact ⟨[], p, result, rfl, returned⟩

end Process

end ExpiringStore
