import ExpiringStore.Proofs.Process.Invariants
import ExpiringStore.Server.Run

/-!
# The course of a process

What a process has done by the time it stands where it does. Once it has returned, its steps and its
result are those of a server's run whose ending is the one that the process has met.
-/
namespace ExpiringStore

def Launch.attempts (launch : Launch) : List Step := (Listeners.bind launch.config launch.network).1

def Launch.bound (launch : Launch) : Except ServerError Listeners :=
  (Listeners.bind launch.config launch.network).2

namespace Process

variable {launch : Launch} {p next : Process} {move : Move}

/-- A process that serves: all that is enabled is bound, and gRPC can be
described where it is bound. -/
structure Serves (launch : Launch) (listeners : Listeners) : Prop where
  valid : launch.config.validate = .ok ()
  bound : launch.bound = .ok listeners
  described : listeners.grpc.isSome = true → launch.reflection = .ok ()

/-- With which starts, which end and which result a process with a store comes to stop it. -/
inductive Comes (launch : Launch) (ending : Ending) : List Step → List Step →
    Except ServerError Unit → Prop
  | unbound {e : ServerError} (bound : launch.bound = .error e) :
    Comes launch ending [] [] (.error e)
  | undescribed {listeners : Listeners} {cause : String} (bound : launch.bound = .ok listeners)
    (grpc : listeners.grpc.isSome = true) (unbuilt : launch.reflection = .error cause) :
    Comes launch ending [] [] (.error (.reflection cause))
  | served {listeners : Listeners} (serves : Serves launch listeners) :
    Comes launch ending listeners.start ending.conclude.1 ending.conclude.2

/-- What the stop of the store has still to report. -/
def owed (p : Process) : List Step :=
  match p.stop? with
  | some phase => phase.owes.map .log
  | none => []

def closing : List Step := [.stopStore, .log .sweeperStopped]

/-- What has been done by the time a process stands where it does. -/
def Follows (launch : Launch) (p : Process) : Prop :=
  match p.stage with
  | .begun => p.ending = ⟨false, []⟩ ∧ p.steps = []
  | .bindingHttp => p.ending = ⟨false, []⟩ ∧ launch.config.validate = .ok () ∧
    p.steps = launch.config.opening
  | .bindingGrpc http =>
    p.ending = ⟨false, []⟩ ∧ launch.config.validate = .ok () ∧
      ∃ steps, Listeners.bindOne launch.config launch.network [] .http = (steps, .ok http) ∧
        p.steps = launch.config.opening ++ steps
  | .startingGrpc listeners =>
    p.ending = ⟨false, []⟩ ∧ launch.config.validate = .ok () ∧ launch.bound = .ok listeners ∧
      p.steps = launch.config.opening ++ launch.attempts
  | .startingHttp listeners =>
    p.ending = ⟨false, []⟩ ∧ Serves launch listeners ∧
      p.steps = launch.config.opening ++ launch.attempts ++ listeners.startOne .grpc
  | .waiting =>
    p.ending = ⟨false, []⟩ ∧ ∃ listeners, Serves launch listeners ∧
      p.steps = launch.config.opening ++ launch.attempts ++ listeners.start
  | .telling result =>
    (p.ending.signalled = true ∨ p.ending.joined ≠ []) ∧ ∃ listeners, Serves launch listeners ∧
      p.steps ++ [.tellShutdown] =
        launch.config.opening ++ launch.attempts ++ listeners.start ++ p.ending.conclude.1 ∧
      result = p.ending.conclude.2
  | .draining result =>
    (p.ending.signalled = true ∨ p.ending.joined ≠ []) ∧ ∃ listeners, Serves launch listeners ∧
      p.steps = launch.config.opening ++ launch.attempts ++ listeners.start ++ p.ending.conclude.1 ∧
      result = p.ending.conclude.2
  | .served result =>
    launch.config.validate = .ok () ∧ ∃ starts ends, Comes launch p.ending starts ends result ∧
      p.steps = launch.config.opening ++ launch.attempts ++ starts ++ ends
  | .stopping result =>
    launch.config.validate = .ok () ∧ ∃ starts ends, Comes launch p.ending starts ends result ∧
      p.steps ++ p.owed = launch.config.opening ++ launch.attempts ++ starts ++ ends ++ closing
  | .returned result =>
    (∃ e, launch.config.validate = .error e ∧ result = .error e ∧ p.store = none ∧ p.steps = []) ∨
      launch.config.validate = .ok () ∧ p.store.isSome = true ∧
        ∃ starts ends, Comes launch p.ending starts ends result ∧
          p.steps = launch.config.opening ++ launch.attempts ++ starts ++ ends ++ closing

@[simp] theorem ending_start (p : Process) (listeners : Listeners) (frontEnd : FrontEnd) :
    (p.start listeners frontEnd).ending = p.ending := by
  unfold start
  split <;> rfl

theorem Follows.takes (follows : p.Follows launch) (tended : p.Tended)
    (takes : Takes launch p move next) : next.Follows launch := by
  cases takes with
  | refuse here invalid =>
    simp only [Follows, here] at follows
    simp only [Tended, here] at tended
    exact .inl ⟨_, invalid, rfl, tended, follows.2⟩
  | create here valid =>
    simp only [Follows, here] at follows
    obtain ⟨untold, none⟩ := follows
    exact ⟨untold, valid, by rw [none, List.nil_append]⟩
  | refuseAgain here invalid =>
    simp only [Follows, here] at follows
    cases follows.2.1.symm.trans invalid
  | @unboundHttp steps e here valid tried =>
    simp only [Follows, here] at follows
    obtain ⟨-, -, done⟩ := follows
    have bound : Listeners.bind launch.config launch.network = (steps, .error e) := by
      simp only [Listeners.bind, valid, tried]
    refine ⟨valid, [], [], .unbound (congrArg Prod.snd bound), ?_⟩
    simp [done, Launch.attempts, bound]
  | boundHttp here valid tried =>
    simp only [Follows, here] at follows
    obtain ⟨untold, -, done⟩ := follows
    exact ⟨untold, valid, _, tried, by rw [done]⟩
  | @unboundGrpc http more e here tried =>
    simp only [Follows, here] at follows
    obtain ⟨-, valid, steps, first, done⟩ := follows
    have bound : Listeners.bind launch.config launch.network = (steps ++ more, .error e) := by
      simp only [Listeners.bind, valid, first, tried]
    refine ⟨valid, [], [], .unbound (congrArg Prod.snd bound), ?_⟩
    simp [done, Launch.attempts, bound]
  | @boundGrpc http grpc more here tried =>
    simp only [Follows, here] at follows
    obtain ⟨untold, valid, steps, first, done⟩ := follows
    have bound : Listeners.bind launch.config launch.network =
        (steps ++ more, .ok ⟨http, grpc⟩) := by
      simp only [Listeners.bind, valid, first, tried]
    exact ⟨untold, valid, congrArg Prod.snd bound, by simp [done, Launch.attempts, bound]⟩
  | undescribed here grpc unbuilt =>
    simp only [Follows, here] at follows
    obtain ⟨-, valid, bound, done⟩ := follows
    exact ⟨valid, [], [], .undescribed bound grpc unbuilt, by simp [done]⟩
  | startGrpc here described =>
    simp only [Follows, here] at follows
    obtain ⟨untold, valid, bound, done⟩ := follows
    exact ⟨(ending_start ..).trans untold, ⟨valid, bound, described⟩, by rw [steps_start, done]⟩
  | startHttp here =>
    simp only [Follows, here] at follows
    obtain ⟨untold, serves, done⟩ := follows
    refine ⟨(ending_start ..).trans untold, _, serves, ?_⟩
    rw [steps_start, done, List.append_assoc _ (Listeners.startOne _ _), Listeners.start]
  | tell here =>
    simp only [Follows, here] at follows
    exact follows
  | drained here =>
    simp only [Follows, here] at follows
    obtain ⟨-, listeners, serves, done, rfl⟩ := follows
    exact ⟨serves.valid, _, _, .served serves, done⟩
  | callStop here held stepped =>
    simp only [Follows, here] at follows
    obtain ⟨valid, starts, ends, comes, done⟩ := follows
    obtain ⟨kept, going, none⟩ := tended.served here held
    obtain ⟨-, -, log, loop, stops⟩ := kept.stop going none stepped
    refine ⟨valid, starts, ends, comes, ?_⟩
    simp [owed, stop?, stops, log, StopPhase.owes, closing, done]
  | stopOn here held own stepped =>
    simp only [Follows, here] at follows ⊢
    obtain ⟨valid, starts, ends, comes, done⟩ := follows
    obtain ⟨kept, phase, only, -⟩ := tended.stopping here held
    obtain ⟨-, -, next, stops, -, -, owes⟩ := kept.stopSection only own stepped
    refine ⟨valid, starts, ends, comes, ?_⟩
    rw [← done]
    simp [owed, stop?, held, only, stops, ← owes]
  | finish here ended =>
    simp only [Follows, here] at follows
    simp only [Tended, here] at tended
    obtain ⟨valid, starts, ends, comes, done⟩ := follows
    obtain ⟨store, -, held, -⟩ := tended
    refine .inr ⟨valid, by rw [held]; rfl, starts, ends, comes, ?_⟩
    rw [← done, owed, ended]
    exact (List.append_nil _).symm
  | ask | complete => exact follows
  | hear here =>
    simp only [Follows, here] at follows
    obtain ⟨untold, listeners, serves, done⟩ := follows
    refine ⟨.inl rfl, listeners, serves, ?_, ?_⟩
    · simp [done, untold, Ending.conclude_of_signal, Ending.drain]
    · simp [untold, Ending.conclude_of_signal, Ending.drain]
  | joinFirst here =>
    simp only [Follows, here] at follows
    obtain ⟨untold, listeners, serves, done⟩ := follows
    refine ⟨.inr (by simp), listeners, serves, ?_, ?_⟩
    · simp [done, untold, Ending.conclude_of_first, Ending.drain]
    · simp [untold, Ending.conclude_of_first, Ending.drain]
  | joinNext here =>
    simp only [Follows, here] at follows
    obtain ⟨begun, listeners, serves, done, rfl⟩ := follows
    refine ⟨.inr (by simp), listeners, serves, ?_, ?_⟩
    · rw [Ending.conclude_concat begun, done, List.append_assoc]
    · rw [Ending.conclude_concat begun]
  | aside held isAside stepped =>
    -- What is still owed depends on the sweeper, but not on its loop nor on its clients.
    cases here : p.stage with
    | stopping result =>
      simp only [Follows, here] at follows ⊢
      obtain ⟨valid, starts, ends, comes, done⟩ := follows
      obtain ⟨-, stops, -⟩ := (tended.stopping here held).1.aside isAside stepped
      refine ⟨valid, starts, ends, comes, ?_⟩
      rw [← done]
      simp [owed, stop?, held, stops]
    | returned result =>
      simp only [Follows, here] at follows ⊢
      obtain ⟨_, _, _, none, _⟩ | ⟨valid, -, served⟩ := follows
      · cases held.symm.trans none
      · exact .inr ⟨valid, rfl, served⟩
    | _ => simpa only [Follows, here] using follows

/-- What holds of a process however it and its surroundings move. -/
structure Sound (launch : Launch) (p : Process) : Prop where
  tended : p.Tended
  tracked : p.Tracked
  follows : p.Follows launch

theorem sound_fresh (launch : Launch) : fresh.Sound launch := ⟨rfl, tracked_fresh, rfl, rfl⟩

theorem Sound.step (sound : p.Sound launch) (stepped : p.step launch move = some next) :
    next.Sound launch :=
  have takes := takes_of_step stepped
  ⟨sound.tended.takes takes, sound.tracked.takes takes, sound.follows.takes sound.tended takes⟩

theorem Sound.run (sound : p.Sound launch) {moves : List Move}
    (ran : p.run launch moves = some next) :
    next.Sound launch :=
  run_induction (fun sound stepped => sound.step stepped) sound ran

/-- The run of a server that has something to serve: the store is created first and stopped last. -/
theorem run_of_valid {config : Config} (network : Network) (now : Instant)
    (ending : List FrontEnd → Ending) (valid : config.validate = .ok ()) :
    Server.run config network now ending =
      { steps := config.opening ++ (Server.bindAndServe config network ending).1 ++ closing
        store := some (Store.create config.sweepInterval now).1.stop.1
        result := (Server.bindAndServe config network ending).2 } := by
  simp only [Server.run, valid]
  rfl

/-- A process that has returned has done what the server's run does with the same ending, with the
same result, and its sweeper is where that of the run is. -/
theorem eq_run_of_returned {moves : List Move} {result : Except ServerError Unit}
    (ran : fresh.run launch moves = some p) (returned : p.stage = .returned result)
    (built : launch.reflection = .ok ()) (now : Instant) :
    let report := Server.run launch.config launch.network now fun _ => p.ending
    p.steps = report.steps ∧ result = report.result ∧
      p.store.map Supervision.state = report.store.map fun store => store.sweeper.state := by
  intro report
  have sound := (sound_fresh launch).run ran
  have follows := sound.follows
  have tended := sound.tended
  simp only [Follows, returned] at follows
  simp only [Tended, returned] at tended
  rcases follows with ⟨e, invalid, rfl, none, done⟩ | ⟨valid, some, starts, ends, comes, done⟩
  · have refused : report = ⟨[], .none, .error e⟩ := by simp only [report, Server.run, invalid]
    rw [refused, none, done]
    exact ⟨rfl, rfl, rfl⟩
  · obtain ⟨store, held⟩ := Option.isSome_iff_exists.mp some
    have stopped := (tended store held).1.ended (tended store held).2
    have report_eq := run_of_valid launch.network now (fun _ => p.ending) valid
    have bindAndServe_eq : Server.bindAndServe launch.config launch.network (fun _ => p.ending) =
        (launch.attempts ++ (starts ++ ends), result) := by
      unfold Server.bindAndServe
      cases bound : Listeners.bind launch.config launch.network with | mk steps outcome =>
      cases comes with
      | unbound failed =>
        obtain rfl : outcome = _ := by simpa only [Launch.bound, bound] using failed
        simp [Launch.attempts, bound]
      | undescribed _ _ unbuilt => cases built.symm.trans unbuilt
      | served serves =>
        obtain rfl : outcome = _ := by simpa only [Launch.bound, bound] using serves.bound
        simp [Launch.attempts, bound, Server.serve]
    rw [held, Option.map_some, stopped.1, done]
    simp only [report, report_eq, bindAndServe_eq, List.append_assoc, true_and]
    rfl

end Process

end ExpiringStore
