import ExpiringStore.Proofs.Process.Return

/-!
# The life of a process

However a process and its surroundings move, it returns with its sweeper ended and all its
front-ends joined, and with the first error that there was.
-/
namespace ExpiringStore

/-- Nothing keeps the enabled front-ends from serving: the network refuses none of their endpoints,
and gRPC can be described. -/
structure Launch.CanServe (launch : Launch) : Prop where
  unrefused : ∀ frontEnd endpoint cause, ¬Refuses launch.config launch.network frontEnd
    endpoint cause
  described : (launch.config.endpoint? .grpc).isSome = true → launch.reflection = .ok ()

namespace Process

variable {launch : Launch} {p next : Process} {move : Move} {result : Except ServerError Unit}

/-! ## With which results front-ends are joined -/

/-- Whether a front-end has completed with this result, be it joined or not. -/
def HasCompleted (p : Process) (server : FrontEnd × Except ServerError Unit) : Prop :=
  server ∈ p.completed ∨ server ∈ p.ending.joined

theorem mem_joined_iff {completed joined : List (FrontEnd × Except ServerError Unit)} {place : Nat}
    {server other : FrontEnd × Except ServerError Unit} (done : completed[place]? = some other) :
    (server ∈ completed.eraseIdx place ∨ server ∈ joined ++ [other]) ↔
      server ∈ completed ∨ server ∈ joined := by
  obtain ⟨bound, rfl⟩ := List.getElem?_eq_some_iff.mp done
  have same := (List.getElem_cons_eraseIdx_perm bound).mem_iff (a := server)
  rw [← same, List.mem_cons, List.mem_append, List.mem_singleton]
  tauto

/-- A front-end completes with the result of its own move, and joining it keeps the result. -/
theorem hasCompleted_of_step (stepped : p.step launch move = some next)
    (server : FrontEnd × Except ServerError Unit) :
    next.HasCompleted server ↔ p.HasCompleted server ∨ move = .complete server.1 server.2 := by
  cases takes_of_step stepped with
  | startGrpc | startHttp => simp [HasCompleted]
  | @complete frontEnd result =>
    obtain ⟨other, outcome⟩ := server
    simp only [HasCompleted, List.mem_append, List.mem_singleton, Prod.mk.injEq,
      Move.complete.injEq]
    tauto
  | joinFirst here done | joinNext here done =>
    simpa [HasCompleted] using mem_joined_iff done
  | _ => simp [HasCompleted]

theorem hasCompleted_of_run {moves : List Move} (ran : p.run launch moves = some next)
    (server : FrontEnd × Except ServerError Unit) :
    next.HasCompleted server ↔ p.HasCompleted server ∨ .complete server.1 server.2 ∈ moves := by
  induction moves generalizing p with
  | nil =>
    obtain rfl := Option.some.inj ran
    simp
  | cons move rest ih =>
    rw [run_cons] at ran
    obtain ⟨mid, stepped, ran⟩ := Option.bind_eq_some_iff.mp ran
    rw [ih ran, hasCompleted_of_step stepped, List.mem_cons, or_assoc, eq_comm (a := move)]

/-! ## How a process returns -/

/-- The steps of a process that has stopped its store, part by part. -/
def segment (launch : Launch) (starts ends : List Step) : Step.Part → List Step
  | .creating => launch.config.opening
  | .binding => launch.attempts
  | .starting => starts
  | .ending => ends
  | .stopping => closing

namespace Comes

variable {ending : Ending} {starts ends steps : List Step} {step : Step}

theorem allIn (comes : Comes launch ending starts ends result)
    (valid : launch.config.validate = .ok ()) (part : Step.Part) :
    Step.AllIn part (segment launch starts ends part) := by
  cases part with
  | creating => exact allIn_opening launch.config
  | binding => exact (Listeners.attempts_bind launch.network valid).only
  | starting =>
    cases comes with
    | unbound | undescribed => exact List.forall_mem_nil _
    | @served listeners => exact listeners.allIn_start
  | ending =>
    cases comes with
    | unbound | undescribed => exact List.forall_mem_nil _
    | served => exact ending.allIn_conclude
  | stopping => simp [segment, closing, Step.AllIn, Step.part?]

/-- A step is found in the part of the run that it belongs to. -/
theorem mem_iff (comes : Comes launch ending starts ends result)
    (valid : launch.config.validate = .ok ()) (part : Step.Part)
    (belongs : step.part? = some part) :
    step ∈ launch.config.opening ++ launch.attempts ++ starts ++ ends ++ closing ↔
      step ∈ segment launch starts ends part := by
  have elsewhere (other : Step.Part) (differs : part ≠ other) :
      step ∉ segment launch starts ends other :=
    (comes.allIn valid other).not_mem part belongs differs
  have creating := elsewhere .creating
  have binding := elsewhere .binding
  have starting := elsewhere .starting
  have ending := elsewhere .ending
  have stopping := elsewhere .stopping
  cases part <;> simp_all [segment]

theorem count_createStore (comes : Comes launch ending starts ends result)
    (valid : launch.config.validate = .ok ()) :
    (launch.config.opening ++ launch.attempts ++ starts ++ ends ++ closing).count
      .createStore = 1 := by
  have elsewhere (part : Step.Part) (differs : .creating ≠ part) :
      (segment launch starts ends part).count .createStore = 0 :=
    List.count_eq_zero_of_not_mem ((comes.allIn valid part).not_mem .creating rfl differs)
  have binding := elsewhere .binding (by decide)
  have starting := elsewhere .starting (by decide)
  have ending := elsewhere .ending (by decide)
  simp only [segment] at binding starting ending
  simp [List.count_append, binding, starting, ending, Config.opening, closing]

/-- Behind a start comes what ends the serving, and then the stop of the store. -/
theorem sublist_of_start {frontEnd : FrontEnd} (started : .start frontEnd ∈ starts)
    (ending : step ∈ ends) :
    [.start frontEnd, step, .stopStore].Sublist
      (launch.config.opening ++ launch.attempts ++ starts ++ ends ++ closing) := by
  have first := List.singleton_sublist.mpr started
  have second := List.singleton_sublist.mpr ending
  have third : [Step.stopStore].Sublist closing := List.sublist_append_left [_] [_]
  exact (((List.nil_sublist _).append first).append second).append third

/-- Where something is started, the front-ends are told to shut down before serving ends. -/
theorem tellShutdown_mem {frontEnd : FrontEnd} (comes : Comes launch ending starts ends result)
    (started : .start frontEnd ∈ starts) : .tellShutdown ∈ ends := by
  cases comes with
  | unbound | undescribed => cases started
  | served => exact ending.tellShutdown_mem_conclude

/-- Where an endpoint is refused, nothing is started, and the refusal is the result. -/
theorem of_refused (comes : Comes launch ending starts ends result)
    (valid : launch.config.validate = .ok ()) {frontEnd : FrontEnd} {endpoint : Endpoint}
    {cause : OsError} (refused : Refuses launch.config launch.network frontEnd endpoint cause) :
    starts = [] ∧ result = .error (.bind frontEnd endpoint cause.message) := by
  have failed : launch.bound = .error (.bind frontEnd endpoint cause.message) :=
    (Listeners.bind_eq_error_iff valid).mpr ⟨frontEnd, endpoint, cause, refused, rfl⟩
  cases comes with
  | unbound bound =>
    rw [Except.error.inj (bound.symm.trans failed)]
    exact ⟨rfl, rfl⟩
  | undescribed bound => cases bound.symm.trans failed
  | served serves => cases serves.bound.symm.trans failed

/-- Where gRPC is bound but cannot be described, nothing is started either. -/
theorem of_undescribed (comes : Comes launch ending starts ends result)
    (valid : launch.config.validate = .ok ())
    (unrefused : ∀ frontEnd endpoint cause,
      ¬Refuses launch.config launch.network frontEnd endpoint cause)
    (enabled : (launch.config.endpoint? .grpc).isSome = true) {cause : String}
    (unbuilt : launch.reflection = .error cause) :
    starts = [] ∧ result = .error (.reflection cause) := by
  cases comes with
  | unbound bound =>
    obtain ⟨frontEnd, endpoint, cause, refused, -⟩ := (Listeners.bind_eq_error_iff valid).mp bound
    exact absurd refused (unrefused frontEnd endpoint cause)
  | undescribed _ _ also =>
    rw [Except.error.inj (also.symm.trans unbuilt)]
    exact ⟨rfl, rfl⟩
  | served serves =>
    have grpc := (Listeners.isSome_endpoint_of_bind valid serves.bound .grpc).trans enabled
    cases (serves.described grpc).symm.trans unbuilt

end Comes

/-- Where nothing keeps them from it, the enabled front-ends are started, and what is joined first
with an error decides. -/
theorem Comes.of_canServe {ending : Ending} {starts ends : List Step}
    (comes : Comes launch ending starts ends result) (valid : launch.config.validate = .ok ())
    (canServe : launch.CanServe) :
    (∀ frontEnd, .start frontEnd ∈ starts ↔ (launch.config.endpoint? frontEnd).isSome = true) ∧
      result = (Ending.drain (.ok ()) ending.joined).2 := by
  cases comes with
  | unbound bound =>
    obtain ⟨frontEnd, endpoint, cause, refused, -⟩ := (Listeners.bind_eq_error_iff valid).mp bound
    exact absurd refused (canServe.unrefused frontEnd endpoint cause)
  | undescribed bound grpc unbuilt =>
    have enabled := (Listeners.isSome_endpoint_of_bind valid bound .grpc).symm.trans grpc
    cases (canServe.described enabled).symm.trans unbuilt
  | @served listeners serves =>
    refine ⟨fun frontEnd => ?_, ending.conclude_snd⟩
    have same := Listeners.isSome_endpoint_of_bind valid serves.bound frontEnd
    rw [← Step.mem_filterMap_started, listeners.started_start, Listeners.mem_started, same]

/-- How a process returns that has something to serve, after `moves`. -/
structure Concluded (launch : Launch) (moves : List Move) (p : Process)
    (result : Except ServerError Unit) : Prop where
  oneStore : p.steps.count .createStore = 1
  httpFirst : ∀ grpc, .bind .grpc grpc ∈ p.steps →
    ∀ http, launch.config.endpoint? .http = some http →
      [.bind .http http, .bind .grpc grpc].Sublist p.steps ∧
      ∃ actual, launch.network.listen [] http = .ok actual
  refused : ∀ frontEnd endpoint cause,
    Refuses launch.config launch.network frontEnd endpoint cause →
      result = .error (.bind frontEnd endpoint cause.message) ∧ ∀ other, .start other ∉ p.steps
  undescribed :
    (∀ frontEnd endpoint cause, ¬Refuses launch.config launch.network frontEnd endpoint cause) →
    (launch.config.endpoint? .grpc).isSome = true → ∀ cause, launch.reflection = .error cause →
      result = .error (.reflection cause) ∧ ∀ other, .start other ∉ p.steps
  started : launch.CanServe →
    ∀ frontEnd, .start frontEnd ∈ p.steps ↔ (launch.config.endpoint? frontEnd).isSome = true
  toldAndJoined : ∀ frontEnd, .start frontEnd ∈ p.steps →
    [.start frontEnd, .tellShutdown, .stopStore].Sublist p.steps ∧
      [.start frontEnd, .join frontEnd, .stopStore].Sublist p.steps
  joinedInOrder : p.steps.filterMap Step.joined? = p.ending.joined.map Prod.fst
  outcomes : ∀ frontEnd outcome, (frontEnd, outcome) ∈ p.ending.joined ↔
    .complete frontEnd outcome ∈ moves
  allFine : launch.CanServe → (result = .ok () ↔ ∀ server ∈ p.ending.joined, server.2 = .ok ())
  firstError : launch.CanServe → ∀ e, result = .error e ↔
    ∃ before frontEnd after, p.ending.joined = before ++ (frontEnd, .error e) :: after ∧
      ∀ server ∈ before, server.2 = .ok ()
  noneRuns : p.running = [] ∧ p.completed = []
  sweeperEnded : ∃ store, p.store = some store ∧ store.state = .stopped ∧ store.loops = [none]

theorem concluded_of_returned {moves : List Move} (ran : fresh.run launch moves = some p)
    (valid : launch.config.validate = .ok ()) (returned : p.stage = .returned result) :
    Concluded launch moves p result := by
  have sound := (sound_fresh launch).run ran
  have follows := sound.follows
  have tended := sound.tended
  simp only [Follows, returned] at follows
  simp only [Tended, returned] at tended
  obtain ⟨noneRuns, noneLeft⟩ := sound.tracked.idle (by rw [returned]; rfl)
  obtain ⟨_, invalid, -⟩ | ⟨-, some, starts, ends, comes, done⟩ := follows
  · cases valid.symm.trans invalid
  have attempts := Listeners.attempts_bind launch.network valid
  have isStart (frontEnd : FrontEnd) : .start frontEnd ∈ p.steps ↔ .start frontEnd ∈ starts :=
    done ▸ comes.mem_iff valid .starting rfl
  have isBind (frontEnd : FrontEnd) (endpoint : Endpoint) :
      .bind frontEnd endpoint ∈ p.steps ↔ .bind frontEnd endpoint ∈ launch.attempts :=
    done ▸ comes.mem_iff valid .binding rfl
  refine ⟨?_, ?_, ?_, ?_, ?_, ?_, sound.tracked.joined, ?_, ?_, ?_, ⟨noneRuns, noneLeft⟩, ?_⟩
  · rw [done]
    exact comes.count_createStore valid
  · intro grpc mem http enabled
    obtain ⟨inOrder, listens⟩ := attempts.httpFirst grpc ((isBind .grpc grpc).mp mem) http enabled
    refine ⟨?_, listens⟩
    rw [done]
    simp only [List.append_assoc]
    exact (inOrder.trans (List.sublist_append_left ..)).trans (List.sublist_append_right ..)
  · intro frontEnd endpoint cause refused
    obtain ⟨none, rfl⟩ := comes.of_refused valid refused
    exact ⟨rfl, fun other mem => by simp [isStart, none] at mem⟩
  · intro unrefused enabled cause unbuilt
    obtain ⟨none, rfl⟩ := comes.of_undescribed valid unrefused enabled unbuilt
    exact ⟨rfl, fun other mem => by simp [isStart, none] at mem⟩
  · intro canServe frontEnd
    exact (isStart frontEnd).trans ((comes.of_canServe valid canServe).1 frontEnd)
  · intro frontEnd started
    -- None runs and none is left to join, so every front-end that was started has been joined.
    have joined : .join frontEnd ∈ p.steps := by
      have all := sound.tracked.started
      rw [noneRuns, noneLeft, List.map_nil, List.append_nil, List.nil_append,
        ← sound.tracked.joined] at all
      exact Step.mem_filterMap_joined.mp (all.mem_iff.mpr (Step.mem_filterMap_started.mpr started))
    have inStarts := (isStart frontEnd).mp started
    rw [done] at joined ⊢
    exact ⟨Comes.sublist_of_start inStarts (comes.tellShutdown_mem inStarts),
      Comes.sublist_of_start inStarts ((comes.mem_iff valid .ending rfl).mp joined)⟩
  · intro frontEnd outcome
    have known := hasCompleted_of_run ran (frontEnd, outcome)
    simpa [HasCompleted, noneLeft, fresh] using known
  · intro canServe
    rw [(comes.of_canServe valid canServe).2]
    exact Ending.drain_eq_ok_iff
  · intro canServe e
    rw [(comes.of_canServe valid canServe).2]
    exact Ending.drain_eq_error_iff
  · obtain ⟨store, held⟩ := Option.isSome_iff_exists.mp some
    obtain ⟨kept, stops⟩ := tended store held
    exact ⟨store, held, kept.ended stops⟩

/-- A process with nothing to serve does nothing. -/
theorem idle_of_invalid {moves : List Move} {e : ServerError}
    (ran : fresh.run launch moves = some p) (invalid : launch.config.validate = .error e) :
    p.store = none ∧ p.steps = [] ∧ ∀ result, p.stage = .returned result → result = .error e := by
  have sound := (sound_fresh launch).run ran
  have follows := sound.follows
  have tended := sound.tended
  cases here : p.stage with
  | begun =>
    simp only [Follows, here] at follows
    simp only [Tended, here] at tended
    exact ⟨tended, follows.2, by simp⟩
  | returned result =>
    simp only [Follows, here] at follows
    obtain ⟨other, also, rfl, none, done⟩ | ⟨valid, -⟩ := follows
    · refine ⟨none, done, fun result same => ?_⟩
      rw [← Stage.returned.inj same, Except.error.inj (invalid.symm.trans also)]
    · cases valid.symm.trans invalid
  | bindingHttp | bindingGrpc | startingGrpc =>
    simp only [Follows, here] at follows
    cases follows.2.1.symm.trans invalid
  | startingHttp =>
    simp only [Follows, here] at follows
    cases follows.2.1.valid.symm.trans invalid
  | waiting | telling | draining =>
    simp only [Follows, here] at follows
    obtain ⟨-, listeners, serves, -⟩ := follows
    cases serves.valid.symm.trans invalid
  | served | stopping =>
    simp only [Follows, here] at follows
    cases follows.1.symm.trans invalid

end Process

/-- Whatever the configuration, however the network answers, and in whatever order a shutdown is
asked for and front-ends complete, with whatever results: with both front-ends disabled a process
returns that there is nothing to serve, and has done nothing. Else it creates one store, binds HTTP
before gRPC and starts nothing where it cannot bind; what it has started it tells to shut down and
joins before it stops the store; its result is the refusal of an endpoint, or the first error in the
order in which front-ends are joined, or none; and its sweeper has ended. From wherever it stands it
can go on to its return. -/
theorem processes_leave_nothing_running {launch : Launch} {moves : List Process.Move} {p : Process}
    (ran : Process.fresh.run launch moves = some p) :
    (launch.config.disableHttp = true ∧ launch.config.disableGrpc = true →
      p.store = none ∧ p.steps = [] ∧
        ∀ result, p.stage = .returned result → result = .error .nothingToServe) ∧
    (¬(launch.config.disableHttp = true ∧ launch.config.disableGrpc = true) →
      ∀ result, p.stage = .returned result → p.Concluded launch moves result) ∧
    (.tellShutdown ∈ p.steps → p.shutdown.value = true) ∧
    ∃ further later result, p.run launch further = some later ∧ later.stage = .returned result := by
  have sound := (Process.sound_fresh launch).run ran
  refine ⟨?_, ?_, sound.tracked.told.mpr, Process.exists_return sound⟩
  · intro disabled
    exact Process.idle_of_invalid ran (Config.validate_of_disabled disabled)
  · intro enabled result returned
    exact Process.concluded_of_returned ran (Config.validate_eq_ok_iff.mpr enabled) returned

def Launch.unhindered : Launch where
  config := .standard
  network := ⟨fun _ wanted => .ok wanted, .error .networkUnreachable⟩
  reflection := .ok ()

/-- gRPC fails before HTTP is started and is joined although a shutdown has been asked for, HTTP
fails when it is told to shut down, and the loop sweeps once more behind the signal to end. -/
def Process.twoErrors : List Process.Move :=
  [.advance, .advance, .advance, .advance, .complete .grpc (.error (.task "panicked")), .advance,
    .aside (.serve { entries := [("k", Entry.expiringAt "v" .epoch)] }), .ask, .join 0, .advance,
    .complete .http (.error (.http "broken pipe")), .join 0, .advance, .advance, .advance,
    .aside (.sweep 0 .epoch), .aside (.notice 0), .advance, .advance, .advance]

theorem processes_leave_nothing_running_twoErrors :
    ∃ p, Process.fresh.run .unhindered Process.twoErrors = some p ∧
      p.stage = .returned (.error (.task "panicked")) ∧
      p.Concluded .unhindered Process.twoErrors (.error (.task "panicked")) := by
  have stage : (Process.fresh.run .unhindered Process.twoErrors).map Process.stage =
      some (.returned (.error (.task "panicked"))) := rfl
  obtain ⟨p, ran, returned⟩ := Option.map_eq_some_iff.mp stage
  obtain ⟨-, concluded, -, -⟩ := processes_leave_nothing_running ran
  exact ⟨p, ran, returned, concluded (by decide) _ returned⟩

end ExpiringStore
