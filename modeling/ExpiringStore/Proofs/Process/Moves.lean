import ExpiringStore.Server.Process

/-!
# What a move of a process can be

Every move by what it needs and what it leaves, so that no later proof opens a step again.
-/
namespace ExpiringStore

def Config.opening (config : Config) : List Step :=
  [.createStore, .log (.sweeperStarted config.sweepInterval.span),
    .log (.sweepInterval config.sweepIntervalMillis)]

namespace Process

variable {launch : Launch} {p next : Process} {move : Move}

/-- The sections of a stop behind its lock, for the first that is called. -/
inductive StopSection : Supervision.Move → Prop
  | send : StopSection (.send 0)
  | join : StopSection (.join 0)
  | leave : StopSection (.leave 0)

/-- What a move does. -/
inductive Takes (launch : Launch) (p : Process) : Move → Process → Prop
  | refuse {e : ServerError} (here : p.stage = .begun)
    (invalid : launch.config.validate = .error e) :
    Takes launch p .advance { p with stage := .returned (.error e) }
  | create (here : p.stage = .begun) (valid : launch.config.validate = .ok ()) :
    Takes launch p .advance
      { p with stage := .bindingHttp,
               store := some (Supervision.new launch.config.sweepInterval Table.empty).start,
               steps := p.steps ++ launch.config.opening }
  | refuseAgain {e : ServerError} (here : p.stage = .bindingHttp)
    (invalid : launch.config.validate = .error e) :
    Takes launch p .advance { p with stage := .served (.error e) }
  | unboundHttp {steps : List Step} {e : ServerError} (here : p.stage = .bindingHttp)
    (valid : launch.config.validate = .ok ())
    (tried : Listeners.bindOne launch.config launch.network [] .http = (steps, .error e)) :
    Takes launch p .advance { p with stage := .served (.error e), steps := p.steps ++ steps }
  | boundHttp {steps : List Step} {http : Option Endpoint} (here : p.stage = .bindingHttp)
    (valid : launch.config.validate = .ok ())
    (tried : Listeners.bindOne launch.config launch.network [] .http = (steps, .ok http)) :
    Takes launch p .advance { p with stage := .bindingGrpc http, steps := p.steps ++ steps }
  | unboundGrpc {http : Option Endpoint} {steps : List Step} {e : ServerError}
    (here : p.stage = .bindingGrpc http)
    (tried : Listeners.bindOne launch.config launch.network http.toList .grpc = (steps, .error e)) :
    Takes launch p .advance { p with stage := .served (.error e), steps := p.steps ++ steps }
  | boundGrpc {http grpc : Option Endpoint} {steps : List Step} (here : p.stage = .bindingGrpc http)
    (tried : Listeners.bindOne launch.config launch.network http.toList .grpc = (steps, .ok grpc)) :
    Takes launch p .advance
      { p with stage := .startingGrpc ⟨http, grpc⟩, steps := p.steps ++ steps }
  | undescribed {listeners : Listeners} {cause : String} (here : p.stage = .startingGrpc listeners)
    (bound : listeners.grpc.isSome = true) (unbuilt : launch.reflection = .error cause) :
    Takes launch p .advance { p with stage := .served (.error (.reflection cause)) }
  | startGrpc {listeners : Listeners} (here : p.stage = .startingGrpc listeners)
    (described : listeners.grpc.isSome = true → launch.reflection = .ok ()) :
    Takes launch p .advance { p.start listeners .grpc with stage := .startingHttp listeners }
  | startHttp {listeners : Listeners} (here : p.stage = .startingHttp listeners) :
    Takes launch p .advance { p.start listeners .http with stage := .waiting }
  | tell {result : Except ServerError Unit} (here : p.stage = .telling result) :
    Takes launch p .advance
      { p with stage := .draining result, shutdown := p.shutdown.send true,
               steps := p.steps ++ [.tellShutdown] }
  | drained {result : Except ServerError Unit} (here : p.stage = .draining result)
    (noneRuns : p.running = []) (noneLeft : p.completed = []) :
    Takes launch p .advance { p with stage := .served result }
  | callStop {result : Except ServerError Unit} {store after : Supervision}
    (here : p.stage = .served result) (held : p.store = some store)
    (stepped : store.step .stop = some after) :
    Takes launch p .advance
      { p with stage := .stopping result, store := some after,
               steps := p.steps ++ [.stopStore] ++ (after.log.drop store.log.length).map .log }
  | stopOn {result : Except ServerError Unit} {store after : Supervision} {inner : Supervision.Move}
    (here : p.stage = .stopping result) (held : p.store = some store) (own : StopSection inner)
    (stepped : store.step inner = some after) :
    Takes launch p .advance
      { p with store := some after, steps := p.steps ++ (after.log.drop store.log.length).map .log }
  | finish {result : Except ServerError Unit} (here : p.stage = .stopping result)
    (ended : p.stop? = some .returned) :
    Takes launch p .advance { p with stage := .returned result }
  | ask : Takes launch p .ask { p with asked := true }
  | complete {frontEnd : FrontEnd} {result : Except ServerError Unit}
    (runs : frontEnd ∈ p.running) :
    Takes launch p (.complete frontEnd result)
      { p with shutdown := p.shutdown.release, running := p.running.erase frontEnd,
               completed := p.completed ++ [(frontEnd, result)] }
  | hear (here : p.stage = .waiting) (asked : p.asked = true) :
    Takes launch p .hear
      { p with stage := .telling (.ok ()), ending := { p.ending with signalled := true },
               steps := p.steps ++ [.log .shuttingDown] }
  | joinFirst {place : Nat} {frontEnd : FrontEnd} {result : Except ServerError Unit}
    (here : p.stage = .waiting) (done : p.completed[place]? = some (frontEnd, result)) :
    Takes launch p (.join place)
      { p with stage := .telling result, completed := p.completed.eraseIdx place,
               ending := { p.ending with joined := p.ending.joined ++ [(frontEnd, result)] },
               steps := p.steps ++ Ending.joinSteps frontEnd result }
  | joinNext {place : Nat} {frontEnd : FrontEnd} {result next : Except ServerError Unit}
    (here : p.stage = .draining result) (done : p.completed[place]? = some (frontEnd, next)) :
    Takes launch p (.join place)
      { p with stage := .draining (Ending.combine result next),
               completed := p.completed.eraseIdx place,
               ending := { p.ending with joined := p.ending.joined ++ [(frontEnd, next)] },
               steps := p.steps ++ Ending.joinSteps frontEnd next }
  | aside {store after : Supervision} {others : Supervision.Move} (held : p.store = some store)
    (isAside : others.isAside = true) (stepped : store.step others = some after) :
    Takes launch p (.aside others) { p with store := some after }

theorem moveStore_cases {inner : Supervision.Move} (moved : p.moveStore? inner = some next) :
    ∃ store after, p.store = some store ∧ store.step inner = some after ∧
      next = { p with store := some after,
                      steps := p.steps ++ (after.log.drop store.log.length).map .log } := by
  unfold moveStore? at moved
  split at moved
  · cases moved
  · rename_i store held
    obtain ⟨after, stepped, rfl⟩ := Option.map_eq_some_iff.mp moved
    exact ⟨store, after, held, stepped, rfl⟩

theorem bind_cases (p : Process) (launch : Launch) (bound : List Endpoint) (frontEnd : FrontEnd)
    (stage : Option Endpoint → Stage) :
    (∃ steps e, Listeners.bindOne launch.config launch.network bound frontEnd = (steps, .error e) ∧
      p.bind launch bound frontEnd stage =
        { p with stage := .served (.error e), steps := p.steps ++ steps }) ∨
    ∃ steps endpoint,
      Listeners.bindOne launch.config launch.network bound frontEnd = (steps, .ok endpoint) ∧
      p.bind launch bound frontEnd stage =
        { p with stage := stage endpoint, steps := p.steps ++ steps } := by
  unfold bind
  split
  · rename_i steps e tried
    exact .inl ⟨steps, e, tried, rfl⟩
  · rename_i steps endpoint tried
    exact .inr ⟨steps, endpoint, tried, rfl⟩

theorem takes_of_advance (advanced : p.advance? launch = some next) :
    Takes launch p .advance next := by
  unfold advance? at advanced
  split at advanced
  case h_1 here =>
    obtain rfl := Option.some.inj advanced
    unfold create
    split
    · rename_i e invalid
      exact .refuse here invalid
    · rename_i valid
      exact .create here valid
  case h_2 here =>
    obtain rfl := Option.some.inj advanced
    unfold bindHttp
    split
    · rename_i e invalid
      exact .refuseAgain here invalid
    · rename_i valid
      obtain ⟨steps, e, tried, ended⟩ | ⟨steps, http, tried, goesOn⟩ :=
        p.bind_cases launch [] .http .bindingGrpc
      · rw [ended]
        exact .unboundHttp here valid tried
      · rw [goesOn]
        exact .boundHttp here valid tried
  case h_3 http here =>
    obtain rfl := Option.some.inj advanced
    obtain ⟨steps, e, tried, ended⟩ | ⟨steps, grpc, tried, goesOn⟩ :=
      p.bind_cases launch http.toList .grpc fun grpc => .startingGrpc ⟨http, grpc⟩
    · rw [ended]
      exact .unboundGrpc here tried
    · rw [goesOn]
      exact .boundGrpc here tried
  case h_4 listeners here =>
    obtain rfl := Option.some.inj advanced
    unfold startGrpc
    split
    · rename_i bound unbuilt
      exact .undescribed here (by rw [bound]; rfl) unbuilt
    · rename_i described
      refine .startGrpc here fun bound => ?_
      obtain ⟨endpoint, some⟩ := Option.isSome_iff_exists.mp bound
      cases built : launch.reflection with
      | ok => rfl
      | error cause => exact absurd built (described endpoint cause some)
  case h_5 listeners here =>
    obtain rfl := Option.some.inj advanced
    exact .startHttp here
  case h_6 => cases advanced
  case h_7 result here =>
    obtain rfl := Option.some.inj advanced
    exact .tell here
  case h_8 result here =>
    split at advanced
    · rename_i empty
      obtain rfl := Option.some.inj advanced
      exact .drained here empty.1 empty.2
    · cases advanced
  case h_9 result here =>
    obtain ⟨store, after, held, stepped, rfl⟩ := moveStore_cases advanced
    exact .callStop here held stepped
  case h_10 result here =>
    unfold stopOn? at advanced
    split at advanced
    · obtain ⟨store, after, held, stepped, rfl⟩ := moveStore_cases advanced
      exact .stopOn here held .send stepped
    · obtain ⟨store, after, held, stepped, rfl⟩ := moveStore_cases advanced
      exact .stopOn here held .join stepped
    · obtain ⟨store, after, held, stepped, rfl⟩ := moveStore_cases advanced
      exact .stopOn here held .leave stepped
    · rename_i returned
      obtain rfl := Option.some.inj advanced
      exact .finish here returned
    · cases advanced
    · cases advanced
  case h_11 => cases advanced

/-- Every step is one of the moves above. -/
theorem takes_of_step (stepped : p.step launch move = some next) : Takes launch p move next := by
  cases move with
  | advance => exact takes_of_advance stepped
  | ask =>
    obtain rfl := Option.some.inj stepped
    exact .ask
  | complete frontEnd result =>
    simp only [step, complete?] at stepped
    split at stepped
    · rename_i runs
      obtain rfl := Option.some.inj stepped
      exact .complete runs
    · cases stepped
  | hear =>
    simp only [step, hear?] at stepped
    split at stepped
    · rename_i here asked
      obtain rfl := Option.some.inj stepped
      exact .hear here asked
    · cases stepped
  | join place =>
    simp only [step, join?] at stepped
    split at stepped
    · cases stepped
    · rename_i frontEnd result done
      obtain ⟨stage, goesOn, rfl⟩ := Option.map_eq_some_iff.mp stepped
      unfold stageAfter? at goesOn
      split at goesOn
      · rename_i here
        obtain rfl := Option.some.inj goesOn
        exact .joinFirst here done
      · rename_i before here
        obtain rfl := Option.some.inj goesOn
        exact .joinNext here done
      · cases goesOn
  | aside others =>
    simp only [step, aside?] at stepped
    split at stepped
    · rename_i store held isAside
      obtain ⟨after, moved, rfl⟩ := Option.map_eq_some_iff.mp stepped
      exact .aside held isAside moved
    · cases stepped

theorem run_cons (launch : Launch) (p : Process) (move : Move) (rest : List Move) :
    p.run launch (move :: rest) = (p.step launch move).bind fun next => next.run launch rest := rfl

theorem run_append (launch : Launch) (p : Process) (first rest : List Move) :
    p.run launch (first ++ rest) = (p.run launch first).bind fun next => next.run launch rest :=
  List.foldlM_append

/-- What every move keeps, a run keeps. -/
theorem run_induction {P : Process → Prop}
    (keeps : ∀ {p next : Process} {move : Move}, P p → p.step launch move = some next → P next)
    {moves : List Move} (start : P p) (ran : p.run launch moves = some next) : P next := by
  induction moves generalizing p with
  | nil => exact Option.some.inj ran ▸ start
  | cons move rest ih =>
    rw [run_cons] at ran
    obtain ⟨mid, stepped, ran⟩ := Option.bind_eq_some_iff.mp ran
    exact ih (keeps start stepped) ran

end Process

end ExpiringStore
