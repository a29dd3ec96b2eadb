import ExpiringStore.Proofs.Process.Return

/-!
# Every ending is met

Whichever way a server's run is told to end, some process ends that way: the front-ends may complete
in any order and with any results, before or after a shutdown is asked for. So runs of the server
and processes that return are the same.
-/
namespace ExpiringStore.Process

variable {launch : Launch} {p next : Process} {move : Move}

/-- Front-ends that run complete in any order and with any results. -/
theorem run_complete (launch : Launch) {servers : List (FrontEnd × Except ServerError Unit)}
    (run : p.running.Perm (servers.map Prod.fst)) :
    ∃ shutdown, p.run launch (servers.map fun server => .complete server.1 server.2) =
      some { p with shutdown := shutdown, running := [], completed := p.completed ++ servers } := by
  induction servers generalizing p with
  | nil =>
    obtain ⟨stage, store, shutdown, asked, running, completed, ending, steps⟩ := p
    obtain rfl := List.perm_nil.mp run
    exact ⟨shutdown, by simp [Process.run]⟩
  | cons server rest ih =>
    have runs : server.1 ∈ p.running := run.mem_iff.mpr List.mem_cons_self
    have stepped : p.step launch (.complete server.1 server.2) = some
        { p with shutdown := p.shutdown.release, running := p.running.erase server.1,
                 completed := p.completed ++ [server] } := by
      simp only [step, complete?, if_pos runs]
    have fewer : (p.running.erase server.1).Perm (rest.map Prod.fst) := by
      have erased := run.erase server.1
      rwa [List.map_cons, List.erase_cons_head] at erased
    obtain ⟨shutdown, ran⟩ := ih (p := { p with
      shutdown := p.shutdown.release, running := p.running.erase server.1,
      completed := p.completed ++ [server] }) fewer
    refine ⟨shutdown, ?_⟩
    rw [List.map_cons, run_cons, stepped, Option.bind_some, ran, List.append_assoc]
    rfl

/-- Front-ends that have completed are joined in turn. -/
theorem exists_drained (launch : Launch) {result : Except ServerError Unit}
    {servers : List (FrontEnd × Except ServerError Unit)} (here : p.stage = .draining result)
    (none : p.running = []) (done : p.completed = servers) :
    ∃ drained later, p.run launch (servers.map fun _ => .join 0) = some drained ∧
      drained.stage = .draining later ∧ drained.running = [] ∧ drained.completed = [] ∧
      drained.ending = { p.ending with joined := p.ending.joined ++ servers } := by
  induction servers generalizing p result with
  | nil => exact ⟨p, result, rfl, here, none, done, by rw [List.append_nil]⟩
  | cons server rest ih =>
    have stepped : p.step launch (.join 0) = some
        { p with stage := .draining (Ending.combine result server.2), completed := rest
                 ending := { p.ending with joined := p.ending.joined ++ [server] }
                 steps := p.steps ++ Ending.joinSteps server.1 server.2 } := by
      simp [step, join?, done, here, stageAfter?]
    obtain ⟨drained, later, ran, stage, running, completed, ending⟩ := ih (p := { p with
      stage := .draining (Ending.combine result server.2), completed := rest
      ending := { p.ending with joined := p.ending.joined ++ [server] }
      steps := p.steps ++ Ending.joinSteps server.1 server.2 }) rfl none rfl
    refine ⟨drained, later, ?_, stage, running, completed, ?_⟩
    · rw [List.map_cons, run_cons, stepped]
      exact ran
    · rw [ending, List.append_assoc]
      rfl

/-- A process on its way to serve, with the front-ends that it has started. -/
structure Early (p : Process) (stage : Stage) (running : List FrontEnd) : Prop where
  stage : p.stage = stage
  running : p.running = running
  completed : p.completed = []
  ending : p.ending = ⟨false, []⟩

theorem Early.bind {stage : Stage} {bound : List Endpoint} {frontEnd : FrontEnd}
    {found : Option Endpoint} (early : p.Early stage [])
    (tried : (Listeners.bindOne launch.config launch.network bound frontEnd).2 = .ok found)
    (next : Option Endpoint → Stage) :
    (p.bind launch bound frontEnd next).Early (next found) [] := by
  obtain ⟨_, _, failed, -⟩ | ⟨steps, endpoint, went, bound⟩ :=
    p.bind_cases launch bound frontEnd next
  · cases (congrArg Prod.snd failed).symm.trans tried
  · obtain rfl := Except.ok.inj ((congrArg Prod.snd went).symm.trans tried)
    rw [bound]
    exact ⟨rfl, early.running, early.completed, early.ending⟩

theorem Early.start {stage : Stage} {running : List FrontEnd} (early : p.Early stage running)
    (listeners : Listeners) (frontEnd : FrontEnd) (next : Stage) :
    { p.start listeners frontEnd with stage := next }.Early next
      (running ++ if (listeners.endpoint? frontEnd).isSome then [frontEnd] else []) := by
  refine ⟨rfl, ?_, (completed_start ..).trans early.completed, (ending_start ..).trans early.ending⟩
  unfold Process.start
  cases listeners.endpoint? frontEnd with
  | none => simpa using early.running
  | some endpoint => simp [early.running]

/-- A process that can serve comes to wait with all its front-ends running. -/
theorem exists_waiting {listeners : Listeners} (serves : Serves launch listeners) :
    ∃ moves waiting, fresh.run launch moves = some waiting ∧
      waiting.Early .waiting listeners.started := by
  have bound := serves.bound
  obtain ⟨e, -, failed⟩ | ⟨http, first, tried⟩ := Listeners.bind_cases launch.network serves.valid
  · rw [Launch.bound, failed] at bound
    cases bound
  rw [Launch.bound, tried] at bound
  cases second : (Listeners.bindOne launch.config launch.network http.toList .grpc).2 with
  | error e =>
    rw [second] at bound
    cases bound
  | ok grpc =>
    rw [second] at bound
    obtain rfl := Except.ok.inj bound
    obtain ⟨created, toCreated, early⟩ : ∃ q, fresh.step launch .advance = some q ∧
        q.Early .bindingHttp [] := by
      refine ⟨_, rfl, ?_⟩
      simp only [create, serves.valid]
      exact ⟨rfl, rfl, rfl, rfl⟩
    obtain ⟨half, toHalf, early⟩ : ∃ q, created.step launch .advance = some q ∧
        q.Early (.bindingGrpc http) [] := by
      refine ⟨_, ?_, early.bind first .bindingGrpc⟩
      simp only [step, advance?, early.stage, bindHttp, serves.valid]
    obtain ⟨whole, toWhole, early⟩ : ∃ q, half.step launch .advance = some q ∧
        q.Early (.startingGrpc ⟨http, grpc⟩) [] := by
      refine ⟨_, ?_, early.bind second fun grpc => .startingGrpc ⟨http, grpc⟩⟩
      simp only [step, advance?, early.stage]
    obtain ⟨described, toDescribed, early⟩ : ∃ q, whole.step launch .advance = some q ∧
        q.Early (.startingHttp ⟨http, grpc⟩) (if grpc.isSome then [.grpc] else []) := by
      refine ⟨_, ?_, early.start ⟨http, grpc⟩ .grpc (.startingHttp ⟨http, grpc⟩)⟩
      simp only [step, advance?, early.stage, startGrpc]
      cases grpc with
      | none => rfl
      | some endpoint => rw [serves.described rfl]
    obtain ⟨waiting, toWaiting, early⟩ : ∃ q, described.step launch .advance = some q ∧
        q.Early .waiting (Listeners.started ⟨http, grpc⟩) := by
      refine ⟨{ described.start ⟨http, grpc⟩ .http with stage := .waiting }, ?_, ?_⟩
      · simp only [step, advance?, early.stage]
      · have all := early.start ⟨http, grpc⟩ .http .waiting
        cases http <;> cases grpc <;> exact all
    refine ⟨[.advance, .advance, .advance, .advance, .advance], waiting, ?_, early⟩
    simp only [run_cons, toCreated, toHalf, toWhole, toDescribed, toWaiting, Option.bind_some]
    rfl

/-- Where no front-end is left, nothing changes how serving has ended. -/
def Settled (p : Process) : Prop :=
  p.running = [] ∧ p.completed = [] ∧
    match p.stage with
    | .draining _ | .served _ | .stopping _ | .returned _ => True
    | _ => False

theorem Settled.step (settled : p.Settled) (stepped : p.step launch move = some next) :
    next.Settled ∧ next.ending = p.ending := by
  obtain ⟨none, nobody, late⟩ := settled
  cases takes_of_step stepped with
  | refuse here | create here | refuseAgain here | unboundHttp here | boundHttp here
  | unboundGrpc here | boundGrpc here | undescribed here | startGrpc here | startHttp here
  | tell here | hear here | joinFirst here =>
    simp only [here] at late
  | drained | callStop | finish => exact ⟨⟨none, nobody, trivial⟩, rfl⟩
  | stopOn | ask | aside => exact ⟨⟨none, nobody, late⟩, rfl⟩
  | complete runs =>
    rw [none] at runs
    cases runs
  | joinNext here done =>
    rw [nobody] at done
    cases done

theorem Settled.run (settled : p.Settled) {moves : List Move}
    (ran : p.run launch moves = some next) : next.ending = p.ending := by
  have kept : next.Settled ∧ next.ending = p.ending := by
    refine run_induction (P := fun q => q.Settled ∧ q.ending = p.ending) ?_ ⟨settled, rfl⟩ ran
    intro mid next move ⟨settled, same⟩ stepped
    obtain ⟨still, unchanged⟩ := settled.step stepped
    exact ⟨still, unchanged.trans same⟩
  exact kept.2

/-- From the moment that serving ends, the front-ends that have completed are joined in turn. -/
theorem exists_settled_of_telling (launch : Launch) {result : Except ServerError Unit}
    {servers : List (FrontEnd × Except ServerError Unit)} (here : p.stage = .telling result)
    (none : p.running = []) (done : p.completed = servers) :
    ∃ moves settled, p.run launch moves = some settled ∧ settled.Settled ∧
      settled.ending = { p.ending with joined := p.ending.joined ++ servers } := by
  have told : p.step launch .advance = some { p with
      stage := .draining result, shutdown := p.shutdown.send true,
      steps := p.steps ++ [.tellShutdown] } := by
    simp only [step, advance?, here]
  obtain ⟨drained, later, ran, stage, running, completed, ending⟩ :=
    exists_drained launch (p := { p with
      stage := .draining result, shutdown := p.shutdown.send true
      steps := p.steps ++ [.tellShutdown] }) rfl none done
  refine ⟨.advance :: servers.map fun _ => .join 0, drained, ?_, ⟨running, completed, ?_⟩, ending⟩
  · rw [run_cons, told]
    exact ran
  · rw [stage]
    trivial

/-- A process that waits for the end of front-ends which have completed can
meet it in either way. -/
theorem exists_settled (launch : Launch) {ending : Ending} (here : p.stage = .waiting)
    (none : p.running = []) (done : p.completed = ending.joined) (untold : p.ending = ⟨false, []⟩)
    (begun : ending.signalled = true ∨ ending.joined ≠ []) :
    ∃ moves settled, p.run launch moves = some settled ∧ settled.Settled ∧
      settled.ending = ending := by
  obtain ⟨signalled, joined⟩ := ending
  cases signalled with
  | true =>
    have heard : p.run launch [.ask, .hear] = some { p with
        asked := true, stage := .telling (.ok ()), ending := ⟨true, []⟩,
        steps := p.steps ++ [.log .shuttingDown] } := by
      simp [Process.run, step, hear?, here, untold]
    obtain ⟨moves, settled, ran, isSettled, ended⟩ :=
      exists_settled_of_telling launch (p := { p with
        asked := true, stage := .telling (.ok ()), ending := ⟨true, []⟩,
        steps := p.steps ++ [.log .shuttingDown] }) rfl none done
    refine ⟨[.ask, .hear] ++ moves, settled, ?_, isSettled, ended⟩
    rw [run_append, heard]
    exact ran
  | false =>
    cases joined with
    | nil => simp at begun
    | cons first rest =>
      obtain ⟨frontEnd, result⟩ := first
      have joined : p.step launch (.join 0) = some { p with
          stage := .telling result, completed := rest, ending := ⟨false, [(frontEnd, result)]⟩,
          steps := p.steps ++ Ending.joinSteps frontEnd result } := by
        simp [step, join?, done, here, stageAfter?, untold]
      obtain ⟨moves, settled, ran, isSettled, ended⟩ :=
        exists_settled_of_telling launch (p := { p with
          stage := .telling result, completed := rest, ending := ⟨false, [(frontEnd, result)]⟩,
          steps := p.steps ++ Ending.joinSteps frontEnd result }) rfl none rfl
      refine ⟨.join 0 :: moves, settled, ?_, isSettled, ended⟩
      rw [run_cons, joined]
      exact ran

/-- Every ending that joins what has been started is that of some process. -/
theorem exists_process_of_ending {listeners : Listeners} (serves : Serves launch listeners)
    {ending : Ending} (all : (ending.joined.map Prod.fst).Perm listeners.started) :
    ∃ moves p result, fresh.run launch moves = some p ∧ p.stage = .returned result ∧
      p.ending = ending := by
  have begun : ending.signalled = true ∨ ending.joined ≠ [] := by
    refine .inr fun none => ?_
    obtain ⟨frontEnd, enabled⟩ := Config.exists_enabled serves.valid
    have bound :=
      (Listeners.isSome_endpoint_of_bind serves.valid serves.bound frontEnd).trans enabled
    have mem := all.mem_iff.mpr (Listeners.mem_started.mpr bound)
    rw [none] at mem
    cases mem
  obtain ⟨toWaiting, waiting, ranToWaiting, early⟩ := exists_waiting serves
  obtain ⟨shutdown, ranToEnd⟩ := run_complete launch (early.running ▸ all.symm)
  obtain ⟨further, settled, ranToSettled, isSettled, ended⟩ := exists_settled launch
    (p := { waiting with
      shutdown := shutdown, running := [], completed := waiting.completed ++ ending.joined })
    early.stage rfl (by rw [early.completed, List.nil_append]) early.ending begun
  obtain ⟨before, ranBefore⟩ : ∃ moves, fresh.run launch moves = some settled := by
    let completions := ending.joined.map fun server => Move.complete server.1 server.2
    refine ⟨toWaiting ++ completions ++ further, ?_⟩
    rw [run_append, run_append, ranToWaiting, Option.bind_some, ranToEnd]
    exact ranToSettled
  obtain ⟨rest, later, result, ranToReturn, returned⟩ :=
    exists_return ((sound_fresh launch).run ranBefore)
  refine ⟨before ++ rest, later, result, ?_, returned, (isSettled.run ranToReturn).trans ended⟩
  rw [run_append, ranBefore]
  exact ranToReturn

/-- A run of the server whose ending joins what has been started is what some
process does and returns. -/
theorem exists_process_of_run {listeners : Listeners} (serves : Serves launch listeners)
    (built : launch.reflection = .ok ()) {ending : Ending}
    (all : (ending.joined.map Prod.fst).Perm listeners.started) (now : Instant) :
    let report := Server.run launch.config launch.network now fun _ => ending
    ∃ moves p, fresh.run launch moves = some p ∧ p.stage = .returned report.result ∧
      p.steps = report.steps := by
  obtain ⟨moves, p, result, ran, returned, rfl⟩ := exists_process_of_ending serves all
  obtain ⟨steps, rfl, -⟩ := eq_run_of_returned ran returned built now
  exact ⟨moves, p, ran, returned, steps⟩

end ExpiringStore.Process
