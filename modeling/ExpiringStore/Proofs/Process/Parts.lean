import ExpiringStore.Server.Ending
import ExpiringStore.Server.Listeners

/-!
# The parts of a run

A run creates its store, binds, starts, ends and stops the store, in this order. Each part is
described by the steps that it may have and by what it comes to: binding by what the network
answers, the end by the first front-end that is joined with an error.
-/
namespace ExpiringStore

namespace Step

inductive Part where
  | creating
  | binding
  | starting
  | ending
  | stopping
  deriving DecidableEq, Repr

/-- The part that a step belongs to. What is logged belongs to none. -/
def part? : Step → Option Part
  | .createStore => some .creating
  | .bind _ _ => some .binding
  | .start _ => some .starting
  | .tellShutdown | .join _ => some .ending
  | .stopStore => some .stopping
  | .log _ => none

def started? : Step → Option FrontEnd
  | .start frontEnd => some frontEnd
  | _ => none

def joined? : Step → Option FrontEnd
  | .join frontEnd => some frontEnd
  | _ => none

/-- The steps are those of one part, and what is logged. -/
def AllIn (part : Part) (steps : List Step) : Prop :=
  ∀ step ∈ steps, step.part? = none ∨ step.part? = some part

variable {part : Part} {steps more : List Step}

theorem AllIn.append (first : AllIn part steps) (rest : AllIn part more) :
    AllIn part (steps ++ more) :=
  List.forall_mem_append.mpr ⟨first, rest⟩

theorem AllIn.not_mem (all : AllIn part steps) (other : Part) {step : Step}
    (elsewhere : step.part? = some other) (differs : other ≠ part) : step ∉ steps := by
  intro mem
  rcases all step mem with none | some
  · rw [none] at elsewhere
    cases elsewhere
  · exact differs (Option.some.inj (elsewhere.symm.trans some))

theorem AllIn.started (all : AllIn part steps) (differs : part ≠ .starting) :
    steps.filterMap started? = [] := by
  refine List.filterMap_eq_nil_iff.mpr fun step mem => ?_
  cases step with
  | start frontEnd => exact absurd mem (all.not_mem .starting rfl differs.symm)
  | _ => rfl

theorem AllIn.joined (all : AllIn part steps) (differs : part ≠ .ending) :
    steps.filterMap joined? = [] := by
  refine List.filterMap_eq_nil_iff.mpr fun step mem => ?_
  cases step with
  | join frontEnd => exact absurd mem (all.not_mem .ending rfl differs.symm)
  | _ => rfl

theorem mem_filterMap_started {frontEnd : FrontEnd} :
    frontEnd ∈ steps.filterMap started? ↔ .start frontEnd ∈ steps := by
  constructor
  · intro mem
    obtain ⟨step, mem, starts⟩ := List.mem_filterMap.mp mem
    cases step with
    | start other => exact Option.some.inj starts ▸ mem
    | _ => cases starts
  · exact fun mem => List.mem_filterMap.mpr ⟨_, mem, rfl⟩

theorem mem_filterMap_joined {frontEnd : FrontEnd} :
    frontEnd ∈ steps.filterMap joined? ↔ .join frontEnd ∈ steps := by
  constructor
  · intro mem
    obtain ⟨step, mem, joins⟩ := List.mem_filterMap.mp mem
    cases step with
    | join other => exact Option.some.inj joins ▸ mem
    | _ => cases joins
  · exact fun mem => List.mem_filterMap.mpr ⟨_, mem, rfl⟩

theorem allIn_log (part : Part) (events : List Event) : AllIn part (events.map .log) := by
  simp [AllIn, part?]

end Step

/-! ## Binding -/

/-- The first endpoint that the network refuses, HTTP's before that of gRPC. -/
inductive Refuses (config : Config) (network : Network) : FrontEnd → Endpoint → OsError → Prop
  | http {endpoint : Endpoint} {cause : OsError} (enabled : config.endpoint? .http = some endpoint)
    (refused : network.listen [] endpoint = .error cause) :
    Refuses config network .http endpoint cause
  | grpcAlone {endpoint : Endpoint} {cause : OsError} (disabled : config.endpoint? .http = none)
    (enabled : config.endpoint? .grpc = some endpoint)
    (refused : network.listen [] endpoint = .error cause) :
    Refuses config network .grpc endpoint cause
  | grpc {http actual endpoint : Endpoint} {cause : OsError}
    (first : config.endpoint? .http = some http) (listens : network.listen [] http = .ok actual)
    (enabled : config.endpoint? .grpc = some endpoint)
    (refused : network.listen [actual] endpoint = .error cause) :
    Refuses config network .grpc endpoint cause

theorem Config.validate_eq_ok_iff {config : Config} :
    config.validate = .ok () ↔ ¬(config.disableHttp = true ∧ config.disableGrpc = true) := by
  unfold validate
  split <;> simp_all

theorem Config.validate_of_disabled {config : Config}
    (disabled : config.disableHttp = true ∧ config.disableGrpc = true) :
    config.validate = .error .nothingToServe := by
  simp [validate, disabled]

/-- A configuration that leaves something to serve enables a front-end. -/
theorem Config.exists_enabled {config : Config} (valid : config.validate = .ok ()) :
    ∃ frontEnd, (config.endpoint? frontEnd).isSome = true := by
  rw [validate_eq_ok_iff] at valid
  cases http : config.disableHttp with
  | false => exact ⟨.http, by simp [endpoint?, http]⟩
  | true =>
    cases grpc : config.disableGrpc with
    | false => exact ⟨.grpc, by simp [endpoint?, grpc]⟩
    | true => exact absurd ⟨http, grpc⟩ valid

/-- The attempt to bind a front-end, which is made if it is enabled. -/
def Config.attempt (config : Config) (frontEnd : FrontEnd) : List Step :=
  (config.endpoint? frontEnd).toList.map (.bind frontEnd)

theorem Config.mem_attempt {config : Config} {frontEnd : FrontEnd} {step : Step} :
    step ∈ config.attempt frontEnd ↔
      ∃ endpoint, config.endpoint? frontEnd = some endpoint ∧ .bind frontEnd endpoint = step := by
  simp [attempt]

namespace Listeners

variable {config : Config} {network : Network} {steps : List Step} {listeners : Listeners}
    {e : ServerError}

theorem steps_bindOne (config : Config) (network : Network) (bound : List Endpoint)
    (frontEnd : FrontEnd) :
    (bindOne config network bound frontEnd).1 = config.attempt frontEnd := by
  unfold bindOne Config.attempt
  cases config.endpoint? frontEnd with
  | none => rfl
  | some endpoint =>
    simp only
    split <;> rfl

theorem bindOne_eq_error_iff {bound : List Endpoint} {frontEnd : FrontEnd} :
    (bindOne config network bound frontEnd).2 = .error e ↔
      ∃ endpoint cause, config.endpoint? frontEnd = some endpoint ∧
        network.listen bound endpoint = .error cause ∧
        e = .bind frontEnd endpoint cause.message := by
  unfold bindOne
  cases config.endpoint? frontEnd with
  | none => simp
  | some endpoint => cases answer : network.listen bound endpoint <;> simp [answer, eq_comm]

theorem bindOne_eq_ok_iff {bound : List Endpoint} {frontEnd : FrontEnd} {found : Option Endpoint} :
    (bindOne config network bound frontEnd).2 = .ok found ↔
      (config.endpoint? frontEnd = none ∧ found = none) ∨
        ∃ endpoint actual, config.endpoint? frontEnd = some endpoint ∧
          network.listen bound endpoint = .ok actual ∧ found = some actual := by
  unfold bindOne
  cases config.endpoint? frontEnd with
  | none => simp [eq_comm]
  | some endpoint => cases answer : network.listen bound endpoint <;> simp [answer, eq_comm]

/-- HTTP is tried first, and gRPC if that has not failed. -/
theorem bind_cases (network : Network) (valid : config.validate = .ok ()) :
    (∃ e, (bindOne config network [] .http).2 = .error e ∧
      bind config network = (config.attempt .http, .error e)) ∨
    ∃ http, (bindOne config network [] .http).2 = .ok http ∧
      bind config network = (config.attempt .http ++ config.attempt .grpc,
        (bindOne config network http.toList .grpc).2.map fun grpc => ⟨http, grpc⟩) := by
  have first := steps_bindOne config network [] .http
  simp only [bind, valid]
  cases tried : bindOne config network [] .http with | mk steps outcome =>
  obtain rfl : steps = config.attempt .http := by rwa [tried] at first
  cases outcome with
  | error e => exact .inl ⟨e, rfl, rfl⟩
  | ok http =>
    refine .inr ⟨http, rfl, ?_⟩
    have second := steps_bindOne config network http.toList .grpc
    simp only
    split <;> rename_i tried <;> rw [tried] at second ⊢ <;> rw [← second] <;> rfl

/-- What the attempts of a run are like: only enabled front-ends are bound, and where both are, HTTP
is bound first and the network has let it listen. -/
structure Attempts (config : Config) (network : Network) (steps : List Step) : Prop where
  only : Step.AllIn .binding steps
  enabled : ∀ frontEnd endpoint, .bind frontEnd endpoint ∈ steps →
    config.endpoint? frontEnd = some endpoint
  httpFirst : ∀ grpc, .bind .grpc grpc ∈ steps → ∀ http, config.endpoint? .http = some http →
    [.bind .http http, .bind .grpc grpc].Sublist steps ∧
    ∃ actual, network.listen [] http = .ok actual

theorem allIn_attempt (config : Config) (frontEnd : FrontEnd) :
    Step.AllIn .binding (config.attempt frontEnd) := by
  intro step mem
  obtain ⟨endpoint, -, rfl⟩ := Config.mem_attempt.mp mem
  exact .inr rfl

theorem attempts_bind (network : Network) (valid : config.validate = .ok ()) :
    Attempts config network (bind config network).1 := by
  obtain ⟨e, -, bound⟩ | ⟨found, http, bound⟩ := bind_cases network valid
  · rw [bound]
    refine ⟨allIn_attempt config .http, ?_, ?_⟩
    · intro frontEnd endpoint mem
      obtain ⟨_, enabled, same⟩ := Config.mem_attempt.mp mem
      cases same
      exact enabled
    · intro grpc mem
      obtain ⟨_, _, same⟩ := Config.mem_attempt.mp mem
      cases same
  · rw [bound]
    refine ⟨(allIn_attempt config .http).append (allIn_attempt config .grpc), ?_, ?_⟩
    · intro frontEnd endpoint mem
      rcases List.mem_append.mp mem with mem | mem <;>
      · obtain ⟨_, enabled, same⟩ := Config.mem_attempt.mp mem
        cases same
        exact enabled
    · intro grpc mem first enabled
      have asked : .bind .grpc grpc ∈ config.attempt .grpc := by
        refine (List.mem_append.mp mem).resolve_left fun mem => ?_
        obtain ⟨_, _, same⟩ := Config.mem_attempt.mp mem
        cases same
      have before : .bind .http first ∈ config.attempt .http :=
        Config.mem_attempt.mpr ⟨first, enabled, rfl⟩
      refine ⟨(List.singleton_sublist.mpr before).append (List.singleton_sublist.mpr asked), ?_⟩
      obtain ⟨disabled, -⟩ | ⟨endpoint, actual, also, listens, -⟩ := bindOne_eq_ok_iff.mp http
      · rw [disabled] at enabled
        cases enabled
      · obtain rfl := Option.some.inj (enabled.symm.trans also)
        exact ⟨actual, listens⟩

/-- Once HTTP is listened on or disabled, the first refusal is that of gRPC. -/
theorem refuses_iff_of_http {found : Option Endpoint} {frontEnd : FrontEnd} {endpoint : Endpoint}
    {cause : OsError} (http : (bindOne config network [] .http).2 = .ok found) :
    Refuses config network frontEnd endpoint cause ↔
      frontEnd = .grpc ∧ config.endpoint? .grpc = some endpoint ∧
        network.listen found.toList endpoint = .error cause := by
  obtain ⟨disabled, rfl⟩ | ⟨first, actual, enabled, listens, rfl⟩ := bindOne_eq_ok_iff.mp http
  · constructor
    · intro refuses
      cases refuses with
      | http enabled | grpc enabled =>
        rw [disabled] at enabled
        cases enabled
      | grpcAlone _ enabled refused => exact ⟨rfl, enabled, refused⟩
    · rintro ⟨rfl, enabled, refused⟩
      exact .grpcAlone disabled enabled refused
  · constructor
    · intro refuses
      cases refuses with
      | http also refused =>
        obtain rfl := Option.some.inj (enabled.symm.trans also)
        cases listens.symm.trans refused
      | grpcAlone disabled =>
        rw [disabled] at enabled
        cases enabled
      | grpc also again on refused =>
        obtain rfl := Option.some.inj (enabled.symm.trans also)
        obtain rfl := Except.ok.inj (listens.symm.trans again)
        exact ⟨rfl, on, refused⟩
    · rintro ⟨rfl, on, refused⟩
      exact .grpc enabled listens on refused

/-- Where the network refuses HTTP its endpoint, that is the first refusal. -/
theorem refuses_iff_of_http_error {other : ServerError} {frontEnd : FrontEnd} {endpoint : Endpoint}
    {cause : OsError} (http : (bindOne config network [] .http).2 = .error other) :
    Refuses config network frontEnd endpoint cause ↔
      frontEnd = .http ∧ config.endpoint? .http = some endpoint ∧
        network.listen [] endpoint = .error cause := by
  obtain ⟨first, actual, enabled, refused, -⟩ := bindOne_eq_error_iff.mp http
  constructor
  · intro refuses
    cases refuses with
    | http also again => exact ⟨rfl, also, again⟩
    | grpcAlone disabled =>
      rw [disabled] at enabled
      cases enabled
    | grpc also listens =>
      obtain rfl := Option.some.inj (enabled.symm.trans also)
      cases refused.symm.trans listens
  · rintro ⟨rfl, also, again⟩
    exact .http also again

/-- Binding fails with the first refusal, and only if there is one. -/
theorem bind_eq_error_iff (valid : config.validate = .ok ()) :
    (bind config network).2 = .error e ↔
      ∃ frontEnd endpoint cause, Refuses config network frontEnd endpoint cause ∧
        e = .bind frontEnd endpoint cause.message := by
  obtain ⟨other, http, bound⟩ | ⟨found, http, bound⟩ := bind_cases network valid
  · have same : (bind config network).2 = .error e ↔
        (bindOne config network [] .http).2 = .error e := by
      rw [bound, http]
      simp
    simp [same, bindOne_eq_error_iff, refuses_iff_of_http_error http, and_assoc]
  · have same : (bind config network).2 = .error e ↔
        (bindOne config network found.toList .grpc).2 = .error e := by
      rw [bound]
      cases (bindOne config network found.toList .grpc).2 <;> simp [Except.map]
    simp [same, bindOne_eq_error_iff, refuses_iff_of_http http, and_assoc]

/-- What is bound is what is enabled. -/
theorem isSome_endpoint_of_bind (valid : config.validate = .ok ())
    (bound : (bind config network).2 = .ok listeners) (frontEnd : FrontEnd) :
    (listeners.endpoint? frontEnd).isSome = (config.endpoint? frontEnd).isSome := by
  have isSome_of_ok {taken : List Endpoint} {frontEnd : FrontEnd} {found : Option Endpoint}
      (tried : (bindOne config network taken frontEnd).2 = .ok found) :
      found.isSome = (config.endpoint? frontEnd).isSome := by
    obtain ⟨disabled, rfl⟩ | ⟨first, actual, enabled, -, rfl⟩ := bindOne_eq_ok_iff.mp tried
    · rw [disabled]
    · rw [enabled]
      rfl
  obtain ⟨other, http, tried⟩ | ⟨found, http, tried⟩ := bind_cases network valid
  · rw [tried] at bound
    cases bound
  · rw [tried] at bound
    cases second : (bindOne config network found.toList .grpc).2 with
    | error e =>
      rw [second] at bound
      cases bound
    | ok grpc =>
      rw [second] at bound
      obtain rfl := Except.ok.inj bound
      cases frontEnd with
      | http => exact isSome_of_ok http
      | grpc => exact isSome_of_ok second

/-! ## Starting -/

theorem allIn_startOne (l : Listeners) (frontEnd : FrontEnd) :
    Step.AllIn .starting (l.startOne frontEnd) := by
  unfold startOne
  cases l.endpoint? frontEnd <;> simp [Step.AllIn, Step.part?]

theorem allIn_start (l : Listeners) : Step.AllIn .starting l.start :=
  (l.allIn_startOne .grpc).append (l.allIn_startOne .http)

/-- A front-end is started if it is bound. -/
theorem started_startOne (l : Listeners) (frontEnd : FrontEnd) :
    (l.startOne frontEnd).filterMap Step.started? =
      if (l.endpoint? frontEnd).isSome then [frontEnd] else [] := by
  unfold startOne
  cases l.endpoint? frontEnd <;> rfl

theorem mem_started {l : Listeners} {frontEnd : FrontEnd} :
    frontEnd ∈ l.started ↔ (l.endpoint? frontEnd).isSome = true := by
  cases frontEnd <;> simp [started]

theorem started_start (l : Listeners) : l.start.filterMap Step.started? = l.started := by
  rw [start, List.filterMap_append, started_startOne, started_startOne]
  cases grpc : (l.endpoint? .grpc).isSome <;> cases http : (l.endpoint? .http).isSome <;>
    simp [started, grpc, http]

end Listeners

/-! ## Ending -/

namespace Ending

variable {e : Ending} {frontEnd : FrontEnd} {next result : Except ServerError Unit}

theorem allIn_joinSteps (frontEnd : FrontEnd) (next : Except ServerError Unit) :
    Step.AllIn .ending (joinSteps frontEnd next) := by
  cases next <;> simp [joinSteps, Step.AllIn, Step.part?]

@[simp] theorem joined_joinSteps (frontEnd : FrontEnd) (next : Except ServerError Unit) :
    (joinSteps frontEnd next).filterMap Step.joined? = [frontEnd] := by
  cases next <;> rfl

/-- One more front-end is joined behind the others. -/
theorem drain_concat (result : Except ServerError Unit)
    (joined : List (FrontEnd × Except ServerError Unit)) (frontEnd : FrontEnd)
    (next : Except ServerError Unit) :
    drain result (joined ++ [(frontEnd, next)]) =
      ((drain result joined).1 ++ joinSteps frontEnd next,
        combine (drain result joined).2 next) := by
  induction joined generalizing result with
  | nil => simp [drain]
  | cons first rest ih => simp [drain, ih]

theorem conclude_of_signal (joined : List (FrontEnd × Except ServerError Unit)) :
    conclude ⟨true, joined⟩ =
      (.log .shuttingDown :: .tellShutdown :: (drain (.ok ()) joined).1,
        (drain (.ok ()) joined).2) := rfl

theorem conclude_of_first (frontEnd : FrontEnd) (result : Except ServerError Unit)
    (rest : List (FrontEnd × Except ServerError Unit)) :
    conclude ⟨false, (frontEnd, result) :: rest⟩ =
      (joinSteps frontEnd result ++ .tellShutdown :: (drain result rest).1,
        (drain result rest).2) := rfl

/-- Once serving has ended, one more front-end is joined behind the others. -/
theorem conclude_concat (begun : e.signalled = true ∨ e.joined ≠ []) (frontEnd : FrontEnd)
    (next : Except ServerError Unit) :
    conclude { e with joined := e.joined ++ [(frontEnd, next)] } =
      (e.conclude.1 ++ joinSteps frontEnd next, combine e.conclude.2 next) := by
  obtain ⟨signalled, joined⟩ := e
  cases signalled with
  | true => simp [conclude_of_signal, drain_concat]
  | false =>
    cases joined with
    | nil => simp at begun
    | cons first rest =>
      obtain ⟨other, result⟩ := first
      simp [conclude_of_first, drain_concat]

theorem allIn_drain (result : Except ServerError Unit)
    (joined : List (FrontEnd × Except ServerError Unit)) :
    Step.AllIn .ending (drain result joined).1 := by
  induction joined generalizing result with
  | nil => exact List.forall_mem_nil _
  | cons first rest ih => exact (allIn_joinSteps first.1 first.2).append (ih _)

/-- An error stands, whatever comes later. -/
theorem drain_error (cause : ServerError) (joined : List (FrontEnd × Except ServerError Unit)) :
    (drain (.error cause) joined).2 = .error cause := by
  induction joined with
  | nil => rfl
  | cons first rest ih => exact ih

theorem drain_eq_ok_iff {joined : List (FrontEnd × Except ServerError Unit)} :
    (drain (.ok ()) joined).2 = .ok () ↔ ∀ server ∈ joined, server.2 = .ok () := by
  induction joined with
  | nil => simp [drain]
  | cons first rest ih =>
    obtain ⟨frontEnd, result⟩ := first
    cases result with
    | ok => simpa [drain, combine] using ih
    | error cause => simp [drain, combine, drain_error]

/-- Of all errors the first counts. -/
theorem drain_eq_error_iff {joined : List (FrontEnd × Except ServerError Unit)}
    {cause : ServerError} :
    (drain (.ok ()) joined).2 = .error cause ↔
      ∃ before frontEnd after, joined = before ++ (frontEnd, .error cause) :: after ∧
        ∀ server ∈ before, server.2 = .ok () := by
  induction joined with
  | nil => simp [drain]
  | cons first rest ih =>
    obtain ⟨frontEnd, result⟩ := first
    cases result with
    | ok =>
      have same : (drain (.ok ()) ((frontEnd, .ok ()) :: rest)).2 = (drain (.ok ()) rest).2 := rfl
      rw [same, ih]
      constructor
      · rintro ⟨before, other, after, rfl, fine⟩
        exact ⟨(frontEnd, .ok ()) :: before, other, after, rfl,
          List.forall_mem_cons.mpr ⟨rfl, fine⟩⟩
      · rintro ⟨before, other, after, split, fine⟩
        cases before with
        | nil => cases split
        | cons head before =>
          obtain ⟨-, rfl⟩ := List.cons.inj split
          exact ⟨before, other, after, rfl,
            fun server mem => fine server (List.mem_cons_of_mem _ mem)⟩
    | error other =>
      have same : (drain (.ok ()) ((frontEnd, .error other) :: rest)).2 = .error other :=
        drain_error other rest
      rw [same]
      constructor
      · intro first
        obtain rfl := Except.error.inj first
        exact ⟨[], frontEnd, rest, rfl, List.forall_mem_nil _⟩
      · rintro ⟨before, also, after, split, fine⟩
        cases before with
        | nil =>
          obtain ⟨first, -⟩ := List.cons.inj split
          exact (Prod.mk.inj first).2
        | cons head before =>
          obtain ⟨rfl, -⟩ := List.cons.inj split
          cases fine _ List.mem_cons_self

/-- Whether serving ended on request or not, its result is that of joining all. -/
theorem conclude_snd (e : Ending) : e.conclude.2 = (drain (.ok ()) e.joined).2 := by
  obtain ⟨signalled, joined⟩ := e
  cases signalled <;> cases joined <;> rfl

theorem allIn_conclude (e : Ending) : Step.AllIn .ending e.conclude.1 := by
  obtain ⟨signalled, joined⟩ := e
  have shuttingDown : Step.AllIn .ending [.log .shuttingDown, .tellShutdown] := by
    simp [Step.AllIn, Step.part?]
  have told : Step.AllIn .ending [.tellShutdown] := by simp [Step.AllIn, Step.part?]
  match signalled, joined with
  | true, joined => exact shuttingDown.append (allIn_drain _ joined)
  | false, [] => exact shuttingDown
  | false, (frontEnd, result) :: rest =>
    exact (allIn_joinSteps frontEnd result).append (told.append (allIn_drain _ rest))

/-- However serving ends, the front-ends are told to shut down. -/
theorem tellShutdown_mem_conclude (e : Ending) : .tellShutdown ∈ e.conclude.1 := by
  obtain ⟨signalled, joined⟩ := e
  match signalled, joined with
  | true, _ | false, [] => exact List.mem_cons_of_mem _ List.mem_cons_self
  | false, _ :: _ => exact List.mem_append_right _ List.mem_cons_self

end Ending

end ExpiringStore
