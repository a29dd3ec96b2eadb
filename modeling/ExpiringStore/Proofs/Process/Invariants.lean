import Mathlib.Data.List.Perm.Basic
import ExpiringStore.Proofs.Process.Moves
import ExpiringStore.Proofs.Process.Parts
import ExpiringStore.Proofs.Supervision.Shutdown

/-!
# What every move of a process keeps

Three invariants: what has been done by the time a process stands where it does, which front-ends
there are and what they can hear, and how the sweeper fares that the process alone starts and stops.
-/
namespace ExpiringStore

/-! ## The sweeper of a process -/

def StopPhase.sectionsLeft : StopPhase → Nat
  | .locked _ => 3
  | .joining _ => 2
  | .leaving _ => 1
  | .returned | .cancelled => 0

namespace Supervision

variable {s after : Supervision} {move : Move}

/-- A sweeper that was begun once and has not been given up. -/
structure Kept (s : Supervision) : Prop where
  sound : s.Sound
  attached : s.dropped = false
  begunOnce : s.loops.length = 1

theorem kept_start (interval : SweepInterval) :
    (new interval Table.empty).start.Kept ∧ (new interval Table.empty).start.state = .running ∧
      (new interval Table.empty).start.stops = [] :=
  have started : (new interval Table.empty).step .start = some (new interval Table.empty).start :=
    rfl
  ⟨⟨(sound_new interval Table.empty).step started, rfl, rfl⟩, rfl, rfl⟩

/-- Loops and clients neither start nor stop a sweeper. -/
theorem Kept.aside (kept : s.Kept) (isAside : move.isAside = true)
    (stepped : s.step move = some after) :
    after.Kept ∧ after.stops = s.stops ∧ after.state = s.state := by
  have sound := kept.sound.step stepped
  cases takes_of_step stepped with
  | sweep | serve => exact ⟨⟨sound, kept.attached, kept.begunOnce⟩, rfl, rfl⟩
  | notice here noticed =>
    obtain rfl := kept.sound.audible.eq_endLoop here noticed
    exact ⟨⟨sound, kept.attached, List.length_set.trans kept.begunOnce⟩, rfl, rfl⟩
  | _ => cases isAside

/-- The first stop takes the loop's handle along, which it has to report on. -/
theorem Kept.stop (kept : s.Kept) (going : s.state = .running) (none : s.stops = [])
    (stepped : s.step .stop = some after) :
    after.Kept ∧ after.loops = s.loops ∧ after.log = s.log ∧
      ∃ loop, after.stops = [.locked (some loop)] := by
  have sound := kept.sound.step stepped
  obtain ⟨loop, handle⟩ :=
    Option.isSome_iff_exists.mp ((kept.sound.ordered.handle kept.attached).mpr going)
  cases takes_of_step stepped with
  | lock =>
    exact ⟨⟨sound, kept.attached, kept.begunOnce⟩, rfl, rfl, loop, by simp only [none, handle]; rfl⟩
  | lockAgain attached stopped =>
    rw [going] at stopped
    cases stopped

/-- A section of the only stop: what it reports it owes no longer. -/
theorem Kept.stopSection (kept : s.Kept) {phase : StopPhase} (only : s.stops = [phase])
    (own : Process.StopSection move) (stepped : s.step move = some after) :
    after.Kept ∧ after.loops = s.loops ∧ ∃ next, after.stops = [next] ∧ next ≠ .cancelled ∧
      next.sectionsLeft < phase.sectionsLeft ∧
      after.log.drop s.log.length ++ next.owes = phase.owes := by
  have sound := kept.sound.step stepped
  have first {old : StopPhase} (here : s.stops[0]? = some old) :
      phase = old := by simpa [only] using here
  cases own with
  | send =>
    cases takes_of_step stepped with
    | @sendFirst _ loop here =>
      refine ⟨⟨sound, kept.attached, kept.begunOnce⟩, rfl, .joining loop,
        by simp [only], by simp, ?_, ?_⟩
      · simp [first here, StopPhase.sectionsLeft]
      · simp [first here, StopPhase.owes]
    | sendAgain here =>
      refine ⟨⟨sound, kept.attached, kept.begunOnce⟩, rfl, .leaving s.exitReceiver, ?_,
        by simp, ?_, ?_⟩
      · simp [only]
      · simp [first here, StopPhase.sectionsLeft]
      · simp [first here, StopPhase.owes]
  | join =>
    cases takes_of_step stepped with
    | join here =>
      refine ⟨⟨sound, kept.attached, kept.begunOnce⟩, rfl, .leaving s.exitReceiver, ?_,
        by simp, ?_, ?_⟩
      · simp [only]
      · simp [first here, StopPhase.sectionsLeft]
      · simp [first here, StopPhase.owes]
  | leave =>
    cases takes_of_step stepped with
    | leave here =>
      refine ⟨⟨sound, kept.attached, kept.begunOnce⟩, rfl, .returned,
        by simp [only], by simp, ?_, ?_⟩
      · simp [first here, StopPhase.sectionsLeft]
      · simp [first here, StopPhase.owes]

/-- A stop that has returned leaves behind one loop that has ended, in a sweeper
that is stopped for good. -/
theorem Kept.ended (kept : s.Kept) (returned : s.stops = [.returned]) :
    s.state = .stopped ∧ s.loops = [none] := by
  have here : s.stops[0]? = some .returned := by rw [returned]; rfl
  have quiet := kept.sound.quiet (List.mem_of_getElem? here)
  obtain ⟨loop, only⟩ := List.length_eq_one_iff.mp kept.begunOnce
  refine ⟨kept.sound.stopped here, ?_⟩
  cases loop with
  | none => exact only
  | some running => exact absurd (only ▸ List.mem_singleton_self _) (quiet running)

end Supervision

/-- Whether front-ends may be running. -/
def Stage.serves : Stage → Bool
  | .startingHttp _ | .waiting | .telling _ | .draining _ => true
  | _ => false

namespace Process

variable {launch : Launch} {p next : Process} {move : Move}

/-- How the sweeper fares: it runs until the process calls the only stop. -/
def Tended (p : Process) : Prop :=
  match p.stage with
  | .begun => p.store = none
  | .stopping _ =>
    ∃ store phase, p.store = some store ∧ store.Kept ∧ store.stops = [phase] ∧ phase ≠ .cancelled
  | .returned _ => ∀ store, p.store = some store → store.Kept ∧ store.stops = [.returned]
  | _ => ∃ store, p.store = some store ∧ store.Kept ∧ store.state = .running ∧ store.stops = []

theorem Tended.kept (tended : p.Tended) {store : Supervision} (held : p.store = some store) :
    store.Kept := by
  unfold Tended at tended
  split at tended
  · cases held.symm.trans tended
  · obtain ⟨other, _, held', kept, -⟩ := tended
    exact Option.some.inj (held'.symm.trans held) ▸ kept
  · exact (tended store held).1
  · obtain ⟨other, held', kept, -⟩ := tended
    exact Option.some.inj (held'.symm.trans held) ▸ kept

@[simp] theorem store_start (p : Process) (listeners : Listeners) (frontEnd : FrontEnd) :
    (p.start listeners frontEnd).store = p.store := by
  unfold start
  split <;> rfl

theorem Tended.served (tended : p.Tended) {result : Except ServerError Unit}
    (here : p.stage = .served result) {store : Supervision} (held : p.store = some store) :
    store.Kept ∧ store.state = .running ∧ store.stops = [] := by
  simp only [Tended, here] at tended
  obtain ⟨other, held', fares⟩ := tended
  exact Option.some.inj (held'.symm.trans held) ▸ fares

theorem Tended.stopping (tended : p.Tended) {result : Except ServerError Unit}
    (here : p.stage = .stopping result) {store : Supervision} (held : p.store = some store) :
    store.Kept ∧ ∃ phase, store.stops = [phase] ∧ phase ≠ .cancelled := by
  simp only [Tended, here] at tended
  obtain ⟨other, phase, held', kept, fares⟩ := tended
  exact Option.some.inj (held'.symm.trans held) ▸ ⟨kept, phase, fares⟩

theorem Tended.takes (tended : p.Tended) (takes : Takes launch p move next) : next.Tended := by
  cases takes with
  | refuse here invalid =>
    simp only [Tended, here] at tended
    simp [Tended, tended]
  | create here valid => exact ⟨_, rfl, Supervision.kept_start launch.config.sweepInterval⟩
  | refuseAgain here | unboundHttp here | boundHttp here | unboundGrpc here | boundGrpc here
  | undescribed here | tell here | drained here =>
    simpa only [Tended, here] using tended
  | startGrpc here | startHttp here =>
    simpa only [Tended, here, store_start] using tended
  | callStop here held stepped =>
    obtain ⟨kept, going, none⟩ := tended.served here held
    obtain ⟨kept, -, -, loop, stops⟩ := kept.stop going none stepped
    exact ⟨_, _, rfl, kept, stops, by simp⟩
  | stopOn here held own stepped =>
    obtain ⟨kept, phase, only, -⟩ := tended.stopping here held
    obtain ⟨kept, -, phase, stops, waits, -, -⟩ := kept.stopSection only own stepped
    simp only [Tended, here]
    exact ⟨_, phase, rfl, kept, stops, waits⟩
  | finish here ended =>
    simp only [Tended, here] at tended
    obtain ⟨store, phase, held, kept, only, -⟩ := tended
    intro other held'
    obtain rfl := Option.some.inj (held.symm.trans held')
    simp only [stop?, held, Option.bind_some, only, List.getElem?_cons_zero,
      Option.some.injEq] at ended
    exact ⟨kept, by rw [only, ended]⟩
  | ask | complete => exact tended
  | hear here | joinFirst here | joinNext here =>
    simpa only [Tended, here] using tended
  | aside held isAside stepped =>
    cases here : p.stage with
    | begun =>
      simp only [Tended, here] at tended
      cases held.symm.trans tended
    | stopping result =>
      obtain ⟨kept, phase, only, waits⟩ := tended.stopping here held
      obtain ⟨kept, stops, -⟩ := kept.aside isAside stepped
      simp only [Tended]
      exact ⟨_, phase, rfl, kept, stops.trans only, waits⟩
    | returned result =>
      simp only [Tended, here] at tended ⊢
      intro other held'
      obtain rfl := Option.some.inj held'
      obtain ⟨kept, only⟩ := tended _ held
      obtain ⟨kept, stops, -⟩ := kept.aside isAside stepped
      exact ⟨kept, stops.trans only⟩
    | _ =>
      simp only [Tended, here] at tended ⊢
      obtain ⟨store, held', kept, going, none⟩ := tended
      obtain rfl := Option.some.inj (held.symm.trans held')
      obtain ⟨kept, stops, state⟩ := kept.aside isAside stepped
      exact ⟨_, rfl, kept, state.trans going, stops.trans none⟩

/-! ## The front-ends of a process -/

/-- Every front-end that has been started runs, has completed or has been joined, and those that run
hear it when they are told to shut down. -/
structure Tracked (p : Process) : Prop where
  started : (p.running ++ p.completed.map Prod.fst ++ p.ending.joined.map Prod.fst).Perm
    (p.steps.filterMap Step.started?)
  joined : p.steps.filterMap Step.joined? = p.ending.joined.map Prod.fst
  listening : p.shutdown.receivers = p.running.length + 1
  told : p.shutdown.value = true ↔ .tellShutdown ∈ p.steps
  idle : p.stage.serves = false → p.running = [] ∧ p.completed = []

theorem tracked_fresh : fresh.Tracked := by
  constructor <;> simp [fresh, Watch.create]

theorem Tracked.goTo (tracked : p.Tracked) (stage : Stage) (store : Option Supervision)
    (asked : Bool) (idle : stage.serves = false → p.running = [] ∧ p.completed = []) :
    Tracked { p with stage := stage, store := store, asked := asked } where
  started := tracked.started
  joined := tracked.joined
  listening := tracked.listening
  told := tracked.told
  idle := idle

theorem Tracked.append (tracked : p.Tracked) {part : Step.Part} {added : List Step}
    (all : Step.AllIn part added) (notStarting : part ≠ .starting) (notEnding : part ≠ .ending) :
    Tracked { p with steps := p.steps ++ added } where
  started := by
    rw [List.filterMap_append, all.started notStarting, List.append_nil]
    exact tracked.started
  joined := by
    rw [List.filterMap_append, all.joined notEnding, List.append_nil]
    exact tracked.joined
  listening := tracked.listening
  told := by
    rw [List.mem_append, or_iff_left (all.not_mem .ending rfl notEnding.symm)]
    exact tracked.told
  idle := tracked.idle

@[simp] theorem steps_start (p : Process) (listeners : Listeners) (frontEnd : FrontEnd) :
    (p.start listeners frontEnd).steps = p.steps ++ listeners.startOne frontEnd := by
  unfold start Listeners.startOne
  cases listeners.endpoint? frontEnd with
  | none => exact (List.append_nil _).symm
  | some endpoint => rfl

theorem Tracked.start (tracked : p.Tracked) (listeners : Listeners) (frontEnd : FrontEnd)
    {stage : Stage} (serves : stage.serves = true) :
    Tracked { p.start listeners frontEnd with stage := stage } := by
  have idle : stage.serves = false → False := by simp [serves]
  unfold Process.start
  cases bound : listeners.endpoint? frontEnd with
  | none => exact tracked.goTo stage p.store p.asked fun none => (idle none).elim
  | some endpoint =>
    have added := listeners.allIn_startOne frontEnd
    refine ⟨?_, ?_, ?_, ?_, fun none => (idle none).elim⟩
    · have one := listeners.started_startOne frontEnd
      rw [bound, Option.isSome_some, if_pos rfl] at one
      rw [List.filterMap_append, one]
      refine List.Perm.trans ?_ (tracked.started.append_right [frontEnd])
      simp only [List.append_assoc]
      refine List.Perm.append_left _ ?_
      rw [← List.append_assoc (p.completed.map Prod.fst)]
      exact List.perm_append_comm
    · rw [List.filterMap_append, added.joined (by decide), List.append_nil]
      exact tracked.joined
    · simp [Watch.subscribe, tracked.listening]
    · rw [List.mem_append, or_iff_left (added.not_mem .ending rfl (by decide))]
      exact tracked.told

theorem Tracked.tell (tracked : p.Tracked) {stage : Stage} (serves : stage.serves = true) :
    Tracked { p with stage := stage, shutdown := p.shutdown.send true,
                     steps := p.steps ++ [.tellShutdown] } := by
  have heard : p.shutdown.receivers ≠ 0 := by rw [tracked.listening]; omega
  refine ⟨?_, ?_, ?_, ?_, by simp [serves]⟩
  · rw [List.filterMap_append]
    exact (List.append_nil _).symm ▸ tracked.started
  · rw [List.filterMap_append]
    exact (List.append_nil _).symm ▸ tracked.joined
  · rw [Watch.receivers_send]
    exact tracked.listening
  · simp [Watch.send, heard]

theorem Tracked.complete (tracked : p.Tracked) {frontEnd : FrontEnd} (runs : frontEnd ∈ p.running)
    (result : Except ServerError Unit) :
    Tracked { p with shutdown := p.shutdown.release, running := p.running.erase frontEnd,
                     completed := p.completed ++ [(frontEnd, result)] } := by
  refine ⟨?_, tracked.joined, ?_, tracked.told, ?_⟩
  · refine List.Perm.trans ?_ tracked.started
    refine List.Perm.append_right _ ?_
    rw [List.map_append, ← List.append_assoc]
    refine List.perm_append_comm.trans ?_
    exact (List.perm_cons_erase runs).symm.append_right (p.completed.map Prod.fst)
  · have some := List.length_pos_of_mem runs
    simp only [Watch.release, tracked.listening, List.length_erase_of_mem runs]
    omega
  · intro idle
    rw [(tracked.idle idle).1] at runs
    cases runs

theorem Tracked.join (tracked : p.Tracked) {place : Nat} {frontEnd : FrontEnd}
    {result : Except ServerError Unit} (done : p.completed[place]? = some (frontEnd, result))
    {stage : Stage} (serves : stage.serves = true) :
    Tracked { p with stage := stage, completed := p.completed.eraseIdx place,
                     ending := { p.ending with joined := p.ending.joined ++ [(frontEnd, result)] },
                     steps := p.steps ++ Ending.joinSteps frontEnd result } := by
  obtain ⟨bound, found⟩ := List.getElem?_eq_some_iff.mp done
  have added := Ending.allIn_joinSteps frontEnd result
  refine ⟨?_, ?_, tracked.listening, ?_, by simp [serves]⟩
  · rw [List.filterMap_append, added.started (by decide), List.append_nil]
    refine List.Perm.trans ?_ tracked.started
    have taken := (List.getElem_cons_eraseIdx_perm bound).map Prod.fst
    rw [found] at taken
    simp only [List.append_assoc]
    refine List.Perm.append_left _ ?_
    rw [List.map_append, ← List.append_assoc]
    refine List.perm_append_comm.trans ?_
    exact taken.append_right (p.ending.joined.map Prod.fst)
  · rw [List.filterMap_append, tracked.joined, Ending.joined_joinSteps, List.map_append]
    rfl
  · have none : .tellShutdown ∉ Ending.joinSteps frontEnd result := by
      cases result <;> simp [Ending.joinSteps]
    rw [List.mem_append, or_iff_left none]
    exact tracked.told

theorem allIn_opening (config : Config) : Step.AllIn .creating config.opening := by
  simp [Config.opening, Step.AllIn, Step.part?]

theorem Tracked.takes (tracked : p.Tracked) (takes : Takes launch p move next) : next.Tracked := by
  have idle {stage : Stage} (here : p.stage = stage) (none : stage.serves = false) :
      p.running = [] ∧ p.completed = [] := tracked.idle (here ▸ none)
  have attempted {bound : List Endpoint} {frontEnd : FrontEnd} {steps : List Step}
      {outcome : Except ServerError (Option Endpoint)}
      (tried : Listeners.bindOne launch.config launch.network bound frontEnd = (steps, outcome)) :
      Step.AllIn .binding steps := by
    have same := Listeners.steps_bindOne launch.config launch.network bound frontEnd
    rw [tried] at same
    rw [show steps = _ from same]
    exact Listeners.allIn_attempt launch.config frontEnd
  cases takes with
  | refuse here | refuseAgain here | undescribed here | finish here =>
    exact tracked.goTo _ _ _ fun _ => idle here rfl
  | create here =>
    have opened := tracked.append (allIn_opening launch.config) (by decide) (by decide)
    exact opened.goTo _ _ _ fun _ => idle here rfl
  | unboundHttp here _ tried | boundHttp here _ tried
  | unboundGrpc here tried | boundGrpc here tried =>
    have more := tracked.append (attempted tried) (by decide) (by decide)
    exact more.goTo _ _ _ fun _ => idle here rfl
  | startGrpc | startHttp => exact tracked.start _ _ rfl
  | tell => exact tracked.tell rfl
  | drained _ noneRuns noneLeft => exact tracked.goTo _ _ _ fun _ => ⟨noneRuns, noneLeft⟩
  | @callStop _ store after here =>
    have stopping : Step.AllIn .stopping
        ([.stopStore] ++ (after.log.drop store.log.length).map .log) :=
      Step.AllIn.append (by simp [Step.AllIn, Step.part?]) (Step.allIn_log _ _)
    rw [List.append_assoc]
    exact (tracked.append stopping (by decide) (by decide)).goTo _ _ _ fun _ => idle here rfl
  | @stopOn _ store after _ here =>
    have reported := Step.allIn_log .stopping (after.log.drop store.log.length)
    exact (tracked.append reported (by decide) (by decide)).goTo _ _ _ fun _ => idle here rfl
  | ask => exact tracked.goTo _ _ _ tracked.idle
  | complete runs => exact tracked.complete runs _
  | hear here =>
    have shown : Step.AllIn .stopping [.log .shuttingDown] := by simp [Step.AllIn, Step.part?]
    exact { tracked.append shown (by decide) (by decide) with idle := by simp [Stage.serves] }
  | joinFirst here done | joinNext here done => exact tracked.join done rfl
  | aside => exact tracked.goTo _ _ _ tracked.idle

end Process

end ExpiringStore
