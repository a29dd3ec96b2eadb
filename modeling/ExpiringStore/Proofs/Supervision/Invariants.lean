import ExpiringStore.Proofs.Supervision.Moves

/-!
# What every move keeps

Three invariants of a sweeper among its callers: about its life and what has been begun, about who
holds the sender of the exit channel, and about what a running loop hears on the shutdown channel.
-/
namespace ExpiringStore

namespace Watch

variable {α : Type} (w : Watch α) (value : α)

@[simp] theorem closed_send : (w.send value).closed = w.closed := by
  unfold send
  split <;> rfl

theorem version_le_send : w.version ≤ (w.send value).version := by
  unfold send
  split
  · exact Nat.le_refl _
  · exact Nat.le_succ _

@[simp] theorem receivers_send : (w.send value).receivers = w.receivers := by
  unfold send
  split <;> rfl

/-- Anybody who listens has not seen what has just been sent. -/
theorem version_lt_send (heard : w.receivers ≠ 0) : w.version < (w.send value).version := by
  rw [send, if_neg heard]
  exact Nat.lt_succ_self _

theorem value_send (kept : w.version ≠ 0 → w.value = value) :
    (w.send value).version ≠ 0 → (w.send value).value = value := by
  unfold send
  split
  · exact kept
  · exact fun _ => rfl

/-- Where nothing has been sent unseen, a receiver waits until the sender is gone. -/
theorem changed?_of_seen {r : Receiver} (seen : r.seen = w.version) :
    w.changed? r = if w.closed then some (r, false) else none := by
  rw [changed?, if_neg (not_not_intro seen)]

end Watch

namespace Supervision

/-- Who has been begun and called at each stage of the sweeper's life. -/
structure Ordered (s : Supervision) : Prop where
  oneLoop : s.loops.length ≤ 1
  noLoopYet : s.state = .created → s.loops = []
  noStopYet : s.state ≠ .stopped → s.stops = []
  handle : s.dropped = false → (s.handle.isSome = true ↔ s.state = .running)
  begun : ∀ loop, s.handle = some loop ∨ .locked (some loop) ∈ s.stops ∨ .joining loop ∈ s.stops →
    loop < s.loops.length

/-- The exit channel's sender is held where the lock guards it until the loop is begun, and by the
loop then. Nothing is ever sent on the channel. -/
structure Held (s : Supervision) : Prop where
  atFirst : s.state = .created → s.dropped = false → s.exitSender = true ∧ s.exit.closed = false
  handedOver : s.state ≠ .created → s.exitSender = false
  byLoop : ∀ running, some running ∈ s.loops → running.exitSender = true ∧ s.exit.closed = false
  byNobody : s.state ≠ .created → (∀ running, some running ∉ s.loops) → s.exit.closed = true
  silent : ∀ receiver, receiver = s.exitReceiver ∨ .leaving receiver ∈ s.stops →
    receiver.seen = s.exit.version
  returned : .returned ∈ s.stops → s.exit.closed = true

/-- Whether a loop that is running has been told to end, by a stop or by the sweeper's end. -/
def Signalled (s : Supervision) : Prop := (∃ stop ∈ s.stops, stop.hasSent = true) ∨ s.dropped = true

/-- A running loop listens, and hears of every signal that was given since it was begun. -/
structure Audible (s : Supervision) : Prop where
  listens : ∀ running, some running ∈ s.loops →
    s.shutdown.receivers ≠ 0 ∧ running.receiver.seen ≤ s.shutdown.version
  onlyTrue : s.shutdown.version ≠ 0 → s.shutdown.value = true
  signalled : s.Signalled → ∀ running, some running ∈ s.loops →
    running.receiver.seen < s.shutdown.version ∨ s.shutdown.closed = true

variable {s next : Supervision} {move : Move}

/-- Of one loop at most, none is left when it ends. -/
theorem not_mem_set_none {loops : List (Option SweepLoop)} (one : loops.length ≤ 1) {loop : Nat}
    {running : SweepLoop} (here : loops[loop]? = some (some running)) (other : SweepLoop) :
    some other ∉ loops.set loop none := by
  match loops, loop with
  | [_], 0 => simp
  | _ :: _ :: _, _ => simp at one

/-- The shutdown branch is ready only for a loop that is to end. -/
theorem Audible.eq_endLoop (audible : s.Audible) {loop : Nat} {running : SweepLoop}
    (here : s.loops[loop]? = some (some running)) (noticed : s.notice? loop running = some next) :
    next = s.endLoop loop running := by
  have behind := (audible.listens running (List.mem_of_getElem? here)).2
  unfold notice? Watch.changed? at noticed
  split at noticed
  · cases noticed
  · rename_i receiver sent told
    split at noticed
    · exact (Option.some.inj noticed).symm
    · rename_i goesOn
      simp only [Bool.or_eq_true, Bool.not_eq_true', not_or, Bool.not_eq_false] at goesOn
      split at told
      · rename_i unseen
        exact absurd (audible.onlyTrue (by omega)) goesOn.2
      · split at told
        · obtain ⟨-, rfl⟩ := Prod.mk.inj (Option.some.inj told)
          exact absurd goesOn.1 Bool.false_ne_true
        · cases told

theorem ordered_new (interval : SweepInterval) (table : Table) : (new interval table).Ordered :=
  ⟨Nat.zero_le 1, fun _ => rfl, fun _ => rfl, fun _ => by simp [new], by simp [new]⟩

theorem held_new (interval : SweepInterval) (table : Table) : (new interval table).Held :=
  ⟨fun _ _ => ⟨rfl, rfl⟩, fun other => absurd rfl other,
    by simp [new], fun other => absurd rfl other, by simp [new, Watch.create], by simp [new]⟩

theorem audible_new (interval : SweepInterval) (table : Table) : (new interval table).Audible :=
  ⟨by simp [new], fun sent => absurd rfl sent, by simp [new]⟩

theorem Ordered.setStop (ordered : s.Ordered) (call : Nat) {phase : StopPhase}
    (known : ∀ loop, phase = .locked (some loop) ∨ phase = .joining loop → loop < s.loops.length) :
    Ordered { s with stops := s.stops.set call phase } where
  oneLoop := ordered.oneLoop
  noLoopYet := ordered.noLoopYet
  noStopYet going := by simp only [ordered.noStopYet going, List.set_nil]
  handle := ordered.handle
  begun loop named := by
    rcases named with handle | locked | joining
    · exact ordered.begun loop (.inl handle)
    · rcases List.mem_or_eq_of_mem_set locked with old | new
      · exact ordered.begun loop (.inr (.inl old))
      · exact known loop (.inl new.symm)
    · rcases List.mem_or_eq_of_mem_set joining with old | new
      · exact ordered.begun loop (.inr (.inr old))
      · exact known loop (.inr new.symm)

theorem Ordered.takes (ordered : s.Ordered) (audible : s.Audible) (takes : s.Takes move next) :
    next.Ordered := by
  cases takes with
  | startAgain | sweep | serve => exact { ordered with }
  | start attached fresh =>
    have noLoop := ordered.noLoopYet fresh
    have noStop : s.stops = [] := ordered.noStopYet (by simp [fresh])
    constructor <;> simp [noLoop, noStop]
  | lock attached going =>
    refine ⟨ordered.oneLoop, nofun, fun other => absurd rfl other, fun _ => by simp, ?_⟩
    have noStop := ordered.noStopYet going
    intro loop named
    simp only [noStop, List.nil_append, List.mem_singleton, reduceCtorEq, false_or, or_false,
      StopPhase.locked.injEq] at named
    exact ordered.begun loop (.inl named.symm)
  | lockAgain attached stopped =>
    refine ⟨ordered.oneLoop, ordered.noLoopYet, fun other => absurd stopped other,
      ordered.handle, ?_⟩
    intro loop named
    simp only [List.mem_append, List.mem_singleton, StopPhase.locked.injEq, reduceCtorEq,
      or_false] at named
    exact ordered.begun loop named
  | @sendFirst call loop here =>
    have known := ordered.begun loop (.inr (.inl (List.mem_of_getElem? here)))
    exact { ordered.setStop call (by simpa using known) with }
  | @sendAgain call | @join call =>
    exact { ordered.setStop call (by simp) with }
  | @leave call => exact { ordered.setStop call (by simp) with }
  | @cancelJoining call | @cancelLeaving call =>
    exact { ordered.setStop call (by simp) with }
  | notice here noticed =>
    obtain rfl := audible.eq_endLoop here noticed
    refine ⟨?_, ?_, ordered.noStopYet, ordered.handle, ?_⟩
    · simpa [endLoop] using ordered.oneLoop
    · intro fresh
      simp [endLoop, ordered.noLoopYet fresh]
    · simpa [endLoop] using ordered.begun
  | drop attached ended =>
    refine ⟨ordered.oneLoop, ordered.noLoopYet, ordered.noStopYet, nofun, ?_⟩
    intro loop named
    exact ordered.begun loop (.inr (named.resolve_left nofun))

theorem Held.setStop (held : s.Held) (call : Nat) {phase : StopPhase}
    (listening : ∀ receiver, phase = .leaving receiver → receiver.seen = s.exit.version)
    (told : phase = .returned → s.exit.closed = true) :
    Held { s with stops := s.stops.set call phase } where
  atFirst := held.atFirst
  handedOver := held.handedOver
  byLoop := held.byLoop
  byNobody := held.byNobody
  silent receiver known := by
    rcases known with own | leaving
    · exact held.silent receiver (.inl own)
    · rcases List.mem_or_eq_of_mem_set leaving with old | new
      · exact held.silent receiver (.inr old)
      · exact listening receiver new.symm
  returned ended := by
    rcases List.mem_or_eq_of_mem_set ended with old | new
    · exact held.returned old
    · exact told new.symm

theorem Held.takes (held : s.Held) (ordered : s.Ordered) (audible : s.Audible)
    (takes : s.Takes move next) : next.Held := by
  have own := held.silent s.exitReceiver (.inl rfl)
  cases takes with
  | startAgain | sweep | serve => exact { held with }
  | start attached fresh =>
    have noLoop := ordered.noLoopYet fresh
    have noStop : s.stops = [] := ordered.noStopYet (by simp [fresh])
    obtain ⟨sender, opened⟩ := held.atFirst fresh attached
    refine ⟨nofun, fun _ => rfl, ?_, ?_, held.silent, held.returned⟩
    · simpa [noLoop, sender] using opened
    · intro _ nobody
      exact absurd (List.mem_append_right _ (List.mem_singleton_self _)) (nobody _)
  | lock attached going =>
    have noStop := ordered.noStopYet going
    -- Where a loop was begun, the sender went along with it, so what is given up here is nothing.
    refine ⟨nofun, fun _ => rfl, ?_, ?_, ?_, ?_⟩
    · intro running here
      have begun : s.state ≠ .created := fun fresh => by simp [ordered.noLoopYet fresh] at here
      obtain ⟨sender, opened⟩ := held.byLoop running here
      exact ⟨sender, by simp [Watch.dropSender, opened, held.handedOver begun]⟩
    · intro _ nobody
      by_cases fresh : s.state = .created
      · simp [Watch.dropSender, (held.atFirst fresh attached).1]
      · simp [Watch.dropSender, held.byNobody fresh nobody]
    · intro receiver known
      exact held.silent receiver (known.imp_right fun leaving => by simpa using leaving)
    · simp [noStop]
  | lockAgain attached stopped =>
    refine ⟨held.atFirst, held.handedOver, held.byLoop, held.byNobody, ?_, ?_⟩
    · intro receiver known
      exact held.silent receiver (known.imp_right fun leaving => by simpa using leaving)
    · intro ended
      exact held.returned (by simpa using ended)
  | @sendFirst call loop here =>
    exact { held.setStop call (by simp) (by simp) with }
  | @sendAgain call | @join call =>
    exact { held.setStop call (by simpa using own)
      (by simp) with }
  | @leave call receiver here told =>
    have seen := held.silent receiver (.inr (List.mem_of_getElem? here))
    have closed : s.exit.closed = true := by
      rw [Watch.changed?_of_seen _ seen] at told
      simpa using told
    exact { held.setStop call (by simp) (fun _ => closed) with }
  | @cancelJoining call | @cancelLeaving call =>
    exact { held.setStop call (by simp) (by simp) with }
  | notice here noticed =>
    obtain rfl := audible.eq_endLoop here noticed
    have gone := not_mem_set_none ordered.oneLoop here
    obtain ⟨sender, -⟩ := held.byLoop _ (List.mem_of_getElem? here)
    have closed : (s.exit.dropSender true).closed = true := by simp [Watch.dropSender]
    refine ⟨?_, held.handedOver, ?_, ?_, held.silent, ?_⟩
    · intro fresh
      simp [ordered.noLoopYet fresh] at here
    · intro other mem
      exact absurd mem (gone other)
    · intro _ _
      simp only [endLoop, sender, closed]
    · intro _
      simp only [endLoop, sender, closed]
  | drop attached ended =>
    refine ⟨nofun, fun _ => rfl, ?_, ?_, held.silent, ?_⟩
    · intro running here
      have begun : s.state ≠ .created := fun fresh => by
        simp [Supervision.drop, ordered.noLoopYet fresh] at here
      obtain ⟨sender, opened⟩ := held.byLoop running here
      have none := held.handedOver begun
      exact ⟨sender, by simp [Supervision.drop, Watch.dropSender, Watch.release, opened, none]⟩
    · intro begun nobody
      simp [Supervision.drop, Watch.dropSender, Watch.release, held.byNobody begun nobody]
    · intro returned
      simp [Supervision.drop, Watch.dropSender, Watch.release, held.returned returned]

theorem Audible.setStop (audible : s.Audible) {call : Nat} {old phase : StopPhase}
    (here : s.stops[call]? = some old) (earlier : phase.hasSent = true → old.hasSent = true) :
    Audible { s with stops := s.stops.set call phase } where
  listens := audible.listens
  onlyTrue := audible.onlyTrue
  signalled given := by
    refine audible.signalled (given.imp_left ?_)
    rintro ⟨stop, mem, sent⟩
    rcases List.mem_or_eq_of_mem_set mem with before | rfl
    · exact ⟨stop, before, sent⟩
    · exact ⟨old, List.mem_of_getElem? here, earlier sent⟩

/-- Whoever calls it, a signal reaches the loop that is running. -/
theorem Audible.send (audible : s.Audible) (stops : List StopPhase) :
    Audible { s with shutdown := s.shutdown.send true, stops := stops } where
  listens running here := by
    obtain ⟨heard, behind⟩ := audible.listens running here
    exact ⟨by rwa [Watch.receivers_send], Nat.le_trans behind (s.shutdown.version_le_send true)⟩
  onlyTrue := s.shutdown.value_send true audible.onlyTrue
  signalled _ running here := by
    obtain ⟨heard, behind⟩ := audible.listens running here
    exact .inl (Nat.lt_of_le_of_lt behind (s.shutdown.version_lt_send true heard))

theorem Audible.takes (audible : s.Audible) (ordered : s.Ordered) (takes : s.Takes move next) :
    next.Audible := by
  cases takes with
  | startAgain | sweep | serve => exact { audible with }
  | start attached fresh =>
    have noLoop := ordered.noLoopYet fresh
    have noStop : s.stops = [] := ordered.noStopYet (by simp [fresh])
    -- Nothing has been signalled before the loop is begun, so there is nothing that
    -- it could have missed.
    refine ⟨?_, audible.onlyTrue, ?_⟩
    · simp [noLoop, Watch.subscribe]
    · simp [Signalled, noStop, attached]
  | lock attached going | lockAgain attached going =>
    refine ⟨audible.listens, audible.onlyTrue, fun given => audible.signalled (given.imp_left ?_)⟩
    rintro ⟨stop, mem, sent⟩
    rcases List.mem_append.mp mem with before | new
    · exact ⟨stop, before, sent⟩
    · rw [List.mem_singleton.mp new] at sent
      cases sent
  | @sendFirst call loop => exact audible.send _
  | @sendAgain call => exact { audible.send (s.stops.set call (.leaving s.exitReceiver)) with }
  | join here | leave here | cancelJoining here | cancelLeaving here =>
    exact { audible.setStop here (fun _ => rfl) with }
  | notice here noticed =>
    obtain rfl := audible.eq_endLoop here noticed
    have gone := not_mem_set_none ordered.oneLoop here
    exact ⟨fun other mem => absurd mem (gone other), audible.onlyTrue,
      fun _ other mem => absurd mem (gone other)⟩
  | drop attached ended =>
    have sent := audible.send s.stops
    exact ⟨sent.listens, sent.onlyTrue,
      fun _ _ _ => .inr (by simp [Supervision.drop, Watch.dropSender])⟩

/-- What holds of a sweeper however its moves are mixed. -/
structure Sound (s : Supervision) : Prop where
  ordered : s.Ordered
  held : s.Held
  audible : s.Audible

theorem sound_new (interval : SweepInterval) (table : Table) : (new interval table).Sound :=
  ⟨ordered_new interval table, held_new interval table, audible_new interval table⟩

theorem Sound.step (sound : s.Sound) (stepped : s.step move = some next) : next.Sound :=
  have takes := takes_of_step stepped
  ⟨sound.ordered.takes sound.audible takes, sound.held.takes sound.ordered sound.audible takes,
    sound.audible.takes sound.ordered takes⟩

theorem run_cons (s : Supervision) (move : Move) (rest : List Move) :
    s.run (move :: rest) = (s.step move).bind fun next => next.run rest := rfl

/-- What every move keeps, a run keeps. -/
theorem run_induction {P : Supervision → Prop}
    (keeps : ∀ {s next : Supervision} {move : Move}, P s → s.step move = some next → P next)
    {moves : List Move} (start : P s) (ran : s.run moves = some next) : P next := by
  induction moves generalizing s with
  | nil => exact Option.some.inj ran ▸ start
  | cons move rest ih =>
    rw [run_cons] at ran
    obtain ⟨mid, stepped, ran⟩ := Option.bind_eq_some_iff.mp ran
    exact ih (keeps start stepped) ran

theorem Sound.run (sound : s.Sound) {moves : List Move} (ran : s.run moves = some next) :
    next.Sound :=
  run_induction (fun kept stepped => kept.step stepped) sound ran

/-- What every move of a sound sweeper keeps, a run of it keeps. -/
theorem Sound.run_induction {P : Supervision → Prop}
    (keeps : ∀ {s next : Supervision} {move : Move},
      s.Sound → P s → s.step move = some next → P next)
    (sound : s.Sound) (start : P s) {moves : List Move} (ran : s.run moves = some next) :
    P next := by
  have kept : next.Sound ∧ P next := by
    refine Supervision.run_induction (P := fun t => t.Sound ∧ P t) ?_ ⟨sound, start⟩ ran
    exact fun ⟨sound, kept⟩ stepped => ⟨sound.step stepped, keeps sound kept stepped⟩
  exact kept.2

end Supervision

end ExpiringStore
