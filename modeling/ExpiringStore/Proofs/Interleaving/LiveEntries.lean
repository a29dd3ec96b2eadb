import Mathlib.Data.List.Induction
import ExpiringStore.Proofs.Interleaving.Turns

/-!
# Live entries among many callers

However the sections of any number of calls are mixed, an entry that has not expired goes only where
its key is deleted or written, and a reader is answered with what it saw.
-/
namespace ExpiringStore

namespace Shared

variable {s next : Shared} {turn : Turn} {caller : Nat}

/-- Where a caller stands, its own last turn has put it. -/
theorem exists_last_turn {start : Shared} {turns : List Turn} (ran : start.run turns = some s)
    (moved : s.callers caller ≠ start.callers caller) :
    ∃ before turn rest mid next, turns = before ++ turn :: rest ∧ turn.caller? = some caller ∧
      (∀ later ∈ rest, later.caller? ≠ some caller) ∧ start.run before = some mid ∧
      mid.step turn = some next ∧ next.callers caller = s.callers caller := by
  induction turns using List.reverseRecOn generalizing s with
  | nil => exact absurd (Option.some.inj ran ▸ rfl) moved
  | append_singleton turns turn ih =>
    rw [run_append] at ran
    obtain ⟨mid, ranBefore, ran⟩ := Option.bind_eq_some_iff.mp ran
    have stepped : mid.step turn = some s := by simpa [run] using ran
    by_cases own : turn.caller? = some caller
    · exact ⟨turns, turn, [], mid, s, rfl, own, by simp, ranBefore, stepped, rfl⟩
    · have stays := callers_of_step stepped own
      obtain ⟨before, last, rest, earlier, next, rfl, ownLast, others, ranEarlier,
        steppedLast, placed⟩ := ih ranBefore (stays ▸ moved)
      refine ⟨before, last, rest ++ [turn], earlier, next, by simp, ownLast, ?_, ranEarlier,
        steppedLast, placed.trans stays.symm⟩
      intro later mem
      rcases List.mem_append.mp mem with old | new
      · exact others later old
      · exact List.mem_singleton.mp new ▸ own

/-- A phase in the middle of a call was reached by running a section. -/
theorem exists_last_section {start : Shared} {turns : List Turn} (ran : start.run turns = some s)
    (idle : start.callers caller = .idle) (inner : (s.callers caller).Inner) :
    ∃ before rest mid table, turns = before ++ .proceed caller :: rest ∧
      (∀ later ∈ rest, later.caller? ≠ some caller) ∧ start.run before = some mid ∧
      (mid.callers caller).run mid.clock mid.table = some (table, s.callers caller) := by
  obtain ⟨before, turn, rest, mid, next, split, own, others, ranBefore, stepped, placed⟩ :=
    exists_last_turn ran (idle ▸ inner.ne_idle)
  refine ⟨before, rest, mid, ?_⟩
  rcases step_cases stepped with ⟨reading, rfl, -, -⟩ | ⟨mover, call, rfl, rfl⟩ |
    ⟨mover, table, phase, rfl, ranSection, rfl⟩
  · cases own
  · obtain rfl := Option.some.inj own
    rw [place_self] at placed
    exact absurd placed (inner.ne_phase call)
  · obtain rfl := Option.some.inj own
    rw [place_self] at placed
    exact ⟨table, split, others, ranBefore, placed ▸ ranSection⟩

/-- A caller's last call was a `get`: it read the clock, then looked its key up, and its answer is
what the lookup saw at that reading. -/
def ReadBy (start : Shared) (turns : List Turn) (caller : Nat) (found : Option String) : Prop :=
  ∃ before between rest key reading lookup,
    turns = before ++ .proceed caller :: (between ++ .proceed caller :: rest) ∧
    (∀ turn ∈ between, turn.caller? ≠ some caller) ∧ (∀ call, .enter caller call ∉ rest) ∧
    start.run before = some reading ∧ reading.callers caller = .getReading key ∧
    start.run (before ++ .proceed caller :: between) = some lookup ∧
    lookup.callers caller = .getLookup key reading.clock ∧
    (lookup.table.live? key reading.clock).map Entry.value = found

variable {start lookup : Shared} {turns : List Turn}

theorem exists_reading {key : String} {moment : Instant} (ran : start.run turns = some lookup)
    (idle : start.callers caller = .idle)
    (atLookup : lookup.callers caller = .getLookup key moment) :
    ∃ before between reading, turns = before ++ .proceed caller :: between ∧
      (∀ turn ∈ between, turn.caller? ≠ some caller) ∧ start.run before = some reading ∧
      reading.callers caller = .getReading key ∧ reading.clock = moment := by
  obtain ⟨before, between, reading, table, split, others, ranReading, read⟩ :=
    exists_last_section ran idle (atLookup ▸ trivial)
  obtain ⟨atReading, same⟩ := Phase.getReading_of_run (atLookup ▸ read)
  exact ⟨before, between, reading, split, others, ranReading, atReading, same.symm⟩

theorem readBy_of_lookup {key : String} {moment : Instant} {rest : List Turn}
    (ran : start.run turns = some lookup) (idle : start.callers caller = .idle)
    (atLookup : lookup.callers caller = .getLookup key moment)
    (last : ∀ call, .enter caller call ∉ rest) :
    start.ReadBy (turns ++ .proceed caller :: rest) caller
      ((lookup.table.live? key moment).map Entry.value) := by
  obtain ⟨before, between, reading, rfl, others, ranReading, atReading, rfl⟩ :=
    exists_reading ran idle atLookup
  exact ⟨before, between, rest, key, reading, lookup,
    by simp, others, last, ranReading, atReading, ran, atLookup, rfl⟩

theorem readBy_of_answered (ran : start.run turns = some s) (idle : start.callers caller = .idle)
    {found : Option String} (answered : s.callers caller = .answered (.value found)) :
    start.ReadBy turns caller found := by
  obtain ⟨toLast, rest, mid, table, rfl, others, ranLast, ranSection⟩ :=
    exists_last_section ran idle (answered ▸ trivial)
  have last : ∀ call, .enter caller call ∉ rest := fun call mem => others _ mem rfl
  rcases Phase.answered_of_run (answered ▸ ranSection) with
    ⟨key, moment, atLookup, rfl⟩ | ⟨key, atEviction, rfl⟩
  · exact readBy_of_lookup ranLast idle atLookup last
  · -- The lookup is the section before the eviction.
    obtain ⟨toLookup, between, lookup, table, rfl, othersBetween, ranLookup, looked⟩ :=
      exists_last_section ranLast idle (atEviction ▸ trivial)
    obtain ⟨moment, atLookup, sawNothing⟩ := Phase.getLookup_of_run (atEviction ▸ looked)
    rw [← sawNothing, List.append_assoc, List.cons_append]
    apply readBy_of_lookup ranLookup idle atLookup
    intro call mem
    rcases List.mem_append.mp mem with inside | behind
    · exact othersBetween _ inside rfl
    · rcases List.mem_cons.mp behind with eviction | outside
      · cases eviction
      · exact last call outside

end Shared

/-- However the sections of any number of calls are mixed: what leaves a table has reached its
deadline, or its key is deleted or written; nothing else becomes of an entry over any further run at
the end of which it is live; and a reader is answered with the value that stood under its key when
it looked, if that was live at the reading it had made before. -/
theorem sections_keep_live_entries {clock : Instant} {table : Table} {turns : List Turn}
    {s : Shared} (ran : (Shared.quiet clock table).run turns = some s) :
    (∀ turn next key entry, s.step turn = some next → s.table.find? key = some entry →
      next.table.find? key ≠ some entry →
        ∃ caller, turn = .proceed caller ∧
          ((s.callers caller).Writes key ∨ (s.callers caller).Reclaims key ∧
            ∃ deadline, entry.deadline = some deadline ∧ deadline.toNanos ≤ s.clock.toNanos)) ∧
    (∀ further later key entry, s.run further = some later → s.table.find? key = some entry →
      entry.expiredAt later.clock = false →
        later.table.find? key = some entry ∨ s.WrittenIn further key) ∧
    ∀ caller found, s.callers caller = .answered (.value found) →
      (Shared.quiet clock table).ReadBy turns caller found := by
  have atFirst : (Shared.quiet clock table).Punctual := fun _ => trivial
  have punctual := atFirst.run ran
  refine ⟨?_, ?_, ?_⟩
  · intro turn next key entry stepped held gone
    rcases Shared.find?_of_step punctual stepped held with
      kept | ⟨caller, own, ⟨reclaims, expired⟩ | writes⟩
    · exact absurd kept gone
    · exact ⟨caller, own, .inr ⟨reclaims, Entry.expiredAt_iff.mp expired⟩⟩
    · exact ⟨caller, own, .inl writes⟩
  · intro further later key entry ranOn held live
    exact Shared.find?_of_run punctual ranOn held live
  · intro caller found answered
    exact Shared.readBy_of_answered ran rfl answered

/-- One caller finds an expired entry, another replaces it before the first comes to evict, and a
third is answered with the new value at a time when that has expired as well. -/
def Turn.overtaken (expiry later : Instant) (ttl : Duration) : List Turn :=
  [.tick expiry, .enter 0 (.get "k"), .proceed 0, .proceed 0, .enter 1 (.set "k" "new" (some ttl)),
    .proceed 1, .proceed 1, .proceed 0, .enter 2 (.get "k"), .proceed 2, .tick later, .proceed 2,
    .enter 3 .sweep, .proceed 3]

theorem sections_keep_live_entries_overtaken :
    let start := Shared.quiet ⟨0, 0⟩ { entries := [("k", Entry.expiringAt "old" ⟨1, 0⟩)] }
    let turns := Turn.overtaken ⟨1, 0⟩ ⟨6, 0⟩ ⟨5, 0⟩
    ∃ s, start.run turns = some s ∧ start.ReadBy turns 2 (some "new") ∧ start.ReadBy turns 0 none ∧
      s.table.find? "k" = some (Entry.expiringAt "new" ⟨6, 0⟩) ∧
      ∃ next, s.step (.proceed 3) = some next ∧ next.table.find? "k" = none ∧
        (s.callers 3).Reclaims "k" := by
  intro start turns
  have ends : (start.run turns).isSome = true := by decide
  obtain ⟨s, ran⟩ := Option.isSome_iff_exists.mp ends
  have phases : (start.run turns).map (fun s => (s.callers 0, s.callers 2, s.callers 3)) =
      some (.answered (.value none), .answered (.value (some "new")), .sweepRetention ⟨6, 0⟩) := by
    decide
  have tables : (start.run turns).map (fun s =>
      (s.table.find? "k", (s.step (.proceed 3)).map fun next => next.table.find? "k")) =
      some (some (Entry.expiringAt "new" ⟨6, 0⟩), some none) := by decide
  rw [ran] at phases tables
  simp only [Option.map_some, Option.some.injEq, Prod.mk.injEq] at phases tables
  obtain ⟨missed, answered, sweeping⟩ := phases
  obtain ⟨held, swept⟩ := tables
  obtain ⟨next, stepped, gone⟩ := Option.map_eq_some_iff.mp swept
  obtain ⟨onlyExpired, -, reads⟩ := sections_keep_live_entries ran
  refine ⟨s, ran, reads 2 _ answered, reads 0 _ missed, held, next, stepped, gone, ?_⟩
  obtain ⟨caller, own, writes | ⟨reclaims, -⟩⟩ :=
    onlyExpired _ next "k" _ stepped held (by rw [gone]; nofun)
  · obtain rfl : 3 = caller := Turn.proceed.inj own
    rw [sweeping] at writes
    exact writes.elim
  · obtain rfl : 3 = caller := Turn.proceed.inj own
    exact reclaims

end ExpiringStore
