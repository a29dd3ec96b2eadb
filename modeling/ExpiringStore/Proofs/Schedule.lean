import Mathlib.Tactic.ByContra
import ExpiringStore.Store.Sweeper

/-!
# The schedule of a sweeper

When the timer wakes the sweep loop, said by the ticks that pass instead of by
the number of the latest.
-/
namespace ExpiringStore.Sweeper

theorem interval_pos (s : Sweeper) : (0 : Int) < s.interval.span.toNanos := by
  have atLeast := s.interval.atLeastMilli
  have positive : 0 < nanosPerMilli := by decide
  omega

/-- The ticks up to a moment are those up to the latest. -/
theorem tickAt_le_iff {s : Sweeper} {k moment : Int} :
    s.tickAt k ≤ moment ↔ k ≤ s.latestTick moment := by
  unfold tickAt latestTick
  rw [Int.le_ediv_iff_mul_le s.interval_pos]
  omega

theorem tickAt_succ (s : Sweeper) (k : Int) :
    s.tickAt (k + 1) = s.tickAt k + s.interval.span.toNanos := by
  unfold tickAt
  rw [Int.add_mul, Int.one_mul, Int.add_assoc]

theorem tickAt_mono (s : Sweeper) {j k : Int} (order : j ≤ k) : s.tickAt j ≤ s.tickAt k := by
  unfold tickAt
  exact Int.add_le_add_left (Int.mul_le_mul_of_nonneg_right order (Int.le_of_lt s.interval_pos)) _

/-- A tick after the sweeper's creation has a positive number. -/
theorem one_le_of_created_lt_tickAt {s : Sweeper} {k : Int}
    (later : s.created.toNanos < s.tickAt k) :
    1 ≤ k := by
  by_contra early
  have before := s.tickAt_mono (show k ≤ 0 by omega)
  simp only [tickAt, Int.zero_mul] at before later
  omega

/-- The timer wakes a running sweep loop exactly if some tick lies between the whole milliseconds of
the two clock readings, however many ticks do. -/
theorem wakes_iff {s : Sweeper} {before after : Instant} :
    s.wakes before after = true ↔
      s.state = .running ∧
        ∃ k, 1 ≤ k ∧ before.floorMilli < s.tickAt k ∧ s.tickAt k ≤ after.floorMilli := by
  simp only [wakes, Bool.and_eq_true, beq_iff_eq, decide_eq_true_eq]
  constructor
  · rintro ⟨⟨running, first⟩, later⟩
    exact ⟨running, _, first, later, tickAt_le_iff.mpr (Int.le_refl _)⟩
  · rintro ⟨running, k, first, later, reached⟩
    have latest := tickAt_le_iff.mp reached
    refine ⟨⟨running, Int.le_trans first latest⟩, ?_⟩
    exact Int.lt_of_lt_of_le later (s.tickAt_mono latest)

end ExpiringStore.Sweeper
