import ExpiringStore.Store.Table

/-!
# Deadlines

When an entry counts as expired, in exact nanoseconds, and what later clock readings cannot undo.
-/
namespace ExpiringStore

namespace Duration

/-- Only the span of no time has no nanoseconds. -/
theorem toNanos_eq_zero_iff {d : Duration} : d.toNanos = 0 ↔ d = zero := by
  constructor
  · intro none
    obtain ⟨seconds, nanos⟩ := d
    simp only [toNanos, nanosPerSecond] at none
    have noSeconds : seconds = 0 := UInt64.toNat_inj.mp (by rw [UInt64.toNat_zero]; omega)
    have noNanos : nanos = 0 := Fin.ext (by rw [Fin.val_zero]; omega)
    rw [noSeconds, noNanos]
    rfl
  · rintro rfl
    rfl

end Duration

namespace Instant

theorem toNanos_le_last (t : Instant) : t.toNanos ≤ last.toNanos := by
  have final : last.toNanos = 9223372036854775807 * 1000000000 + 999999999 := by decide
  have seconds := t.seconds.toInt_lt
  have nanos := t.nanos.isLt
  simp only [toNanos, nanosPerSecond] at final ⊢
  omega

/-- Waiting never takes the clock back, not even where it stops at the last instant. -/
theorem toNanos_le_getD_after? (t : Instant) (d : Duration) :
    t.toNanos ≤ ((t.after? d).getD last).toNanos := by
  cases sum : t.after? d with
  | none => exact t.toNanos_le_last
  | some u =>
    have exact_sum := toNanos_of_after? sum
    simp only [Option.getD_some]
    omega

end Instant

namespace Entry

theorem expiredAt_iff {e : Entry} {now : Instant} :
    e.expiredAt now = true ↔ ∃ deadline, e.deadline = some deadline ∧
      deadline.toNanos ≤ now.toNanos := by
  unfold expiredAt
  cases e.deadline with
  | none => simp
  | some deadline => simp [Instant.atOrBefore_iff]

/-- An expired entry stays expired. -/
theorem expiredAt_mono {e : Entry} {now later : Instant} (expired : e.expiredAt now = true)
    (order : now.toNanos ≤ later.toNanos) : e.expiredAt later = true := by
  obtain ⟨deadline, has, reached⟩ := expiredAt_iff.mp expired
  exact expiredAt_iff.mpr ⟨deadline, has, Int.le_trans reached order⟩

/-- The moment, in nanoseconds, from which an entry no longer counts. -/
def deadlineNanos (e : Entry) : Option Int := e.deadline.map Instant.toNanos

theorem expiredAt_iff_deadlineNanos {e : Entry} {now : Instant} :
    e.expiredAt now = true ↔ ∃ deadline ∈ e.deadlineNanos, deadline ≤ now.toNanos := by
  rw [expiredAt_iff]
  cases h : e.deadline <;> simp [deadlineNanos, h]

/-- A time to live counts from the clock reading at which the entry is made. -/
theorem toNanos_of_deadlineFor {ttl : Option Duration} {now deadline : Instant}
    (given : deadlineFor ttl now = some deadline) :
    ∃ span, ttl = some span ∧ 0 < span.toNanos ∧
      deadline.toNanos = now.toNanos + span.toNanos := by
  unfold deadlineFor at given
  cases ttl with
  | none => cases given
  | some span =>
    simp only at given
    split at given
    · cases given
    · rename_i notZero
      refine ⟨span, rfl, ?_, Instant.toNanos_of_after? given⟩
      exact Nat.pos_of_ne_zero fun none => notZero (Duration.toNanos_eq_zero_iff.mp none)

/-- No entry is expired at the reading at which it is made. -/
theorem expiredAt_withTtl_self (value : String) (ttl : Option Duration) (now : Instant) :
    (withTtl value ttl now).expiredAt now = false := by
  rw [← Bool.not_eq_true, expiredAt_iff]
  rintro ⟨deadline, given, reached⟩
  obtain ⟨span, -, positive, sum⟩ := toNanos_of_deadlineFor given
  omega

end Entry

end ExpiringStore
