/-!
# Durations and instants

A duration counts whole seconds and nanoseconds from zero; an instant is a clock reading whose
seconds are signed. `Instant.after?` adds the seconds, then carries the nanoseconds, and has no
answer past the last instant; `toNanos` is the exact reading of either in nanoseconds.
-/
namespace ExpiringStore

def nanosPerSecond : Nat := 1000000000

def nanosPerMilli : Nat := 1000000

/-- A span of time, never negative: `seconds` and a fraction of a second. -/
structure Duration where
  seconds : UInt64
  nanos : Fin 1000000000
  deriving DecidableEq, Repr

/-- A clock reading: signed `seconds` and a fraction that always counts forwards. -/
structure Instant where
  seconds : Int64
  nanos : Fin 1000000000
  deriving DecidableEq, Repr

namespace Duration

def zero : Duration := ⟨0, 0⟩

def toNanos (d : Duration) : Nat := d.seconds.toNat * nanosPerSecond + d.nanos.val

def ofSeconds (s : UInt64) : Duration := ⟨s, 0⟩

def ofMillis (ms : UInt64) : Duration :=
  ⟨ms / 1000, ⟨(ms % 1000).toNat * nanosPerMilli, by
    have h : (ms % 1000).toNat < 1000 := by
      rw [UInt64.toNat_mod]
      exact Nat.mod_lt _ (by decide)
    simp only [nanosPerMilli]
    omega⟩⟩

def max (a b : Duration) : Duration := if a.toNanos < b.toNanos then b else a

/-- The digits after a decimal point: `value` written with `width` places and no zero at the end. -/
def fractionDigits (width value : Nat) : List Char :=
  let places := (Nat.toDigits 10 value).leftpad width '0'
  (places.reverse.dropWhile (· == '0')).reverse

/-- `whole` and, where one is left, its fraction behind a decimal point. -/
def decimalText (whole width value : Nat) : String :=
  match fractionDigits width value with
  | [] => toString whole
  | places => toString whole ++ "." ++ String.ofList places

/-- A span in words: seconds, or below a second milliseconds, microseconds or nanoseconds, with the
fraction that remains. -/
def text (d : Duration) : String :=
  if d.seconds != 0 then decimalText d.seconds.toNat 9 d.nanos.val ++ "s"
  else if d.nanos.val ≥ nanosPerMilli then
    decimalText (d.nanos.val / nanosPerMilli) 6 (d.nanos.val % nanosPerMilli) ++ "ms"
  else if d.nanos.val ≥ 1000 then
    decimalText (d.nanos.val / 1000) 3 (d.nanos.val % 1000) ++ "µs"
  else toString d.nanos.val ++ "ns"

end Duration

namespace Instant

def toNanos (t : Instant) : Int := t.seconds.toInt * nanosPerSecond + t.nanos.val

def epoch : Instant := ⟨0, 0⟩

def last : Instant := ⟨Int64.maxValue, ⟨999999999, by decide⟩⟩

/-- `t` is not after `u`. -/
def atOrBefore (t u : Instant) : Bool := decide (t.toNanos ≤ u.toNanos)

/-- The seconds that `s` reaches by counting `n` further, if there are that many. -/
def addSeconds? (s : Int64) (n : Nat) : Option Int64 :=
  let sum := s.toInt + n
  if sum ≤ Int64.maxValue.toInt then some (Int64.ofInt sum) else none

/-- The instant `d` after `t`. Seconds are added first; a full second among the nanoseconds is then
carried over. Either step may pass the last instant. -/
def after? (t : Instant) (d : Duration) : Option Instant :=
  match addSeconds? t.seconds d.seconds.toNat with
  | none => none
  | some s =>
    let n := t.nanos.val + d.nanos.val
    if h : n < 1000000000 then some ⟨s, ⟨n, h⟩⟩
    else
      (addSeconds? s 1).map fun carried =>
        ⟨carried, ⟨n - 1000000000, by omega⟩⟩

/-- The reading rounded down to a whole millisecond, in nanoseconds. -/
def floorMilli (t : Instant) : Int := t.toNanos - t.toNanos % nanosPerMilli

theorem atOrBefore_iff {t u : Instant} : t.atOrBefore u = true ↔ t.toNanos ≤ u.toNanos := by
  simp [atOrBefore]

theorem toInt_of_addSeconds? {s r : Int64} {n : Nat} (h : addSeconds? s n = some r) :
    r.toInt = s.toInt + n := by
  unfold addSeconds? at h
  have low := s.le_toInt
  simp only [Int64.toInt_maxValue] at h
  split at h
  · obtain rfl := Option.some.inj h
    exact Int64.toInt_ofInt_of_le (by omega) (by omega)
  · cases h

/-- Only a sum that is no signed 64-bit number is missing. -/
theorem addSeconds?_eq_none_iff {s : Int64} {n : Nat} :
    addSeconds? s n = none ↔ Int64.maxValue.toInt < s.toInt + n := by
  unfold addSeconds?
  simp only
  split
  · simp only [reduceCtorEq, false_iff]
    omega
  · simp only [true_iff]
    omega

/-- Adding a span is exact addition of nanoseconds. -/
theorem toNanos_of_after? {t u : Instant} {d : Duration} (h : t.after? d = some u) :
    u.toNanos = t.toNanos + d.toNanos := by
  unfold after? at h
  split at h
  · cases h
  · rename_i s added
    have seconds := toInt_of_addSeconds? added
    simp only at h
    split at h
    · obtain rfl := Option.some.inj h
      simp only [toNanos, Duration.toNanos, seconds, nanosPerSecond]
      omega
    · obtain ⟨carried, again, rfl⟩ := Option.map_eq_some_iff.mp h
      have more := toInt_of_addSeconds? again
      simp only [toNanos, Duration.toNanos, more, seconds, nanosPerSecond]
      omega

/-- Only a sum past the last instant has no answer. -/
theorem after?_eq_none_iff {t : Instant} {d : Duration} :
    t.after? d = none ↔ last.toNanos < t.toNanos + d.toNanos := by
  have final : last.toNanos = 9223372036854775807 * 1000000000 + 999999999 := by decide
  have ht := t.nanos.isLt
  have hd := d.nanos.isLt
  unfold after?
  split
  · rename_i beyond
    rw [addSeconds?_eq_none_iff, Int64.toInt_maxValue] at beyond
    simp only [toNanos, Duration.toNanos, nanosPerSecond] at final ⊢
    simp only [true_iff]
    omega
  · rename_i s added
    have seconds := toInt_of_addSeconds? added
    have bound := s.toInt_lt
    simp only
    split
    · simp only [toNanos, Duration.toNanos, nanosPerSecond] at final ⊢
      simp only [reduceCtorEq, false_iff]
      omega
    · rw [Option.map_eq_none_iff, addSeconds?_eq_none_iff, Int64.toInt_maxValue]
      simp only [toNanos, Duration.toNanos, nanosPerSecond] at final ⊢
      omega

/-- Rounding down reaches a whole millisecond and takes away less than one. -/
theorem floorMilli_bounds (t : Instant) :
    t.floorMilli ≤ t.toNanos ∧ t.toNanos < t.floorMilli + nanosPerMilli := by
  have positive : (0 : Int) < nanosPerMilli := by decide
  have low := Int.emod_nonneg t.toNanos (Int.ne_of_gt positive)
  have high := Int.emod_lt_of_pos t.toNanos positive
  unfold floorMilli
  omega

end Instant

end ExpiringStore
