import ExpiringStore.Proofs.FrontEnds
import ExpiringStore.Proofs.Operations
import ExpiringStore.Proofs.SizeLimits

/-!
# Times to live are exact

The deadline of an entry is the sum of a clock reading and a span, to the nanosecond, whatever is
carried on the way. A sum past the last instant is no deadline, so such an entry lasts for ever, as
one does whose span is empty.
-/
namespace ExpiringStore

namespace Entry

/-- The deadline that a span gives: the exact sum, unless the span is empty or the sum
past the last instant. -/
theorem deadlineNanos_withTtl (value : String) (span : Duration) (now : Instant) :
    (withTtl value (some span) now).deadlineNanos =
      if 0 < span.toNanos ∧ now.toNanos + span.toNanos ≤ Instant.last.toNanos then
        some (now.toNanos + span.toNanos)
      else none := by
  simp only [deadlineNanos, withTtl, deadlineFor]
  by_cases empty : span = Duration.zero
  · have noNanos : span.toNanos = 0 := Duration.toNanos_eq_zero_iff.mpr empty
    rw [if_pos empty, if_neg fun given => Nat.ne_of_gt given.1 noNanos]
    rfl
  · have filled : 0 < span.toNanos :=
      Nat.pos_of_ne_zero fun noNanos => empty (Duration.toNanos_eq_zero_iff.mp noNanos)
    rw [if_neg empty]
    cases sum : now.after? span with
    | none =>
      have past := Instant.after?_eq_none_iff.mp sum
      rw [if_neg fun given => Int.not_lt.mpr given.2 past]
      rfl
    | some deadline =>
      have reached := Instant.toNanos_of_after? sum
      have within := deadline.toNanos_le_last
      rw [reached] at within
      rw [if_pos ⟨filled, within⟩, Option.map_some, reached]

/-- From when on an entry with a span to live is expired. -/
theorem expiredAt_withTtl_iff {value : String} {span : Duration} {now t : Instant} :
    (withTtl value (some span) now).expiredAt t = true ↔
      0 < span.toNanos ∧ now.toNanos + span.toNanos ≤ Instant.last.toNanos ∧
        now.toNanos + span.toNanos ≤ t.toNanos := by
  rw [expiredAt_iff_deadlineNanos, deadlineNanos_withTtl, ← and_assoc]
  split
  · rename_i given
    simp [given]
  · rename_i missing
    simp [missing]

end Entry

/-! ## Seconds to live in a request -/

/-- A positive number of seconds is a span of exactly so many, and no other number is one. -/
theorem ttlOfSeconds_eq (seconds : Int64) :
    seconds.toInt ≤ 0 ∧ ttlOfSeconds seconds = none ∨
      0 < seconds.toInt ∧ ∃ span, ttlOfSeconds seconds = some span ∧
        (span.toNanos : Int) = seconds.toInt * nanosPerSecond := by
  by_cases positive : 0 < seconds
  · have above : 0 < seconds.toInt := Int64.lt_iff_toInt_lt.mp positive
    have notBelow : 0 ≤ seconds := Int64.le_iff_toInt_le.mpr (Int.le_of_lt above)
    have same : (seconds.toUInt64.toNat : Int) = seconds.toInt := by
      rw [Int64.toNat_toUInt64_of_le notBelow, Int64.toInt_eq_toNatClampNeg notBelow]
    refine .inr ⟨above, Duration.ofSeconds seconds.toUInt64, if_pos positive, ?_⟩
    simp [Duration.toNanos, Duration.ofSeconds, same]
  · have below : ¬0 < seconds.toInt := fun above => positive (Int64.lt_iff_toInt_lt.mpr above)
    exact .inl ⟨Int.not_lt.mp below, if_neg positive⟩

/-- Whether what a request for `seconds` to live stores at `now` still counts at `t`. -/
def LastsUntil (seconds : Int64) (now t : Instant) : Prop :=
  seconds.toInt ≤ 0 ∨ Instant.last.toNanos < now.toNanos + seconds.toInt * nanosPerSecond ∨
    t.toNanos < now.toNanos + seconds.toInt * nanosPerSecond

instance (seconds : Int64) (now t : Instant) : Decidable (LastsUntil seconds now t) :=
  inferInstanceAs (Decidable (_ ∨ _ ∨ _))

theorem not_expiredAt_iff_lastsUntil {value : String} {seconds : Int64} {now t : Instant} :
    (Entry.withTtl value (ttlOfSeconds seconds) now).expiredAt t = false ↔
      LastsUntil seconds now t := by
  rw [← Bool.not_eq_true, LastsUntil]
  rcases ttlOfSeconds_eq seconds with ⟨below, never⟩ | ⟨above, span, given, exactly⟩
  · rw [never]
    exact ⟨fun _ => .inl below, fun _ => Bool.false_ne_true⟩
  · have billion : (nanosPerSecond : Int) = 1000000000 := rfl
    rw [billion] at exactly
    have filled : 0 < span.toNanos := by omega
    rw [given, Entry.expiredAt_withTtl_iff, exactly, billion]
    omega

/-- An admissible write leaves the same store over either front-end. -/
theorem Exchange.send_set {exchange : Exchange} {key value : String} {seconds : Int64}
    (writes : exchange.call = .set key value seconds) (checked : checkWrite key value = .ok ())
    (store : Store) (now : Instant) (frontEnd : FrontEnd) :
    (exchange.send store now frontEnd).1 = store.set key value (ttlOfSeconds seconds) now := by
  have remote : (exchange.send store now .grpc).1 =
      store.set key value (ttlOfSeconds seconds) now := by
    simp only [send, writes, Rpc.handle_set, checked]
  exact (exchange.send_agrees store now frontEnd .grpc).1.trans remote

/-- What a request stores is read and listed exactly as long as its time to live lasts. -/
theorem live_after_send {exchange : Exchange} {key value : String} {seconds : Int64}
    (writes : exchange.call = .set key value seconds) (checked : checkWrite key value = .ok ())
    (store : Store) (now t : Instant) (frontEnd : FrontEnd) :
    let after := (exchange.send store now frontEnd).1
    ((after.get key t).2 = some value ↔ LastsUntil seconds now t) ∧
      (key ∈ after.list t ↔ LastsUntil seconds now t) := by
  intro after
  have written : after = store.set key value (ttlOfSeconds seconds) now :=
    Exchange.send_set writes checked store now frontEnd
  rw [Store.list, Table.mem_liveKeys_iff, Store.get_eq, written, Store.live?_set,
    ← @not_expiredAt_iff_lastsUntil value]
  cases (Entry.withTtl value (ttlOfSeconds seconds) now).expiredAt t <;> simp [Entry.withTtl]

/-- An entry with a span to live is expired exactly from the sum of span and clock reading on, if
that sum can be reached at all. So what has expired stays so, nothing that is given time expires at
once, and more time never means an earlier end; and what a request stores over either front-end
counts just as long as its seconds say. -/
theorem times_to_live_are_exact (value : String) (now : Instant) :
    (∀ span, (Entry.withTtl value (some span) now).deadlineNanos =
      if 0 < span.toNanos ∧ now.toNanos + span.toNanos ≤ Instant.last.toNanos then
        some (now.toNanos + span.toNanos)
      else none) ∧
    (∀ span t, (Entry.withTtl value (some span) now).expiredAt t = true ↔
      0 < span.toNanos ∧ now.toNanos + span.toNanos ≤ Instant.last.toNanos ∧
        now.toNanos + span.toNanos ≤ t.toNanos) ∧
    (∀ ttl t later, (Entry.withTtl value ttl now).expiredAt t = true → t.toNanos ≤ later.toNanos →
      (Entry.withTtl value ttl now).expiredAt later = true) ∧
    (∀ span, 0 < span.toNanos → (Entry.withTtl value (some span) now).expiredAt now = false) ∧
    (∀ shorter longer t, 0 < shorter.toNanos → shorter.toNanos ≤ longer.toNanos →
      (Entry.withTtl value (some longer) now).expiredAt t = true →
      (Entry.withTtl value (some shorter) now).expiredAt t = true) ∧
    (∀ (exchange : Exchange) key seconds, exchange.call = .set key value seconds →
      0 < key.utf8ByteSize → key.utf8ByteSize ≤ maxKeyBytes → value.utf8ByteSize ≤ maxValueBytes →
      ∀ store frontEnd t,
        let after := (exchange.send store now frontEnd).1
        ((after.get key t).2 = some value ↔ LastsUntil seconds now t) ∧
          (key ∈ after.list t ↔ LastsUntil seconds now t)) := by
  refine ⟨fun span => Entry.deadlineNanos_withTtl value span now,
    fun _ _ => Entry.expiredAt_withTtl_iff, fun _ _ _ => Entry.expiredAt_mono, ?_, ?_, ?_⟩
  · intro span filled
    rw [← Bool.not_eq_true, Entry.expiredAt_withTtl_iff]
    omega
  · intro shorter longer t filled order expired
    rw [Entry.expiredAt_withTtl_iff] at expired ⊢
    omega
  · intro exchange key seconds writes filled keyFits valueFits store frontEnd t
    have checked := checkWrite_of_admissible filled keyFits valueFits
    exact live_after_send writes checked store now t frontEnd

/-- One nanosecond before the last second, a nanosecond is carried over; a second reaches the last
instant, and two seconds reach none. -/
theorem times_to_live_are_exact_atTheEnd :
    let now : Instant := ⟨9223372036854775806, 999999999⟩
    let write (seconds : Int64) := Exchange.plain (.set "k" "v" seconds)
    let store := (Store.create .standard now).1
    (Entry.withTtl "v" (some ⟨0, 1⟩) now).deadlineNanos =
      some (Instant.toNanos ⟨9223372036854775807, 0⟩) ∧
      (Entry.withTtl "v" (some ⟨0, 1⟩) now).expiredAt now = false ∧
      (Entry.withTtl "v" (some ⟨0, 1⟩) now).expiredAt Instant.last = true ∧
      (((write 1 (by rintro _ ⟨⟩; decide) (by decide)).send store now .http).1.get "k"
        Instant.last).2 ≠ some "v" ∧
      (((write 2 (by rintro _ ⟨⟩; decide) (by decide)).send store now .grpc).1.get "k"
        Instant.last).2 = some "v" := by
  intro now write store
  obtain ⟨deadline, expired, later, notAtOnce, sooner, writes⟩ := times_to_live_are_exact "v" now
  refine ⟨?_, notAtOnce ⟨0, 1⟩ (by decide), ?_, ?_, ?_⟩
  · rw [deadline, if_pos (by decide)]
    decide
  · have atLast := (expired ⟨1, 0⟩ Instant.last).mpr (by decide)
    exact sooner ⟨0, 1⟩ ⟨1, 0⟩ _ (by decide) (by decide) (later _ _ _ atLast (Int.le_refl _))
  · have lasts := (writes (write 1 (by rintro _ ⟨⟩; decide) (by decide)) "k" 1 rfl
      (by decide) (by decide) (by decide) store .http Instant.last).1
    rw [Ne, lasts]
    decide
  · have lasts := (writes (write 2 (by rintro _ ⟨⟩; decide) (by decide)) "k" 2 rfl
      (by decide) (by decide) (by decide) store .grpc Instant.last).1
    rw [lasts]
    decide

end ExpiringStore
