import ExpiringStore.Proofs.Operations
import ExpiringStore.Store.Section

/-!
# One section

What a section does to an entry and to the call that it belongs to. A reading that is used late can
only be behind the clock, and what had expired then has expired now.
-/
namespace ExpiringStore

namespace Phase

/-- A section that removes what has expired under `key`. -/
def Reclaims (key : String) : Phase → Prop
  | .getEviction evicted => evicted = key
  | .sweepRetention _ => True
  | _ => False

/-- A section that deletes or writes `key`. -/
def Writes (key : String) : Phase → Prop
  | .setInsertion written _ => written = key
  | .deleteRemoval removed => removed = key
  | _ => False

/-- A phase whose clock reading is not ahead of the clock. -/
def Punctual (now : Instant) : Phase → Prop
  | .getLookup _ reading | .sweepRetention reading => reading.toNanos ≤ now.toNanos
  | _ => True

theorem Punctual.mono {phase : Phase} {now later : Instant} (punctual : phase.Punctual now)
    (order : now.toNanos ≤ later.toNanos) : phase.Punctual later := by
  cases phase with
  | getLookup key reading => exact Int.le_trans punctual order
  | sweepRetention reading => exact Int.le_trans punctual order
  | _ => trivial

theorem punctual_phase (call : TableCall) (now : Instant) : call.phase.Punctual now := by
  cases call <;> trivial

/-- A phase in the middle of a call or behind it, which running a section leads to. -/
def Inner : Phase → Prop
  | .getLookup _ _ | .getEviction _ | .setInsertion _ _ | .deleteReading _ | .sweepRetention _
  | .answered _ => True
  | _ => False

variable {now : Instant} {t after : Table} {phase next : Phase}

theorem Inner.ne_idle (inner : phase.Inner) : phase ≠ .idle := by
  rintro rfl
  exact inner

theorem Inner.ne_phase (inner : phase.Inner) (call : TableCall) : call.phase ≠ phase := by
  rintro rfl
  cases call <;> exact inner

/-- A section that reads the clock takes the reading along. -/
theorem punctual_of_run (ran : phase.run now t = some (after, next)) : next.Punctual now := by
  cases phase with
  | idle | answered => cases ran
  | getLookup key reading =>
    simp only [run] at ran
    split at ran <;> obtain ⟨-, rfl⟩ := Prod.mk.inj (Option.some.inj ran) <;> trivial
  | deleteRemoval key =>
    simp only [run] at ran
    split at ran <;> obtain ⟨-, rfl⟩ := Prod.mk.inj (Option.some.inj ran) <;> trivial
  | getReading | sweepReading =>
    obtain ⟨-, rfl⟩ := Prod.mk.inj (Option.some.inj ran)
    exact Int.le_refl _
  | getEviction | setReading | setInsertion | deleteReading | listSnapshot | sweepRetention =>
    obtain ⟨-, rfl⟩ := Prod.mk.inj (Option.some.inj ran)
    trivial

/-- What a section does to an entry: nothing, unless it removes expired entries and this is one, or
it deletes or writes the entry's key. -/
theorem find?_of_run (punctual : phase.Punctual now) (ran : phase.run now t = some (after, next))
    {key : String} {entry : Entry} (held : t.find? key = some entry) :
    after.find? key = some entry ∨ phase.Reclaims key ∧ entry.expiredAt now = true ∨
      phase.Writes key := by
  have eitherWay := Bool.eq_false_or_eq_true (entry.expiredAt now)
  cases phase with
  | idle | answered => cases ran
  | getLookup looked reading =>
    simp only [run] at ran
    split at ran <;> obtain ⟨rfl, -⟩ := Prod.mk.inj (Option.some.inj ran) <;> exact .inl held
  | getReading | setReading | deleteReading | listSnapshot | sweepReading =>
    obtain ⟨rfl, -⟩ := Prod.mk.inj (Option.some.inj ran)
    exact .inl held
  | getEviction evicted =>
    obtain ⟨rfl, -⟩ := Prod.mk.inj (Option.some.inj ran)
    by_cases same : evicted = key
    · rcases eitherWay with expired | live
      · exact .inr (.inl ⟨same, expired⟩)
      · left
        rw [Table.find?_evictExpired, if_pos same.symm, same, held, Option.filter_some, live]
        rfl
    · exact .inl (by rw [Table.find?_evictExpired, if_neg (Ne.symm same), held])
  | sweepRetention reading =>
    obtain ⟨rfl, -⟩ := Prod.mk.inj (Option.some.inj ran)
    rcases eitherWay with expired | live
    · exact .inr (.inl ⟨trivial, expired⟩)
    · left
      -- What is live at the clock was live at the reading, which is not later.
      have liveThen : entry.expiredAt reading = false := by
        rw [Bool.eq_false_iff]
        intro expired
        rw [Entry.expiredAt_mono expired punctual] at live
        cases live
      rw [Table.find?_withoutExpired, held, Option.filter_some, liveThen]
      rfl
  | setInsertion written new =>
    obtain ⟨rfl, -⟩ := Prod.mk.inj (Option.some.inj ran)
    by_cases same : written = key
    · exact .inr (.inr same)
    · exact .inl (by rw [Table.find?_insert, if_neg (Ne.symm same), held])
  | deleteRemoval removed =>
    by_cases same : removed = key
    · exact .inr (.inr same)
    · left
      have gone : after = t.erase removed := by
        cases found : t.find? removed with
        | none =>
          simp only [run, Table.remove, found] at ran
          exact (Prod.mk.inj (Option.some.inj ran)).1.symm
        | some entry =>
          simp only [run, Table.remove, found] at ran
          exact (Prod.mk.inj (Option.some.inj ran)).1.symm
      rw [gone, Table.find?_erase, if_neg (Ne.symm same), held]

/-- A reader is answered by its lookup with what that saw, or with nothing behind an eviction. -/
theorem answered_of_run {found : Option String}
    (ran : phase.run now t = some (after, .answered (.value found))) :
    (∃ key reading, phase = .getLookup key reading ∧
      (t.live? key reading).map Entry.value = found) ∨
      ∃ key, phase = .getEviction key ∧ found = none := by
  cases phase with
  | getLookup key reading =>
    left
    refine ⟨key, reading, rfl, ?_⟩
    rw [Table.map_value_live?]
    simp only [run] at ran
    split at ran <;> simp_all
  | getEviction key =>
    simp only [run, Option.some.injEq, Prod.mk.injEq, answered.injEq, Answer.value.injEq] at ran
    exact .inr ⟨key, rfl, ran.2.symm⟩
  | deleteRemoval key =>
    simp only [run] at ran
    split at ran <;> simp at ran
  | _ => simp [run] at ran

/-- An eviction follows a lookup that saw nothing live. -/
theorem getLookup_of_run {key : String} (ran : phase.run now t = some (after, .getEviction key)) :
    ∃ reading, phase = .getLookup key reading ∧ (t.live? key reading).map Entry.value = none := by
  cases phase with
  | getLookup looked reading =>
    have saw := Table.map_value_live? t looked reading
    refine ⟨reading, ?_⟩
    simp only [run] at ran
    split at ran <;> simp_all
  | deleteRemoval key =>
    simp only [run] at ran
    split at ran <;> simp at ran
  | _ => simp [run] at ran

/-- A lookup uses the reading that its call has just made. -/
theorem getReading_of_run {key : String} {reading : Instant}
    (ran : phase.run now t = some (after, .getLookup key reading)) :
    phase = .getReading key ∧ reading = now := by
  cases phase with
  | getReading other =>
    simp only [run, Option.some.injEq, Prod.mk.injEq, getLookup.injEq] at ran
    exact ⟨by rw [ran.2.1], ran.2.2.symm⟩
  | getLookup other earlier =>
    simp only [run] at ran
    split at ran <;> simp at ran
  | deleteRemoval other =>
    simp only [run] at ran
    split at ran <;> simp at ran
  | _ => simp [run] at ran

end Phase

end ExpiringStore
