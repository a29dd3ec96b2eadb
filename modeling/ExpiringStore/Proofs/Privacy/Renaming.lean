import Mathlib.Data.List.Forall2
import Mathlib.Logic.Equiv.Basic
import ExpiringStore.Limits
import ExpiringStore.Proofs.Operations

/-!
# Tables under other names

A renaming of keys that no log line shows: short keys and keys over the limit keep their names, and
the others keep the start that is shown. Tables that differ by such a renaming, and by the values
under the keys, stay so whatever is done to both.
-/
namespace ExpiringStore

/-- Whether a key is accepted but not shown whole. -/
def IsCut (key : String) : Prop := logKeyBytes < key.utf8ByteSize ∧ key.utf8ByteSize ≤ maxKeyBytes

instance (key : String) : Decidable (IsCut key) := inferInstanceAs (Decidable (_ ∧ _))

/-- A renaming of keys that keeps all that a log line shows of them. -/
structure KeyRenaming where
  rename : String → String
  injective : Function.Injective rename
  short : ∀ key, key.utf8ByteSize ≤ logKeyBytes → rename key = key
  long : ∀ key, maxKeyBytes < key.utf8ByteSize → rename key = key
  between : ∀ key, IsCut key → IsCut (rename key) ∧ logKey (rename key) = logKey key

instance : CoeFun KeyRenaming fun _ => String → String := ⟨KeyRenaming.rename⟩

namespace KeyRenaming

variable (ρ : KeyRenaming)

/-- Only a key that is cut may have another name. -/
theorem rename_eq_or_isCut (key : String) : ρ key = key ∨ IsCut key := by
  by_cases short : key.utf8ByteSize ≤ logKeyBytes
  · exact .inl (ρ.short key short)
  · by_cases long : maxKeyBytes < key.utf8ByteSize
    · exact .inl (ρ.long key long)
    · exact .inr ⟨Nat.lt_of_not_le short, Nat.le_of_not_lt long⟩

theorem checkKey_of_isCut {key : String} (cut : IsCut key) : checkKey key = .ok () := by
  obtain ⟨low, high⟩ := cut
  rw [checkKey, if_neg (by omega), if_neg (by omega)]

/-- A key is accepted under both its names or under neither, for the same reason. -/
theorem checkKey_rename (key : String) : checkKey (ρ key) = checkKey key := by
  rcases ρ.rename_eq_or_isCut key with same | cut
  · rw [same]
  · rw [checkKey_of_isCut cut, checkKey_of_isCut (ρ.between key cut).1]

theorem logKey_rename (key : String) : logKey (ρ key) = logKey key := by
  rcases ρ.rename_eq_or_isCut key with same | cut
  · rw [same]
  · exact (ρ.between key cut).2

/-- Two keys that are shown alike, each under the name of the other. -/
def swap (a b : String) (cut : IsCut a) (cut' : IsCut b) (alike : logKey a = logKey b) :
    KeyRenaming where
  rename := Equiv.swap a b
  injective := (Equiv.swap a b).injective
  short key small := by
    refine Equiv.swap_apply_of_ne_of_ne ?_ ?_
    · rintro rfl
      exact Nat.not_lt.mpr small cut.1
    · rintro rfl
      exact Nat.not_lt.mpr small cut'.1
  long key large := by
    refine Equiv.swap_apply_of_ne_of_ne ?_ ?_
    · rintro rfl
      exact Nat.not_lt.mpr cut.2 large
    · rintro rfl
      exact Nat.not_lt.mpr cut'.2 large
  between key isCut := by
    by_cases isA : key = a
    · subst isA
      rw [Equiv.swap_apply_left]
      exact ⟨cut', alike.symm⟩
    · by_cases isB : key = b
      · subst isB
        rw [Equiv.swap_apply_right]
        exact ⟨cut, alike⟩
      · rw [Equiv.swap_apply_of_ne_of_ne isA isB]
        exact ⟨isCut, rfl⟩

end KeyRenaming

/-- Entries expire alike if their deadlines are the same. -/
theorem Entry.expiredAt_congr {e f : Entry} (same : e.deadline = f.deadline) (now : Instant) :
    e.expiredAt now = f.expiredAt now := by
  rw [expiredAt, expiredAt, same]

namespace Table

variable {ρ : KeyRenaming} {t u : Table}

/-- Two keys with the same name and deadline, up to the renaming. -/
def RenamedItem (ρ : KeyRenaming) (item other : String × Entry) : Prop :=
  other.1 = ρ item.1 ∧ item.2.deadline = other.2.deadline

/-- Two tables that differ by a renaming of keys and by what values are. -/
def Renamed (ρ : KeyRenaming) (t u : Table) : Prop :=
  List.Forall₂ (RenamedItem ρ) t.entries u.entries

namespace Renamed

theorem filter (renamed : Renamed ρ t u) {keep keep' : String × Entry → Bool}
    (alike : ∀ item other, RenamedItem ρ item other → (keep item = true ↔ keep' other = true)) :
    Renamed ρ (t.filter keep) (u.filter keep') :=
  List.rel_filter (fun item other same => alike item other same) renamed

theorem size_eq (renamed : Renamed ρ t u) : t.size = u.size := renamed.length_eq

theorem withoutExpired (renamed : Renamed ρ t u) (now : Instant) :
    Renamed ρ (t.withoutExpired now) (u.withoutExpired now) :=
  renamed.filter fun _ _ same => by rw [Entry.expiredAt_congr same.2]

/-- A sweep of either removes as many entries. -/
theorem sweep (renamed : Renamed ρ t u) (now : Instant) :
    Renamed ρ (t.sweep now).1 (u.sweep now).1 ∧ (t.sweep now).2 = (u.sweep now).2 := by
  have swept := renamed.withoutExpired now
  exact ⟨swept, by simp only [Table.sweep, renamed.size_eq, swept.size_eq]⟩

theorem erase (renamed : Renamed ρ t u) (key : String) :
    Renamed ρ (t.erase key) (u.erase (ρ key)) :=
  renamed.filter fun _ _ same => by
    rw [bne_iff_ne, bne_iff_ne, same.1, ne_eq, ne_eq, ρ.injective.eq_iff]

theorem insert (renamed : Renamed ρ t u) (key : String) {entry other : Entry}
    (same : entry.deadline = other.deadline) :
    Renamed ρ (t.insert key entry) (u.insert (ρ key) other) :=
  .cons ⟨rfl, same⟩ (renamed.erase key)

/-- What is found under both names of a key has the same deadline. -/
theorem map_deadline_find? (renamed : Renamed ρ t u) (key : String) :
    (t.find? key).map Entry.deadline = (u.find? (ρ key)).map Entry.deadline := by
  unfold Renamed at renamed
  unfold Table.find?
  generalize t.entries = entries, u.entries = others at renamed
  induction renamed with
  | nil => rfl
  | @cons item other rest rest' same _ ih =>
    obtain ⟨name, entry⟩ := item
    obtain ⟨name', entry'⟩ := other
    obtain ⟨rfl, deadline⟩ := same
    by_cases here : key = name
    · subst here
      simpa using deadline
    · have elsewhere : (key == name) = false := beq_eq_false_iff_ne.mpr here
      have elsewhere' : (ρ key == ρ name) = false :=
        beq_eq_false_iff_ne.mpr fun same => here (ρ.injective same)
      simp only [List.lookup_cons, elsewhere, elsewhere']
      exact ih

theorem lookup_eq_expired_iff (renamed : Renamed ρ t u) (key : String) (now : Instant) :
    t.lookup key now = .expired ↔ u.lookup (ρ key) now = .expired := by
  have deadlines := renamed.map_deadline_find? key
  unfold Table.lookup
  cases found : t.find? key with
  | none =>
    rw [found] at deadlines
    cases found' : u.find? (ρ key) with
    | none => exact Iff.rfl
    | some entry => simp [found'] at deadlines
  | some entry =>
    rw [found] at deadlines
    cases found' : u.find? (ρ key) with
    | none => simp [found'] at deadlines
    | some other =>
      rw [found'] at deadlines
      simp only [Entry.expiredAt_congr (Option.some.inj deadlines)]
      split <;> simp

theorem evictExpired (renamed : Renamed ρ t u) (key : String) (now : Instant) :
    Renamed ρ (t.evictExpired key now) (u.evictExpired (ρ key) now) := by
  have alike := renamed.lookup_eq_expired_iff key now
  unfold Table.evictExpired
  split
  · rename_i expired
    rw [alike.mp expired]
    exact renamed.erase key
  · rename_i kept
    split
    · rename_i expired
      exact absurd (alike.mpr expired) kept
    · exact renamed

end Renamed

end Table

/-- Two stores whose tables differ by a renaming of keys and by what values are. -/
structure Store.Renamed (ρ : KeyRenaming) (s u : Store) : Prop where
  table : s.table.Renamed ρ u.table
  sweeper : s.sweeper = u.sweeper

namespace Store.Renamed

variable {ρ : KeyRenaming} {s u : Store}

theorem refl_create (ρ : KeyRenaming) (interval : SweepInterval) (now : Instant) :
    Store.Renamed ρ (Store.create interval now).1 (Store.create interval now).1 := ⟨.nil, rfl⟩

theorem get (renamed : Store.Renamed ρ s u) (key : String) (now : Instant) :
    Store.Renamed ρ (s.get key now).1 (u.get (ρ key) now).1 := by
  rw [Store.get_eq, Store.get_eq]
  exact ⟨renamed.table.evictExpired key now, renamed.sweeper⟩

theorem set (renamed : Store.Renamed ρ s u) (key value other : String) (ttl : Option Duration)
    (now : Instant) :
    Store.Renamed ρ (s.set key value ttl now) (u.set (ρ key) other ttl now) :=
  ⟨renamed.table.insert key rfl, renamed.sweeper⟩

theorem delete (renamed : Store.Renamed ρ s u) (key : String) (now : Instant) :
    Store.Renamed ρ (s.delete key now).1 (u.delete (ρ key) now).1 := by
  rw [Store.delete_eq, Store.delete_eq]
  exact ⟨renamed.table.erase key, renamed.sweeper⟩

/-- The clock moves alike for both, and as many entries are reported swept. -/
theorem pass (renamed : Store.Renamed ρ s u) (before after : Instant) :
    Store.Renamed ρ (s.pass before after).1 (u.pass before after).1 ∧
      (s.pass before after).2 = (u.pass before after).2 := by
  unfold Store.pass
  rw [← renamed.sweeper]
  split
  · obtain ⟨table, removed⟩ := renamed.table.sweep after
    refine ⟨⟨table, renamed.sweeper⟩, ?_⟩
    show (if (s.table.sweep after).2 = 0 then [] else [Event.swept (s.table.sweep after).2]) = _
    rw [removed]
    rfl
  · exact ⟨renamed, rfl⟩

end Store.Renamed

end ExpiringStore
