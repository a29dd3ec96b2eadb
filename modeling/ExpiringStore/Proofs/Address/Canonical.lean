import Mathlib.Data.List.TakeWhile
import ExpiringStore.Proofs.Address.Reader

/-!
# The canonical text of an address

Which groups of a version 6 address its text leaves out, and that the text of any address is
read back as the address.
-/
namespace ExpiringStore

namespace Ipv6

/-- Whether the groups of an address hold a version 4 address. -/
def IsMapped (groups : List UInt16) : Prop :=
  ∃ high low, groups = [0, 0, 0, 0, 0, 0xffff, high, low]

/-- A place where a row of zero groups is left out: no other row is longer, and none that
starts earlier is as long. -/
structure Elides (groups front : List UInt16) (count : Nat) (back : List UInt16) : Prop where
  split : groups = front ++ List.replicate count 0 ++ back
  several : 2 ≤ count
  longest : ∀ front' count' back', groups = front' ++ List.replicate count' 0 ++ back' →
    count' ≤ count
  first : ∀ front' back', groups = front' ++ List.replicate count 0 ++ back' →
    front.length ≤ front'.length

/-- How the groups of an address are written. -/
inductive Written : List UInt16 → String → Prop
  | mapped (high low : UInt16) :
    Written [0, 0, 0, 0, 0, 0xffff, high, low] ("::ffff:" ++ (Ipv4.ofGroups high low).text)
  | whole {groups : List UInt16} (other : ¬IsMapped groups)
    (single : ∀ front back, groups ≠ front ++ List.replicate 2 0 ++ back) :
    Written groups (groupsText groups)
  | elided {groups front back : List UInt16} {count : Nat} (other : ¬IsMapped groups)
    (elides : Elides groups front count back) :
    Written groups (groupsText front ++ "::" ++ groupsText back)

/-! ## The longest row of zeros -/

theorem split_zerosAt (groups : List UInt16) (i : Nat) :
    groups = groups.take i ++ List.replicate (zerosAt groups i) 0 ++ groups.drop
      (i + zerosAt groups i) := by
  have zeros : (groups.drop i).takeWhile (· == 0) = List.replicate (zerosAt groups i) 0 :=
    List.eq_replicate_of_mem fun g mem => by simpa using List.mem_takeWhile_imp mem
  have taken : (groups.drop i).take (zerosAt groups i) = List.replicate (zerosAt groups i) 0 := by
    rw [← zeros, zerosAt, ← List.prefix_iff_eq_take.mp (List.takeWhile_prefix _)]
  have rest : groups.drop i = List.replicate (zerosAt groups i) 0 ++ groups.drop
      (i + zerosAt groups i) := by
    rw [← taken, ← List.drop_drop, List.take_append_drop]
  rw [List.append_assoc, ← rest, List.take_append_drop]

theorem le_zerosAt {groups front back : List UInt16} {count : Nat}
    (split : groups = front ++ List.replicate count 0 ++ back) :
    count ≤ zerosAt groups front.length := by
  have zeros : ∀ g ∈ List.replicate count (0 : UInt16), (g == 0) = true := by
    intro g mem
    rw [List.eq_of_mem_replicate mem]
    rfl
  rw [split, zerosAt, List.append_assoc, List.drop_left, List.takeWhile_append_of_pos zeros,
    List.length_append, List.length_replicate]
  exact Nat.le_add_right _ _

/-- The place that is found is the first of those where `size` is largest. -/
theorem foldl_largest (size : Nat → Nat) (n : Nat) :
    let found := (List.range n).foldl (fun best i => if size best < size i then i else best) 0
    (∀ i, i < n → size i ≤ size found) ∧ ∀ i, i < found → size i < size found := by
  induction n with
  | zero => exact ⟨fun i => nofun, fun i => nofun⟩
  | succ n ih =>
    obtain ⟨largest, first⟩ := ih
    simp only [List.range_succ, List.foldl_append, List.foldl_cons, List.foldl_nil]
    generalize (List.range n).foldl (fun best i => if size best < size i then i else best) 0 =
      best at largest first
    split
    · rename_i larger
      have before (i : Nat) (earlier : i < n) : size i < size n :=
        Nat.lt_of_le_of_lt (largest i earlier) larger
      refine ⟨fun i within => ?_, before⟩
      rcases Nat.lt_succ_iff_lt_or_eq.mp within with earlier | rfl
      · exact Nat.le_of_lt (before i earlier)
      · exact Nat.le_refl _
    · rename_i notLarger
      refine ⟨fun i within => ?_, first⟩
      rcases Nat.lt_succ_iff_lt_or_eq.mp within with earlier | rfl
      · exact largest i earlier
      · exact Nat.le_of_not_lt notLarger

/-- No row of zeros is longer than the one that is left out. -/
theorem le_longestZeros {groups front back : List UInt16} {count : Nat}
    (split : groups = front ++ List.replicate count 0 ++ back) :
    count ≤ zerosAt groups (longestZeros groups) := by
  have here := le_zerosAt split
  by_cases within : front.length < groups.length
  · exact Nat.le_trans here ((foldl_largest (zerosAt groups) groups.length).1 _ within)
  · have lengths := congrArg List.length split
    rw [List.length_append, List.length_append, List.length_replicate] at lengths
    omega

/-- The row of zeros that is found is the one to leave out, if it has at least two. -/
theorem elides_longestZeros {groups : List UInt16}
    (several : 2 ≤ zerosAt groups (longestZeros groups)) :
    Elides groups (groups.take (longestZeros groups)) (zerosAt groups (longestZeros groups))
      (groups.drop (longestZeros groups + zerosAt groups (longestZeros groups))) where
  split := split_zerosAt groups (longestZeros groups)
  several := several
  longest _ _ _ split := le_longestZeros split
  first front back split := by
    refine Nat.le_trans (List.length_take_le _ _) (Nat.le_of_not_lt fun earlier => ?_)
    have fewer := (foldl_largest (zerosAt groups) groups.length).2 front.length earlier
    exact absurd (le_zerosAt split) (Nat.not_le.mpr fewer)

theorem written_shortText {groups : List UInt16} (other : ¬IsMapped groups) :
    Written groups (shortText groups) := by
  rw [shortText]
  split
  · rename_i few
    refine .whole other fun front back split => ?_
    exact absurd (le_longestZeros split) (Nat.not_le.mpr few)
  · rename_i several
    exact .elided other (elides_longestZeros (Nat.not_lt.mp several))

/-- The text of an address is the canonical one. -/
theorem written_text (ip : Ipv6) : Written ip.groups ip.text := by
  rw [text]
  split
  · rename_i high low same
    rw [same]
    exact .mapped high low
  · rename_i other
    exact written_shortText fun ⟨high, low, same⟩ => other high low same

/-! ## Reading it back -/

open AddressReader

theorem SpelledRow.behind {embedded : Bool} {groups : List UInt16} {chars : List Char}
    (row : SpelledRow embedded true groups chars) (filled : groups ≠ []) :
    SpelledRow embedded false groups (':' :: chars) := by
  cases row with
  | none => exact absurd rfl filled
  | embedded ip ends => exact .embedded ip ends
  | group digits row => exact .group digits row

theorem spelledRow_groupsText (groups : List UInt16) :
    SpelledRow false true groups (groupsText groups).toList := by
  induction groups with
  | nil => exact .none rfl
  | cons g rest ih =>
    cases rest with
    | nil =>
      have single := @SpelledRow.group false true g [] _ _ (isGroup_toDigits g) (.none rfl)
      simpa [groupsText, separator] using single
    | cons next others =>
      have others := ih.behind (List.cons_ne_nil next others)
      have row := @SpelledRow.group false true g _ _ _ (isGroup_toDigits g) others
      simpa [groupsText, separator, String.intercalate_cons_cons] using row

theorem toGroups_ofGroups (high low : UInt16) :
    (Ipv4.ofGroups high low).toGroups = [high, low] := by
  have halves (g : UInt16) : (g / 256).toUInt8.toUInt16 * 256 + g.toUInt8.toUInt16 = g := by
    have bound := g.toNat_lt
    apply UInt16.toNat_inj.mp
    simp
    omega
  simp only [Ipv4.ofGroups, Ipv4.toGroups, halves]

/-- What is written for an address is a text of it. -/
theorem spelled_of_written {ip : Ipv6} {text : String} (written : Written ip.groups text) :
    ip.Spelled text.toList := by
  generalize shown : ip.groups = groups at written
  cases written with
  | mapped high low =>
    have ones : IsGroup ['f', 'f', 'f', 'f'] 0xffff := by
      have digits : Nat.toDigits 16 0xffff = ['f', 'f', 'f', 'f'] := by decide
      exact digits ▸ isGroup_toDigits 0xffff
    have embedded := @SpelledRow.embedded true false (Ipv4.ofGroups high low) rfl
    rw [toGroups_ofGroups] at embedded
    have split : ip.groups = [] ++ List.replicate 5 0 ++ [0xffff, high, low] := shown
    have spelled := Spelled.elided split (by decide) (.none rfl) (.group ones embedded)
    simpa [separator] using spelled
  | whole =>
    subst shown
    exact .whole (spelledRow_groupsText ip.groups)
  | @elided _ front back count other elides =>
    have several := elides.several
    have spelled := Spelled.elided (shown.trans elides.split) (by omega)
      (spelledRow_groupsText front) (spelledRow_groupsText back)
    simpa using spelled

end Ipv6

namespace IpAddr

/-- The text of an address of either family: four decimal numbers between dots, or groups. -/
inductive Written : IpAddr → String → Prop
  | v4 (a b c d : UInt8) : Written (.v4 ⟨a, b, c, d⟩)
    (toString a.toNat ++ "." ++ toString b.toNat ++ "." ++ toString c.toNat ++ "." ++
    toString d.toNat)
  | v6 {ip : Ipv6} {text : String} (groups : Ipv6.Written ip.groups text) : Written (.v6 ip) text

theorem written_text (ip : IpAddr) : ip.Written ip.text := by
  cases ip with
  | v4 ip => exact .v4 ip.a ip.b ip.c ip.d
  | v6 ip => exact .v6 ip.written_text

/-- The canonical text of an address is one of its texts. -/
theorem spelled_text (ip : IpAddr) : ip.Spelled ip.text := by
  cases ip with
  | v4 ip => exact .v4 ip
  | v6 ip => exact .v6 (Ipv6.spelled_of_written ip.written_text)

/-- No address begins with a hyphen. -/
theorem head?_ne_hyphen_of_ofString? {text : String} {ip : IpAddr}
    (read : ofString? text = some ip) :
    text.toList.head? ≠ some '-' := by
  intro hyphen
  obtain ⟨rest, letters⟩ : ∃ rest, text.toList = '-' :: rest := by
    cases chars : text.toList with
    | nil => rw [chars] at hyphen; cases hyphen
    | cons c rest =>
      rw [chars, List.head?_cons, Option.some.injEq] at hyphen
      exact ⟨rest, by rw [hyphen]⟩
  rw [ofString?, letters] at read
  cases read

end IpAddr

end ExpiringStore
