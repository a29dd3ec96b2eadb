import ExpiringStore.Proofs.Address.Numbers

/-!
# Which texts are addresses

A version 4 address has one text. A version 6 address has many: its groups may have zeros in front
and letters of either case, the last two may stand there as a version 4 address, and one row of zero
groups may be left out. The reader takes every such text for its address, and no other text.
-/
namespace ExpiringStore

open AddressReader

namespace Ipv6

/-- What stands between a group and those before it. -/
def separator (first : Bool) : List Char := if first then [] else [':']

/-- Groups in a row, and whether the last two of them are written as a version 4 address. -/
inductive SpelledRow (embedded : Bool) : (first : Bool) → List UInt16 → List Char → Prop
  | none {first : Bool} (whole : embedded = false) : SpelledRow embedded first [] []
  | embedded {first : Bool} (ip : Ipv4) (ends : embedded = true) :
    SpelledRow embedded first ip.toGroups (separator first ++ ip.text.toList)
  | group {first : Bool} {g : UInt16} {others : List UInt16} {chars behind : List Char}
    (digits : IsGroup chars g) (row : SpelledRow embedded false others behind) :
    SpelledRow embedded first (g :: others) (separator first ++ chars ++ behind)

/-- All the texts of an address: its groups in a row, or two rows with the groups between them,
which are zero, left out. -/
inductive Spelled (ip : Ipv6) : List Char → Prop
  | whole {embedded : Bool} {chars : List Char} (row : SpelledRow embedded true ip.groups chars) :
    Spelled ip chars
  | elided {embedded : Bool} {front back : List UInt16} {count : Nat} {before behind : List Char}
    (split : ip.groups = front ++ List.replicate count 0 ++ back) (some : 0 < count)
    (head : SpelledRow false true front before) (tail : SpelledRow embedded true back behind) :
    Spelled ip (before ++ ':' :: ':' :: behind)

end Ipv6

/-- The texts of an address of either family. -/
inductive IpAddr.Spelled : IpAddr → String → Prop
  | v4 (ip : Ipv4) : Spelled (.v4 ip) ip.text
  | v6 {ip : Ipv6} {text : String} (spelled : ip.Spelled text.toList) : Spelled (.v6 ip) text

namespace AddressReader

theorem mark_self (c : Char) (rest : List Char) : mark c (c :: rest) = some rest := if_pos rfl

theorem mark_eq_some_iff {c : Char} {cs rest : List Char} :
    mark c cs = some rest ↔ cs = c :: rest := by
  cases cs with
  | nil => simp [mark]
  | cons d behind => simp [mark]

/-! ## Version 4 -/

theorem endsDigits_of_eq {base : Nat} {c : Char} (other : digitValue? base c = none)
    (rest : List Char) : EndsDigits base (c :: rest) := by
  rintro _ ⟨⟩
  exact other

/-- A version 4 address is what stands there as it is written, up to where its digits end. -/
theorem ipv4_eq_some_iff {cs rest : List Char} {ip : Ipv4} :
    ipv4 cs = some (ip, rest) ↔ cs = ip.text.toList ++ rest ∧ EndsDigits 10 rest := by
  have dot (behind : List Char) : EndsDigits 10 ('.' :: behind) :=
    endsDigits_of_eq (by decide) behind
  have letters : ip.text.toList ++ rest =
      Nat.toDigits 10 ip.a.toNat ++ '.' :: (Nat.toDigits 10 ip.b.toNat ++
      '.' :: (Nat.toDigits 10 ip.c.toNat ++ '.' :: (Nat.toDigits 10 ip.d.toNat ++ rest))) := by
    simp [Ipv4.text]
  rw [letters]
  simp only [ipv4, Option.bind_eq_bind, Option.bind_eq_some_iff, Prod.exists, octet_eq_some_iff,
    mark_eq_some_iff, Option.pure_def, Option.some.injEq, Prod.mk.injEq]
  constructor
  · rintro ⟨a, _, ⟨rfl, -⟩, _, rfl, b, _, ⟨rfl, -⟩, _, rfl, c, _, ⟨rfl, -⟩, _, rfl, d, _,
      ⟨rfl, ends⟩, rfl, rfl⟩
    exact ⟨rfl, ends⟩
  · rintro ⟨rfl, ends⟩
    exact ⟨ip.a, _, ⟨rfl, dot _⟩, _, rfl, ip.b, _, ⟨rfl, dot _⟩, _, rfl, ip.c, _,
      ⟨rfl, dot _⟩, _, rfl, ip.d, _, ⟨rfl, ends⟩, rfl, rfl⟩

theorem ipv4_text (ip : Ipv4) : ipv4 ip.text.toList = some (ip, []) :=
  ipv4_eq_some_iff.mpr ⟨(List.append_nil _).symm, by simp [EndsDigits]⟩

/-! ## Rows of groups -/

/-- Whether nothing is left or what is left begins with a colon. -/
def AtColon (rest : List Char) : Prop := ∀ c ∈ rest.head?, c = ':'

theorem atColon_nil : AtColon [] := nofun

theorem atColon_cons (rest : List Char) : AtColon (':' :: rest) :=
  fun _ is => (Option.some.inj is).symm

theorem AtColon.endsDigits {base : Nat} {rest : List Char} (ends : AtColon rest) :
    EndsDigits base rest := by
  intro c first
  rw [ends c first]
  rfl

/-- A group that a colon follows is no beginning of a version 4 address. -/
theorem ipv4_of_group {chars rest : List Char} {g : UInt16} (group : IsGroup chars g)
    (ends : AtColon rest) : ipv4 (chars ++ rest) = none := by
  have digits := (hexDigits_iff.mp group.digits).1
  have notAtDot (behind : List Char) : rest ≠ '.' :: behind := by
    rintro rfl
    exact absurd (ends '.' rfl) (by decide)
  refine Option.eq_none_iff_forall_ne_some.mpr fun ⟨ip, behind⟩ read => ?_
  have split := (ipv4_eq_some_iff.mp read).1
  simp only [Ipv4.text, String.toList_append, List.append_assoc] at split
  have dot : ".".toList = ['.'] := rfl
  rw [dot, List.singleton_append, List.append_eq_append_iff] at split
  -- The group would have to reach to the first dot, but has none, or end before
  -- it, where a colon is.
  rcases split with ⟨more, octet, behind⟩ | ⟨more, before, behind⟩
  · cases more with
    | nil => exact notAtDot _ behind
    | cons c others =>
      have colon : c = ':' := ends c (by rw [behind]; rfl)
      have octets := (digitsValue_toDigits ip.a.toNat).1
      have letters : (toString ip.a.toNat).toList = Nat.toDigits 10 ip.a.toNat := Nat.toList_repr
      exact absurd (octets c (by rw [← letters, octet]; simp)) (by rw [colon]; decide)
  · cases more with
    | nil => exact notAtDot _ behind.symm
    | cons c others =>
      have dot : '.' = c := (List.cons.inj behind).1
      exact absurd (digits c (by rw [before]; simp)) (by rw [← dot]; decide)

theorem ipv4_atColon {rest : List Char} (ends : AtColon rest) : ipv4 rest = none := by
  cases rest with
  | nil => rfl
  | cons c behind =>
    obtain rfl : c = ':' := ends c rfl
    rfl

theorem group_atColon {rest : List Char} (ends : AtColon rest) : group rest = none := by
  cases rest with
  | nil => rfl
  | cons c behind =>
    obtain rfl : c = ':' := ends c rfl
    rfl

theorem item_eq_some_iff {α : Type} {first : Bool} {read : List Char → Option (α × List Char)}
    {cs : List Char} {found : α × List Char} :
    item first read cs = some found ↔
      ∃ behind, cs = Ipv6.separator first ++ behind ∧ read behind = some found := by
  cases first with
  | true => simp [item, Ipv6.separator]
  | false => simp [item, Ipv6.separator, Option.bind_eq_some_iff, mark_eq_some_iff]

/-- What is read as a row of groups stands there as one. -/
theorem spelledRow_of_row {first : Bool} {room : Nat} {cs : List Char} :
    (row first room cs).groups.length ≤ room ∧
      ∃ chars, cs = chars ++ (row first room cs).rest ∧
        Ipv6.SpelledRow (row first room cs).embedded first (row first room cs).groups chars := by
  induction room generalizing first cs with
  | zero => exact ⟨Nat.le_refl 0, [], rfl, .none rfl⟩
  | succ room ih =>
    rw [row]
    split
    · rename_i ip rest found
      split_ifs at found with last
      obtain ⟨behind, split, read⟩ := item_eq_some_iff.mp found
      obtain ⟨text, -⟩ := ipv4_eq_some_iff.mp read
      refine ⟨?_, _, ?_, .embedded ip rfl⟩
      · simp only [Ipv4.toGroups, List.length_cons, List.length_nil]
        omega
      · rw [split, text, List.append_assoc]
    · split
      · exact ⟨Nat.zero_le _, [], rfl, .none rfl⟩
      · rename_i g rest found
        obtain ⟨behind, split, read⟩ := item_eq_some_iff.mp found
        obtain ⟨chars, text, -, isGroup⟩ := group_eq_some_iff.mp read
        obtain ⟨fits, others, others_eq, spelled⟩ := @ih false rest
        refine ⟨Nat.succ_le_succ fits, _, ?_, .group isGroup spelled⟩
        rw [split, text, List.append_assoc, List.append_assoc, ← others_eq]

/-- A group is read, and then the groups behind it. -/
theorem row_group {first : Bool} {room : Nat} {g : UInt16} {chars rest : List Char}
    (isGroup : IsGroup chars g) (ends : AtColon rest) :
    row first (room + 1) (Ipv6.separator first ++ chars ++ rest) =
      let tail := row false room rest
      { tail with groups := g :: tail.groups } := by
  have noAddress : item first ipv4 (Ipv6.separator first ++ chars ++ rest) = none := by
    refine Option.eq_none_iff_forall_ne_some.mpr fun found some => ?_
    obtain ⟨behind, split, read⟩ := item_eq_some_iff.mp some
    rw [List.append_assoc, List.append_right_inj] at split
    rw [← split, ipv4_of_group isGroup ends] at read
    cases read
  have one : item first group (Ipv6.separator first ++ chars ++ rest) = some (g, rest) :=
    item_eq_some_iff.mpr ⟨chars ++ rest, List.append_assoc .., group_eq_some_iff.mpr
      ⟨chars, rfl, ends.endsDigits, isGroup⟩⟩
  simp only [row, noAddress, one, ite_self]

/-- A row has no groups where nothing is left that a group could be read from. -/
theorem row_eq_nil {first : Bool} {rest : List Char} (ends : AtColon rest)
    (stops : ∀ behind, rest = ':' :: behind → AtColon behind) (room : Nat) :
    row first room rest = ⟨[], false, rest⟩ := by
  have noItem {α : Type} {read : List Char → Option (α × List Char)}
      (nothing : ∀ {rest}, AtColon rest → read rest = none) : item first read rest = none := by
    refine Option.eq_none_iff_forall_ne_some.mpr fun found some => ?_
    obtain ⟨behind, split, read⟩ := item_eq_some_iff.mp some
    cases first with
    | true =>
      rw [← show rest = behind from split, nothing ends] at read
      cases read
    | false =>
      rw [nothing (stops behind split)] at read
      cases read
  cases room with
  | zero => rfl
  | succ room => simp only [row, noItem ipv4_atColon, noItem group_atColon, ite_self]

/-- At the mark of groups that are left out there is no further group. -/
theorem row_elided (first : Bool) (room : Nat) (rest : List Char) :
    row first room (':' :: ':' :: rest) = ⟨[], false, ':' :: ':' :: rest⟩ := by
  refine row_eq_nil (atColon_cons _) ?_ room
  rintro _ ⟨⟩
  exact atColon_cons rest

theorem atColon_of_spelledRow {embedded : Bool} {groups : List UInt16} {chars rest : List Char}
    (spelled : Ipv6.SpelledRow embedded false groups chars) (ends : AtColon rest) :
    AtColon (chars ++ rest) := by
  cases spelled with
  | none => exact ends
  | embedded | group => exact atColon_cons _

theorem atColon_spelledRow {embedded : Bool} {groups : List UInt16} {chars : List Char}
    (spelled : Ipv6.SpelledRow embedded false groups chars) : AtColon chars := by
  have ends := atColon_of_spelledRow spelled atColon_nil
  rwa [List.append_nil] at ends

/-- A row of groups is read, and then what follows it. -/
theorem row_of_spelled {first : Bool} {groups : List UInt16} {room : Nat} {chars rest : List Char}
    (spelled : Ipv6.SpelledRow false first groups chars) (fits : groups.length ≤ room)
    (ends : AtColon rest) :
    row first room (chars ++ rest) =
      let tail := row (first && groups.isEmpty) (room - groups.length) rest
      { tail with groups := groups ++ tail.groups } := by
  induction spelled generalizing room with
  | none => simp
  | embedded ip notEmbedded => cases notEmbedded
  | group isGroup behind ih =>
    cases room with
    | zero => cases fits
    | succ room =>
      have others := ih (Nat.le_of_succ_le_succ fits)
      rw [List.append_assoc _ _ rest, row_group isGroup (atColon_of_spelledRow behind ends), others]
      simp

/-- A row of groups with nothing behind it. -/
theorem row_whole {embedded first : Bool} {groups : List UInt16} {room : Nat} {chars : List Char}
    (spelled : Ipv6.SpelledRow embedded first groups chars) (fits : groups.length ≤ room) :
    row first room chars = ⟨groups, embedded, []⟩ := by
  induction spelled generalizing room with
  | none notEmbedded =>
    subst notEmbedded
    exact row_eq_nil atColon_nil (by simp) room
  | @embedded first ip isEmbedded =>
    subst isEmbedded
    have read : item first ipv4 (Ipv6.separator first ++ ip.text.toList) = some (ip, []) :=
      item_eq_some_iff.mpr ⟨_, rfl, ipv4_text ip⟩
    obtain ⟨more, rfl⟩ := Nat.exists_eq_add_of_le' fits
    have several : more + 1 ≠ 0 := Nat.succ_ne_zero more
    simp only [Ipv4.toGroups, List.length_cons, List.length_nil, row, several, if_false, read]
  | group isGroup behind ih =>
    cases room with
    | zero => cases fits
    | succ room =>
      rw [row_group isGroup (atColon_spelledRow behind), ih (Nat.le_of_succ_le_succ fits)]

/-! ## Version 6 -/

/-- What is read as an address is one of its texts. -/
theorem spelled_of_ipv6 {cs rest : List Char} {ip : Ipv6} (read : ipv6 cs = some (ip, rest)) :
    ∃ chars, cs = chars ++ rest ∧ ip.Spelled chars := by
  obtain ⟨atMost, before, split, head⟩ := @spelledRow_of_row true 8 cs
  unfold ipv6 at read
  simp only at read
  split_ifs at read with eight embedded
  · obtain ⟨rfl, rfl⟩ := Prod.mk.inj (Option.some.inj read)
    exact ⟨before, split, .whole head⟩
  · simp only [Option.bind_eq_bind, Option.bind_eq_some_iff, mark_eq_some_iff] at read
    obtain ⟨_, colon, behind, colons, read⟩ := read
    split_ifs at read with filled
    obtain ⟨rfl, rfl⟩ := Prod.mk.inj (Option.some.inj read)
    obtain ⟨fits, chars, text, tail⟩ :=
      @spelledRow_of_row true (8 - ((row true 8 cs).groups.length + 1)) behind
    rw [Bool.not_eq_true] at embedded
    rw [embedded] at head
    refine ⟨before ++ ':' :: ':' :: chars, ?_, .elided rfl ?_ head tail⟩
    · rw [List.append_assoc, List.cons_append, List.cons_append, ← text, ← colons, ← colon]
      exact split
    · omega

/-- Every text of an address is read as the address. -/
theorem ipv6_of_spelled {cs : List Char} {ip : Ipv6} (spelled : ip.Spelled cs) :
    ipv6 cs = some (ip, []) := by
  have eight := ip.eight
  cases spelled with
  | whole row => simp only [ipv6, row_whole row (Nat.le_of_eq eight), dif_pos eight]
  | @elided embedded front back count before behind split some head tail =>
    rw [split, List.length_append, List.length_append, List.length_replicate] at eight
    have missing : 8 - front.length - back.length = count := by omega
    have first :=
      @row_of_spelled true front 8 before (':' :: ':' :: behind) head (by omega) (atColon_cons _)
    have last := @row_whole embedded true back (8 - (front.length + 1)) behind tail (by omega)
    simp only [row_elided, List.append_nil] at first
    simp only [ipv6, first, mark_self, last, Option.bind_eq_bind, Option.bind_some,
      Bool.false_eq_true, if_false, missing, ← split]
    rw [dif_neg (by omega), dif_pos ip.eight]

/-- No text of a version 6 address begins with one of version 4. -/
theorem ipv4_of_spelled {cs : List Char} {ip : Ipv6} (spelled : ip.Spelled cs) :
    ipv4 cs = none := by
  cases spelled with
  | whole row =>
    have eight := ip.eight
    generalize ip.groups = groups at row eight
    cases row with
    | none | embedded => cases eight
    | group isGroup behind => exact ipv4_of_group isGroup (atColon_spelledRow behind)
  | elided split some head tail =>
    cases head with
    | none => exact ipv4_atColon (atColon_cons _)
    | embedded ip isEmbedded => cases isEmbedded
    | group isGroup behind =>
      rw [List.append_assoc]
      exact ipv4_of_group isGroup (atColon_of_spelledRow behind (atColon_cons _))

end AddressReader

/-- A text is read as the address that it is a text of. -/
theorem IpAddr.ofString?_eq_some_iff {text : String} {ip : IpAddr} :
    ofString? text = some ip ↔ ip.Spelled text := by
  constructor
  · intro read
    unfold ofString? whole at read
    split at read
    · rename_i found used
      obtain rfl := Option.some.inj read
      unfold ipAddr at used
      split at used
      · rename_i ip rest first
        obtain ⟨rfl, rfl⟩ := Prod.mk.inj (Option.some.inj used)
        obtain ⟨letters, -⟩ := ipv4_eq_some_iff.mp first
        rw [List.append_nil] at letters
        rw [String.toList_injective letters]
        exact .v4 ip
      · obtain ⟨⟨ip, rest⟩, second, same⟩ := Option.map_eq_some_iff.mp used
        obtain ⟨rfl, rfl⟩ := Prod.mk.inj same
        obtain ⟨chars, letters, spelled⟩ := spelled_of_ipv6 second
        rw [List.append_nil] at letters
        exact .v6 (letters ▸ spelled)
    · cases read
  · intro spelled
    cases spelled with
    | v4 ip => simp only [ofString?, whole, ipAddr, ipv4_text]
    | v6 spelled =>
      simp only [ofString?, whole, ipAddr, ipv4_of_spelled spelled, ipv6_of_spelled spelled,
        Option.map_some]

end ExpiringStore
