import ExpiringStore.Limits
import ExpiringStore.Proofs.TextOrder

/-!
# Keys as they are shown

Where the bytes of a text can be cut is where it can be cut as characters, and since no
character has more than four bytes there is such a place at most three bytes before any other.
So the way back from the end of what a log line shows never leaves a key, and what it finds is
the longest start that fits.
-/
namespace ExpiringStore

namespace Bytes

def ofChars (chars : List Char) : Bytes := chars.flatMap String.utf8EncodeChar

theorem ofChars_cons (c : Char) (rest : List Char) :
    ofChars (c :: rest) = String.utf8EncodeChar c ++ ofChars rest := List.flatMap_cons ..

theorem ofChars_append (front back : List Char) :
    ofChars (front ++ back) = ofChars front ++ ofChars back :=
  List.flatMap_append ..

theorem ofChars_toList (s : String) : ofChars s.toList = ofString s := (ofString_eq_flatMap s).symm

theorem ofString_ofList (chars : List Char) : ofString (String.ofList chars) = ofChars chars := by
  rw [← ofChars_toList, String.toList_ofList]

/-! ## Boundaries -/

theorem isContinuation_iff {b : UInt8} :
    isContinuation b = true ↔ 128 ≤ b.toNat ∧ b.toNat < 192 := by
  simp [isContinuation, UInt8.le_iff_toNat_le, UInt8.lt_iff_toNat_lt]

/-- All bytes of a character but the first go on with it. -/
theorem isContinuation_utf8EncodeChar_iff {c : Char} {i : Nat} {b : UInt8}
    (here : (String.utf8EncodeChar c)[i]? = some b) : isContinuation b = true ↔ 0 < i := by
  rw [isContinuation_iff]
  rcases utf8EncodeChar_cases c with ⟨_, bytes⟩ | ⟨_, _, _, _, _, _, bytes⟩ |
      ⟨_, _, _, _, _, _, _, _, bytes⟩ | ⟨_, _, _, _, _, _, _, _, _, _, bytes⟩ <;>
    rw [bytes] at here <;>
    rcases i with _ | _ | _ | _ | i <;>
    simp only [List.getElem?_cons_zero, List.getElem?_cons_succ, List.getElem?_nil,
      Option.some.injEq, reduceCtorEq] at here <;>
    subst here <;>
    simp only [UInt8.toNat_ofNat'] <;>
    omega

theorem length_utf8EncodeChar_pos (c : Char) : 0 < (String.utf8EncodeChar c).length :=
  List.length_pos_iff.mpr String.utf8EncodeChar_ne_nil

/-- Characters begin with a byte that begins one. -/
theorem isContinuation_head {chars : List Char} {b : UInt8} (first : (ofChars chars)[0]? = some b) :
    isContinuation b = false := by
  cases chars with
  | nil => cases first
  | cons c rest =>
    rw [ofChars_cons, List.getElem?_append_left (length_utf8EncodeChar_pos c)] at first
    rw [← Bool.not_eq_true, isContinuation_utf8EncodeChar_iff first]
    exact Nat.lt_irrefl 0

/-- Within a character only its start is a boundary. -/
theorem isBoundary_cons_of_lt {c : Char} {rest : List Char} {i : Nat}
    (within : i < (String.utf8EncodeChar c).length) :
    (ofChars (c :: rest)).isBoundary i = true ↔ i = 0 := by
  have here : (ofChars (c :: rest))[i]? = some (String.utf8EncodeChar c)[i] := by
    rw [ofChars_cons, List.getElem?_append_left within, List.getElem?_eq_getElem within]
  have goesOn := isContinuation_utf8EncodeChar_iff (List.getElem?_eq_getElem within)
  simp only [isBoundary, here, Bool.or_eq_true, beq_iff_eq, Bool.not_eq_true', ← Bool.not_eq_true,
    goesOn]
  omega

/-- Behind a character the boundaries are those of what follows. -/
theorem isBoundary_cons_add (c : Char) (rest : List Char) (i : Nat) :
    (ofChars (c :: rest)).isBoundary ((String.utf8EncodeChar c).length + i) =
      (ofChars rest).isBoundary i := by
  have filled := length_utf8EncodeChar_pos c
  have there : (ofChars (c :: rest))[(String.utf8EncodeChar c).length + i]? =
      (ofChars rest)[i]? := by
    rw [ofChars_cons, List.getElem?_append_right (Nat.le_add_right _ _), Nat.add_sub_cancel_left]
  simp only [isBoundary, there]
  cases found : (ofChars rest)[i]? with
  | none =>
    rw [Bool.eq_iff_iff, beq_iff_eq, beq_iff_eq, ofChars_cons, List.length_append]
    omega
  | some b =>
    cases i with
    | zero => simp [isContinuation_head found]
    | succ i => simp

/-- The bytes of characters can be cut just where the characters can. -/
theorem isBoundary_ofChars_iff {chars : List Char} {i : Nat} :
    (ofChars chars).isBoundary i = true ↔ ∃ front back, chars = front ++ back ∧
      (ofChars front).length = i := by
  induction chars generalizing i with
  | nil =>
    have only : (ofChars []).isBoundary i = true ↔ i = 0 := by simp [ofChars, isBoundary]
    rw [only]
    constructor
    · rintro rfl
      exact ⟨[], [], rfl, rfl⟩
    · rintro ⟨front, back, split, rfl⟩
      rw [(List.append_eq_nil_iff.mp split.symm).1]
      rfl
  | cons c rest ih =>
    by_cases within : i < (String.utf8EncodeChar c).length
    · rw [isBoundary_cons_of_lt within]
      constructor
      · rintro rfl
        exact ⟨[], c :: rest, rfl, rfl⟩
      · rintro ⟨front, back, split, rfl⟩
        cases front with
        | nil => rfl
        | cons d front =>
          obtain ⟨rfl, -⟩ := List.cons.inj split
          rw [ofChars_cons, List.length_append] at within
          omega
    · obtain ⟨j, rfl⟩ := Nat.exists_eq_add_of_le (Nat.not_lt.mp within)
      rw [isBoundary_cons_add, ih]
      constructor
      · rintro ⟨front, back, rfl, rfl⟩
        exact ⟨c :: front, back, rfl, by rw [ofChars_cons, List.length_append]⟩
      · rintro ⟨front, back, split, length⟩
        cases front with
        | nil =>
          have filled := length_utf8EncodeChar_pos c
          simp only [ofChars, List.flatMap_nil, List.length_nil] at length
          omega
        | cons d front =>
          obtain ⟨rfl, rest⟩ := List.cons.inj split
          rw [ofChars_cons, List.length_append] at length
          exact ⟨front, back, rest, by omega⟩

theorem isBoundary_ofString_iff {s : String} {i : Nat} :
    (ofString s).isBoundary i = true ↔ ∃ front back, s = front ++ back ∧
      front.utf8ByteSize = i := by
  rw [← ofChars_toList, isBoundary_ofChars_iff]
  constructor
  · rintro ⟨front, back, split, length⟩
    refine ⟨String.ofList front, String.ofList back, ?_, ?_⟩
    · rw [← String.ofList_append, ← split, String.ofList_toList]
    · rw [← length_ofString, ofString_ofList, length]
  · rintro ⟨front, back, rfl, length⟩
    refine ⟨front.toList, back.toList, String.toList_append, ?_⟩
    rw [ofChars_toList, length_ofString, length]

/-- The way back ends at the last boundary. -/
theorem boundaryFrom?_eq {bytes : Bytes} {i j : Nat} (boundary : bytes.isBoundary j = true)
    (atOrBefore : j ≤ i) (last : ∀ k, bytes.isBoundary k = true → k ≤ i → k ≤ j) :
    bytes.boundaryFrom? i = some j := by
  induction i with
  | zero =>
    obtain rfl := Nat.le_zero.mp atOrBefore
    rw [boundaryFrom?, if_pos boundary]
  | succ i ih =>
    rw [boundaryFrom?]
    split
    · rename_i here
      have same : j = i + 1 := Nat.le_antisymm atOrBefore (last (i + 1) here (Nat.le_refl _))
      rw [same]
    · rename_i notHere
      have before : j ≠ i + 1 := fun same => notHere (same ▸ boundary)
      exact ih (by omega) fun k found within => last k found (by omega)

end Bytes

/-! ## The longest start -/

open Bytes

theorem length_takeBytes_le (budget : Nat) (chars : List Char) :
    (ofChars (takeBytes budget chars)).length ≤ budget := by
  induction chars generalizing budget with
  | nil => exact Nat.zero_le _
  | cons c rest ih =>
    rw [takeBytes]
    split
    · rename_i fits
      have others := ih (budget - c.utf8Size)
      rw [ofChars_cons, List.length_append, String.length_utf8EncodeChar]
      omega
    · exact Nat.zero_le _

/-- Whatever fits into the budget is the start of what is taken. -/
theorem exists_takeBytes_eq_append {budget : Nat} {front back : List Char}
    (fits : (ofChars front).length ≤ budget) :
    ∃ more, takeBytes budget (front ++ back) = front ++ more := by
  induction front generalizing budget with
  | nil => exact ⟨_, rfl⟩
  | cons c front ih =>
    rw [ofChars_cons, List.length_append, String.length_utf8EncodeChar] at fits
    obtain ⟨more, taken⟩ := @ih (budget - c.utf8Size) (by omega)
    exact ⟨more, by rw [List.cons_append, takeBytes, if_pos (by omega), taken, List.cons_append]⟩

/-- What is left is left because its first character does not fit any more. -/
theorem lt_length_takeBytes {budget : Nat} {chars : List Char}
    (exceeds : budget < (ofChars chars).length) :
    budget < (ofChars (takeBytes budget chars)).length + 4 := by
  induction chars generalizing budget with
  | nil => cases exceeds
  | cons c rest ih =>
    have size := c.utf8Size_le_four
    rw [ofChars_cons, List.length_append, String.length_utf8EncodeChar] at exceeds
    rw [takeBytes]
    split
    · rename_i fits
      have others := @ih (budget - c.utf8Size) (by omega)
      rw [ofChars_cons, List.length_append, String.length_utf8EncodeChar]
      omega
    · omega

/-- The way back from the end of a budget, which may lie behind the text, leads to the
end of what is taken. -/
theorem boundaryFrom?_ofString (s : String) (budget : Nat) :
    (ofString s).boundaryFrom? budget = some (ofChars (takeBytes budget s.toList)).length := by
  rw [← ofChars_toList]
  refine boundaryFrom?_eq ?_ (length_takeBytes_le budget s.toList) fun i boundary within => ?_
  · obtain ⟨back, split⟩ := takeBytes_append budget s.toList
    exact isBoundary_ofChars_iff.mpr ⟨_, back, split, rfl⟩
  · obtain ⟨front, back, split, rfl⟩ := isBoundary_ofChars_iff.mp boundary
    obtain ⟨more, taken⟩ := @exists_takeBytes_eq_append budget front back within
    rw [split, taken, ofChars_append, List.length_append]
    exact Nat.le_add_right _ _

/-- A key that is not shown whole is split in what is shown and what is not. -/
theorem exists_split_of_long {key : String} (long : logKeyBytes < key.utf8ByteSize) :
    ∃ front back, key = front ++ back ∧ logKey key = front ++ "..." ∧
      front.toList = takeBytes logKeyBytes key.toList := by
  obtain ⟨back, split⟩ := takeBytes_append logKeyBytes key.toList
  refine ⟨String.ofList (takeBytes logKeyBytes key.toList), String.ofList back, ?_, ?_,
    String.toList_ofList⟩
  · rw [← String.ofList_append, ← split, String.ofList_toList]
  · rw [logKey, if_neg (Nat.not_le.mpr long)]

/-- Going back byte by byte shows what taking characters does. -/
theorem cutLogKey?_ofString (key : String) :
    cutLogKey? (ofString key) = some (ofString (logKey key)) := by
  by_cases short : key.utf8ByteSize ≤ logKeyBytes
  · rw [cutLogKey?, logKey, length_ofString, if_pos short, if_pos short]
  · obtain ⟨front, back, split, shown, taken⟩ := exists_split_of_long (Nat.not_le.mp short)
    have stop : (ofString key).boundaryFrom? logKeyBytes = some (ofString front).length := by
      rw [boundaryFrom?_ofString, ← taken, ofChars_toList]
    have boundary : (ofString key).isBoundary (ofString front).length = true :=
      isBoundary_ofString_iff.mpr ⟨front, back, split, rfl⟩
    have cut : (ofString key).before? (ofString front).length = some (ofString front) := by
      rw [before?, if_pos boundary, split, ofString_append, List.take_left]
    rw [cutLogKey?, length_ofString, if_neg short, stop, Option.bind_eq_bind, Option.bind_some,
      cut, shown, ofString_append]
    rfl

/-- Of a long key the longest start that fits is shown, whatever its
characters, and not all of it. -/
theorem exists_longest_of_long {key : String} (long : 16 < key.utf8ByteSize) :
    ∃ front back, key = front ++ back ∧ back ≠ "" ∧ logKey key = front ++ "..." ∧
      13 ≤ front.utf8ByteSize ∧ front.utf8ByteSize ≤ 16 ∧
      ∀ other rest, key = other ++ rest → other.utf8ByteSize ≤ 16 →
      ∃ more, front = other ++ more := by
  obtain ⟨front, back, split, shown, taken⟩ := exists_split_of_long long
  have size : front.utf8ByteSize = (ofChars (takeBytes logKeyBytes key.toList)).length := by
    rw [← taken, ofChars_toList, length_ofString]
  have fits : front.utf8ByteSize ≤ 16 := size ▸ length_takeBytes_le logKeyBytes key.toList
  have filled : 16 < front.utf8ByteSize + 4 :=
    size ▸ lt_length_takeBytes (by rwa [ofChars_toList, length_ofString])
  refine ⟨front, back, split, ?_, shown, by omega, fits, ?_⟩
  · rintro rfl
    rw [split, String.append_empty] at long
    omega
  · intro other rest otherSplit otherFits
    have within : (ofChars other.toList).length ≤ logKeyBytes := by
      rwa [ofChars_toList, length_ofString]
    obtain ⟨more, same⟩ := @exists_takeBytes_eq_append _ other.toList rest.toList within
    refine ⟨String.ofList more, String.toList_injective ?_⟩
    rw [taken, otherSplit, String.toList_append, same, String.toList_append, String.toList_ofList]

/-- The way back from the sixteenth byte never leaves the key nor cuts a character, so there always
is something to show, and it is a text. A key of at most sixteen bytes is shown whole; of any other
the longest start that ends between two characters and fits, which has at least thirteen bytes and
leaves something out, and a mark behind it. -/
theorem shown_key_is_longest_start (key : String) :
    cutLogKey? (Bytes.ofString key) = some (Bytes.ofString (logKey key)) ∧
    (key.utf8ByteSize ≤ 16 → logKey key = key) ∧
    (16 < key.utf8ByteSize → ∃ front back, key = front ++ back ∧ back ≠ "" ∧
      logKey key = front ++ "..." ∧
      13 ≤ front.utf8ByteSize ∧ front.utf8ByteSize ≤ 16 ∧
      (Bytes.ofString key).isBoundary front.utf8ByteSize = true ∧
      (∀ i, (Bytes.ofString key).isBoundary i = true → i ≤ 16 → i ≤ front.utf8ByteSize) ∧
      ∀ other rest, key = other ++ rest → other.utf8ByteSize ≤ 16 → ∃ more, front = other ++ more) ∧
    (logKey key).utf8ByteSize ≤ 19 := by
  have whole (short : key.utf8ByteSize ≤ 16) : logKey key = key := if_pos short
  refine ⟨cutLogKey?_ofString key, whole, fun long => ?_, ?_⟩
  · obtain ⟨front, back, split, cut, shown, filled, fits, longest⟩ := exists_longest_of_long long
    refine ⟨front, back, split, cut, shown, filled, fits, ?_, fun i boundary within => ?_, longest⟩
    · exact isBoundary_ofString_iff.mpr ⟨front, back, split, rfl⟩
    · obtain ⟨other, rest, otherSplit, rfl⟩ := isBoundary_ofString_iff.mp boundary
      obtain ⟨more, rfl⟩ := longest other rest otherSplit within
      rw [String.utf8ByteSize_append]
      exact Nat.le_add_right _ _
  · by_cases short : key.utf8ByteSize ≤ 16
    · rw [whole short]
      omega
    · obtain ⟨front, back, -, -, shown, -, fits, -⟩ := exists_longest_of_long (Nat.not_le.mp short)
      have mark : "...".utf8ByteSize = 3 := by decide
      rw [shown, String.utf8ByteSize_append, mark]
      omega

/-- Thirteen letters and a character of four bytes, whose last one is the seventeenth. -/
theorem shown_key_is_longest_start_straddling :
    let key := "aaaaaaaaaaaaa😀"
    16 < key.utf8ByteSize ∧ logKey key = "aaaaaaaaaaaaa..." ∧
      (Bytes.ofString key).boundaryFrom? 16 = some 13 ∧
      ∃ front back, key = front ++ back ∧ back ≠ "" ∧ logKey key = front ++ "..." ∧
      13 ≤ front.utf8ByteSize := by
  intro key
  have long : 16 < key.utf8ByteSize := by decide
  obtain ⟨-, -, longest, -⟩ := shown_key_is_longest_start key
  obtain ⟨front, back, split, cut, shown, filled, -⟩ := longest long
  exact ⟨long, by decide, by decide, front, back, split, cut, shown, filled⟩

end ExpiringStore
