import ExpiringStore.Json.Grammar
import ExpiringStore.Proofs.Decimal

/-!
# What a string stands for

A content that stands for a text, with any of its characters escaped in any way, is read as that
text, and what is written for a text stands for it.
-/
namespace ExpiringStore.Literal

theorem unescape_map_raw (acc bytes : Bytes) (pieces : List Piece) :
    unescape acc none (bytes.map Piece.raw ++ pieces) =
      unescape (bytes.reverse ++ acc) none pieces := by
  induction bytes generalizing acc with
  | nil => rfl
  | cons b rest ih =>
    rw [List.map_cons, List.cons_append, unescape, ih, List.reverse_cons, List.append_assoc]
    rfl

theorem isHigh_iff {u : UInt16} : isHigh u = true ↔ 0xd800 ≤ u.toNat ∧ u.toNat ≤ 0xdbff := by
  simp [isHigh, UInt16.le_iff_toNat_le]

theorem isLow_iff {u : UInt16} : isLow u = true ↔ 0xdc00 ≤ u.toNat ∧ u.toNat ≤ 0xdfff := by
  simp [isLow, UInt16.le_iff_toNat_le]

/-- No character lies among the surrogates. -/
theorem not_surrogate (c : Char) : ¬(0xd800 ≤ c.toNat ∧ c.toNat ≤ 0xdfff) := by
  have valid := c.valid
  simp only [UInt32.isValidChar, Nat.isValidChar] at valid
  have same : c.val.toNat = c.toNat := rfl
  omega

theorem unescape_of_stands {pieces : List Piece} {chars : List Char} (stands : Stands pieces chars)
    (acc : Bytes) :
    unescape acc none pieces = some (acc.reverse ++ chars.flatMap String.utf8EncodeChar) := by
  induction stands generalizing acc with
  | nil => simp [unescape]
  | @raw c pieces rest _ ih =>
    rw [unescape_map_raw, ih, List.flatMap_cons]
    simp
  | @unit u c pieces rest value _ ih =>
    have outside := not_surrogate c
    have notLow : isLow u = false := by
      rw [Bool.eq_false_iff, Ne, isLow_iff]
      omega
    have notHigh : isHigh u = false := by
      rw [Bool.eq_false_iff, Ne, isHigh_iff]
      omega
    rw [unescape, notLow, notHigh, ← value, Char.ofNat_toNat, if_neg Bool.false_ne_true,
      if_neg Bool.false_ne_true, ih, List.flatMap_cons]
    simp
  | @pair high low c pieces rest first second value _ ih =>
    have notLow : isLow high = false := by
      rw [Bool.eq_false_iff, Ne, isLow_iff]
      omega
    have isFirst := isHigh_iff.mpr first
    have isSecond := isLow_iff.mpr second
    have char : pairChar high low = c := by rw [pairChar, ← value, Char.ofNat_toNat]
    rw [unescape, notLow, isFirst, if_neg Bool.false_ne_true, if_pos rfl, unescape, isSecond,
      if_pos rfl, char, ih, List.flatMap_cons]
    simp

/-- A content is read as the text that it stands for. -/
theorem text?_of_standsFor {l : Literal} {text : String} (stands : l.StandsFor text) :
    l.text? = some text := by
  rw [text?, unescape_of_stands stands, List.reverse_nil, List.nil_append, Option.bind_some,
    ← Bytes.ofString_eq_flatMap, Bytes.toString?_ofString]

/-- The bytes of a character outside ASCII are not ASCII either. -/
theorem le_of_mem_utf8EncodeChar {c : Char} (wide : 0x80 ≤ c.toNat) {b : UInt8}
    (mem : b ∈ String.utf8EncodeChar c) : 0x80 ≤ b.toNat := by
  have same : c.val.toNat = c.toNat := rfl
  have notAscii : ¬c.toNat ≤ 0x7f := by omega
  simp only [String.utf8EncodeChar, same, if_neg notAscii] at mem
  split at mem
  · simp only [List.mem_cons, List.not_mem_nil, or_false] at mem
    rcases mem with rfl | rfl <;> rw [UInt8.toNat_ofNat'] <;> omega
  · split at mem
    · simp only [List.mem_cons, List.not_mem_nil, or_false] at mem
      rcases mem with rfl | rfl | rfl <;> rw [UInt8.toNat_ofNat'] <;> omega
    · simp only [List.mem_cons, List.not_mem_nil, or_false] at mem
      rcases mem with rfl | rfl | rfl | rfl <;> rw [UInt8.toNat_ofNat'] <;> omega

theorem pieceOf_of_le {b : UInt8} (wide : 0x80 ≤ b.toNat) : pieceOf b = .raw b := by
  have notControl : ¬b < 0x20 := by
    rw [UInt8.lt_iff_toNat_lt]
    exact Nat.not_lt.mpr (Nat.le_trans (by decide) wide)
  have notQuote : b ≠ 0x22 := by
    rintro rfl
    exact absurd wide (by decide)
  have notEscape : b ≠ 0x5c := by
    rintro rfl
    exact absurd wide (by decide)
  simp [pieceOf, notControl, notQuote, notEscape]

/-- What is written for a text stands for it. -/
theorem standsFor_ofString (s : String) : (ofString s).StandsFor s := by
  rw [StandsFor, ofString, Bytes.ofString_eq_flatMap]
  generalize s.toList = chars
  induction chars with
  | nil => exact .nil
  | cons c rest ih =>
    rw [List.flatMap_cons, List.map_append]
    by_cases ascii : c.toNat < 0x80
    · have value : c.toNat = c.toNat.toUInt8.toUInt16.toNat := by
        simp
        omega
      rw [Bytes.utf8EncodeChar_of_lt ascii, List.map_singleton, pieceOf]
      split
      · exact .unit value ih
      · have plain := Stands.raw (c := c) ih
        rwa [Bytes.utf8EncodeChar_of_lt ascii] at plain
    · have wide : 0x80 ≤ c.toNat := by omega
      rw [List.map_congr_left fun b mem => pieceOf_of_le (le_of_mem_utf8EncodeChar wide mem)]
      exact .raw ih

end ExpiringStore.Literal
