import ExpiringStore.Proofs.Http.Spelling
import ExpiringStore.Proofs.Json.Rendering

/-!
# Every call can be made over HTTP

The request that escapes a whole key and carries exactly the two members of a write makes its call,
if its body is not too large.
-/
namespace ExpiringStore

namespace Bytes

theorem ofString_ofList_map {bytes : Bytes} (ascii : ∀ b ∈ bytes, b.toNat < 0x80) :
    ofString (String.ofList (bytes.map fun b => Char.ofNat b.toNat)) = bytes := by
  rw [ofString_eq_flatMap, String.toList_ofList]
  induction bytes with
  | nil => rfl
  | cons b rest ih =>
    rw [List.map_cons, List.flatMap_cons, Literal.utf8EncodeChar_ascii (ascii b List.mem_cons_self),
      ih fun c mem => ascii c (List.mem_cons_of_mem _ mem)]
    rfl

theorem ofString_eq_map {s : String} (ascii : ∀ c ∈ s.toList, c.toNat < 0x80) :
    ofString s = s.toList.map fun c => c.toNat.toUInt8 := by
  rw [ofString_eq_flatMap]
  generalize s.toList = chars at ascii
  induction chars with
  | nil => rfl
  | cons c rest ih =>
    rw [List.flatMap_cons, utf8EncodeChar_of_lt (ascii c List.mem_cons_self),
      ih fun d mem => ascii d (List.mem_cons_of_mem _ mem)]
    rfl

end Bytes

namespace Percent

theorem spelled_encode (bytes : Bytes) : Spelled bytes (encode bytes) := by
  induction bytes with
  | nil => exact .nil
  | cons b rest ih =>
    have bound := b.toNat_lt
    have high : (b / 16).toNat = b.toNat / 16 := by simp
    have low : (b % 16).toNat = b.toNat % 16 := by simp
    refine .escape (Piece.isHex_hexDigit ?_) (Piece.isHex_hexDigit ?_) ?_ ih
    · omega
    · omega
    · omega

theorem ascii_of_isHex {value : Nat} {b : UInt8} (hex : Bytes.IsHex value b) : b.toNat < 0x80 := by
  rcases hex with ⟨small, digit⟩ | ⟨-, small, upper | lower⟩ <;> omega

theorem ascii_encode (bytes : Bytes) : ∀ b ∈ encode bytes, b.toNat < 0x80 := by
  intro c mem
  obtain ⟨b, -, escaped⟩ := List.mem_flatMap.mp mem
  have bound := b.toNat_lt
  have high : (b / 16).toNat < 16 := by simp; omega
  have low : (b % 16).toNat < 16 := by simp; omega
  simp only [List.mem_cons, List.not_mem_nil, or_false] at escaped
  rcases escaped with rfl | rfl | rfl
  · decide
  · exact ascii_of_isHex (Piece.isHex_hexDigit high)
  · exact ascii_of_isHex (Piece.isHex_hexDigit low)

end Percent

namespace NumberPhase

theorem isDigit_of_char {c : Char} (digit : c.isDigit = true) : isDigit c.toNat.toUInt8 = true := by
  have bounds := Char.isDigit_iff_toNat.mp digit
  have low : '0'.toNat = 48 := rfl
  have high : '9'.toNat = 57 := rfl
  simp [isDigit, UInt8.le_iff_toNat_le]
  omega

/-- The decimal digits of a number are its whole part. -/
theorem whole_toDigits (n : Nat) : Whole ((Nat.toDigits 10 n).map fun c => c.toNat.toUInt8) := by
  obtain ⟨first, rest, digits, digit, others, zero⟩ := toDigits_eq_cons n
  by_cases isZero : first = '0'
  · obtain rfl := zero isZero
    exact .zero
  · rw [digits, List.map_cons]
    have notZero : first.toNat.toUInt8 ≠ 0x30 := by
      intro same
      have bounds := Char.isDigit_iff_toNat.mp digit
      have high : '9'.toNat = 57 := rfl
      have value := congrArg UInt8.toNat same
      rw [Nat.toUInt8_eq, UInt8.toNat_ofNat', Nat.mod_eq_of_lt (by omega)] at value
      exact isZero (Char.toNat_inj.mp value)
    refine .digits (isDigit_of_char digit) notZero ?_
    intro d mem
    obtain ⟨c, inside, rfl⟩ := List.mem_map.mp mem
    exact isDigit_of_char (others c inside)

/-- An integer's decimal text is a number. -/
theorem isNumber_toString (n : Int) : IsNumber (Bytes.ofString (toString n)) := by
  rw [Bytes.ofString_eq_map fun _ => ascii_of_mem_toString, toList_toString_int]
  split
  · have number := IsNumber.mk (.inl rfl) (whole_toDigits n.toNat) .none .none
    rwa [List.nil_append, List.append_nil, List.append_nil] at number
  · have number := IsNumber.mk (.inr rfl) (whole_toDigits (-n).toNat) .none .none
    rwa [List.append_nil, List.append_nil] at number

end NumberPhase

namespace Http

theorem namesKey_escapedTarget (key : String) : NamesKey (escapedTarget key) key := by
  have written := Bytes.ofString_ofList_map (Percent.ascii_encode (Bytes.ofString key))
  refine ⟨Percent.encode (Bytes.ofString key), [], Percent.spelled_encode _, .none, ?_⟩
  rw [escapedTarget, Bytes.ofString_append, written, List.append_nil]

theorem SetBody.spelled_document (write : SetBody) : write.Spelled write.document.render := by
  have names := Literal.wellFormed_ofString
  have number := NumberPhase.isNumber_toString write.ttlSeconds.toInt
  have wellFormed : write.document.WellFormed := ⟨names _, names _, names _, number, trivial⟩
  have stands := Literal.standsFor_ofString
  refine ⟨⟨some write.value, some write.ttlSeconds⟩, _, ?_,
    Json.spelled_render write.document wellFormed, rfl, rfl⟩
  exact .value (stands _) (stands _) (.ttlSeconds (stands _) .nil)

/-- Every call on a key that is not empty can be made over HTTP, if the body of a write fits. -/
theorem makes_requestOf (call : Rpc.Call) (named : ∀ key, call.key? = some key → key ≠ "")
    (fits : (requestOf call).body.length ≤ maxBodyBytes) : Makes (requestOf call) call := by
  cases call with
  | get key => exact .get (namesKey_escapedTarget key) (named key rfl)
  | set key value ttlSeconds =>
    exact .set (namesKey_escapedTarget key) (named key rfl) fits (SetBody.spelled_document _)
  | delete key => exact .delete (namesKey_escapedTarget key) (named key rfl)
  | list => exact .list ⟨[], .none, (List.append_nil _).symm⟩

end Http

end ExpiringStore
