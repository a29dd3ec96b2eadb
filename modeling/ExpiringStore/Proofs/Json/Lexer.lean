import ExpiringStore.Json.Grammar

/-!
# The lexer reads every spelling

A row of spelled tokens is read as those tokens, provided that no number stands right behind
another. Only the byte behind a number ends it, so a number that has been read may still be open.
-/
namespace ExpiringStore

theorem Bytes.IsHex.lt {value : Nat} {b : UInt8} (hex : IsHex value b) : value < 16 := by
  rcases hex with ⟨small, -⟩ | ⟨-, small, -⟩ <;> omega

theorem Bytes.hexValue?_of_isHex {value : Nat} {b : UInt8} (hex : IsHex value b) :
    hexValue? b = some value.toUInt8 := by
  have bound := hex.lt
  have wrapped : value.toUInt8.toNat = value := by
    rw [Nat.toUInt8_eq, UInt8.toNat_ofNat']
    omega
  have taken (offset : UInt8) (sum : b.toNat = offset.toNat + value) :
      b - offset = value.toUInt8 := by
    apply UInt8.toNat_inj.mp
    rw [UInt8.toNat_sub_of_le _ _ (UInt8.le_iff_toNat_le.mpr (by omega)), wrapped]
    omega
  simp only [hexValue?, UInt8.le_iff_toNat_le, Bool.and_eq_true, decide_eq_true_eq,
    UInt8.reduceToNat]
  rcases hex with ⟨small, digit⟩ | ⟨large, -, upper | lower⟩
  · rw [if_pos (by omega), taken 0x30 digit]
  · rw [if_neg (by omega), if_pos (by omega), taken 0x37 upper]
  · rw [if_neg (by omega), if_neg (by omega), if_pos (by omega), taken 0x57 lower]

section

variable {α β : Type} {f : β → α → Option β} {s middle after : β}

theorem foldlM_append {front back : List α} (first : front.foldlM f s = some middle)
    (second : back.foldlM f middle = some after) : (front ++ back).foldlM f s = some after := by
  rw [List.foldlM_append, first]
  exact second

theorem foldlM_cons {a : α} {rest : List α} (first : f s a = some middle)
    (second : rest.foldlM f middle = some after) : (a :: rest).foldlM f s = some after := by
  rw [List.foldlM_cons, first]
  exact second

end

namespace NumberPhase

/-- Digits do not leave a phase that a digit does not leave. -/
theorem foldlM_next_digits {phase : NumberPhase}
    (stays : ∀ d, isDigit d = true → phase.next d = some phase) {digits : Bytes}
    (allDigits : AllDigits digits) : digits.foldlM next phase = some phase := by
  induction digits with
  | nil => rfl
  | cons d rest ih =>
    have digit : isDigit d = true := allDigits d List.mem_cons_self
    have others := ih fun d mem => allDigits d (List.mem_cons_of_mem _ mem)
    exact foldlM_cons (stays d digit) others

theorem whole_next {d : UInt8} (digit : isDigit d = true) : whole.next d = some whole := by
  simp [next, digit]

theorem fraction_next {d : UInt8} (digit : isDigit d = true) : fraction.next d = some fraction := by
  simp [next, digit]

theorem exponent_next {d : UInt8} (digit : isDigit d = true) : exponent.next d = some exponent := by
  simp [next, digit]

theorem foldlM_next_exponent {bytes : Bytes} (parts : Exponent bytes) {phase : NumberPhase}
    (before : phase = .zero ∨ phase = .whole ∨ phase = .fraction) :
    ∃ later, bytes.foldlM next phase = some later ∧ later.complete = true := by
  cases parts with
  | none => exact ⟨phase, rfl, by rcases before with rfl | rfl | rfl <;> rfl⟩
  | @digits mark first sign rest marked signed digit others =>
    have toMark : phase.next mark = some .mark := by
      rcases before with rfl | rfl | rfl <;> rcases marked with rfl | rfl <;> rfl
    have notSign : first ≠ 0x2b ∧ first ≠ 0x2d := by
      constructor <;> rintro rfl <;> cases digit
    have ended : rest.foldlM next NumberPhase.exponent = some .exponent :=
      foldlM_next_digits (fun _ => exponent_next) others
    refine ⟨.exponent, foldlM_cons toMark ?_, rfl⟩
    rcases signed with rfl | rfl | rfl
    · exact foldlM_cons (by simp [next, digit, notSign]) ended
    · exact foldlM_cons rfl (foldlM_cons (by simp [next, digit]) ended)
    · exact foldlM_cons rfl (foldlM_cons (by simp [next, digit]) ended)

theorem foldlM_next_fraction {bytes : Bytes} (parts : Fraction bytes) {phase : NumberPhase}
    (before : phase = .zero ∨ phase = .whole) :
    ∃ later, bytes.foldlM next phase = some later ∧
      (later = .zero ∨ later = .whole ∨ later = .fraction) := by
  cases parts with
  | none => exact ⟨phase, rfl, by rcases before with rfl | rfl <;> simp⟩
  | @digits first rest digit others =>
    have toPoint : phase.next 0x2e = some .point := by rcases before with rfl | rfl <;> rfl
    have started : NumberPhase.point.next first = some .fraction := by
      simp only [next, digit, if_true]
    have ended := foldlM_next_digits (fun _ => fraction_next) others
    exact ⟨.fraction, foldlM_cons toPoint (foldlM_cons started ended), by simp⟩

/-- A number's first byte starts a phase from which the others lead to an end. -/
theorem first_of_isNumber {text : Bytes} (isNumber : IsNumber text) :
    ∃ b rest phase later, text = b :: rest ∧ first b = some phase ∧
      rest.foldlM next phase = some later ∧
      later.complete = true := by
  obtain ⟨signed, wholePart, fractionPart, exponentPart⟩ := isNumber
  rename_i sign whole fraction exponent
  -- The whole part behind a minus sign, or behind its own first digit.
  have wholeRead : ∃ b rest phase later, sign ++ whole = b :: rest ∧ first b = some phase ∧
      rest.foldlM next phase = some later ∧ (later = .zero ∨ later = .whole) := by
    cases wholePart with
    | zero =>
      rcases signed with rfl | rfl
      · exact ⟨0x30, [], .zero, .zero, rfl, rfl, rfl, .inl rfl⟩
      · exact ⟨0x2d, [0x30], .minus, .zero, rfl, rfl, rfl, .inl rfl⟩
    | @digits d rest digit notZero others =>
      have notMinus : d ≠ 0x2d := by
        rintro rfl
        cases digit
      have ended : rest.foldlM next NumberPhase.whole = some .whole :=
        foldlM_next_digits (fun _ => whole_next) others
      rcases signed with rfl | rfl
      · exact ⟨d, rest, .whole, .whole, rfl,
          by simp [first, digit, notZero, notMinus], ended, .inr rfl⟩
      · exact ⟨0x2d, d :: rest, .minus, .whole, rfl, rfl,
          foldlM_cons (by simp [next, digit, notZero]) ended, .inr rfl⟩
  obtain ⟨b, rest, phase, later, split, started, readWhole, atWhole⟩ := wholeRead
  obtain ⟨later, readFraction, atFraction⟩ := foldlM_next_fraction fractionPart atWhole
  obtain ⟨later, readExponent, complete⟩ := foldlM_next_exponent exponentPart atFraction
  refine ⟨b, rest ++ (fraction ++ exponent), phase, later, ?_, started, ?_, complete⟩
  · rw [← List.append_assoc, split, List.cons_append]
  · exact foldlM_append readWhole (foldlM_append readFraction readExponent)

/-- A byte that goes on with no number that is complete. -/
def EndsNumber (b : UInt8) : Prop :=
  isDigit b = false ∧ b ≠ 0x2e ∧ b ≠ 0x65 ∧ b ≠ 0x45

instance (b : UInt8) : Decidable (EndsNumber b) := inferInstanceAs (Decidable (_ ∧ _))

theorem EndsNumber.next_eq_none {b : UInt8} (ends : EndsNumber b) {phase : NumberPhase}
    (complete : phase.complete = true) : phase.next b = none := by
  obtain ⟨notDigit, notPoint, notLower, notUpper⟩ := ends
  cases phase with
  | zero | whole | fraction | exponent =>
    simp [next, afterWhole, notDigit, notPoint, notLower, notUpper]
  | _ => cases complete

end NumberPhase

namespace Scan

variable {before tokens : List Token}

theorem step_piece {piece : Piece} {text : Bytes} (spelled : piece.Spelled text)
    (pieces : List Piece) :
    text.foldlM step ⟨.string pieces, tokens⟩ = some ⟨.string (piece :: pieces), tokens⟩ := by
  cases spelled with
  | @raw b printable notQuote notEscape =>
    have notControl : ¬ b < 0x20 := by
      rw [UInt8.lt_iff_toNat_lt]
      exact Nat.not_lt.mpr printable
    simp [step, notControl, notQuote, notEscape]
  | @letter b u listed =>
    have entered : step ⟨.string pieces, tokens⟩ 0x5c = some ⟨.escape pieces, tokens⟩ := rfl
    apply foldlM_cons entered
    simp only [Piece.escapeLetters, List.mem_cons, Prod.mk.injEq, List.not_mem_nil,
      or_false] at listed
    rcases listed with ⟨rfl, rfl⟩ | ⟨rfl, rfl⟩ | ⟨rfl, rfl⟩ | ⟨rfl, rfl⟩ | ⟨rfl, rfl⟩ | ⟨rfl, rfl⟩ |
      ⟨rfl, rfl⟩ | ⟨rfl, rfl⟩ <;> rfl
  | @digits b₁ b₂ b₃ b₄ n₁ n₂ n₃ n₄ u first second third fourth value =>
    have sum : 16 * (16 * (16 * (16 * 0 + n₁.toUInt8.toUInt16) + n₂.toUInt8.toUInt16) +
        n₃.toUInt8.toUInt16) + n₄.toUInt8.toUInt16 = u := by
      have bounds := And.intro first.lt (And.intro second.lt (And.intro third.lt fourth.lt))
      apply UInt16.toNat_inj.mp
      simp
      omega
    simp only [List.foldlM_cons, List.foldlM_nil, step, Bytes.hexValue?_of_isHex first,
      Bytes.hexValue?_of_isHex second, Bytes.hexValue?_of_isHex third,
      Bytes.hexValue?_of_isHex fourth]
    exact congrArg (fun u => some (Scan.mk (.string (.unit u :: pieces)) tokens)) sum

theorem step_pieces {pieces : List Piece} {bytes : Bytes} (row : Piece.Row pieces bytes)
    (earlier : List Piece) :
    bytes.foldlM step ⟨.string earlier, tokens⟩ =
      some ⟨.string (pieces.reverse ++ earlier), tokens⟩ := by
  induction row generalizing earlier with
  | nil => rfl
  | @cons piece rest text bytes spelled others ih =>
    rw [List.reverse_cons, List.append_assoc]
    exact foldlM_append (step_piece spelled earlier) (ih (piece :: earlier))

theorem step_number {phase later : NumberPhase} {rest : Bytes}
    (reads : rest.foldlM NumberPhase.next phase = some later) (text : Bytes) :
    rest.foldlM step ⟨.number phase text, tokens⟩ =
      some ⟨.number later (rest.reverse ++ text), tokens⟩ := by
  induction rest generalizing phase text with
  | nil =>
    obtain rfl : phase = later := Option.some.inj reads
    rfl
  | cons b rest ih =>
    rw [List.foldlM_cons] at reads
    obtain ⟨middle, stepped, reads⟩ := Option.bind_eq_some_iff.mp reads
    have one : step ⟨.number phase text, tokens⟩ b = some ⟨.number middle (b :: text), tokens⟩ := by
      simp only [step, stepped]
    rw [List.reverse_cons, List.append_assoc]
    exact foldlM_cons one (ih reads (b :: text))

theorem begin_number {b : UInt8} {phase : NumberPhase} (first : NumberPhase.first b = some phase) :
    begin tokens b = some ⟨.number phase [b], tokens⟩ := by
  have notBlank : isBlank b = false := by
    rw [Bool.eq_false_iff]
    intro blank
    simp only [isBlank, Bool.or_eq_true, beq_iff_eq] at blank
    rcases blank with ((rfl | rfl) | rfl) | rfl <;> cases first
  unfold begin
  rw [notBlank, if_neg Bool.false_ne_true]
  split
  case h_11 => rw [first, Option.map_some]
  all_goals cases first

/-- What a scan has read, the last token first, if a number at its end is taken to be finished. -/
inductive HasRead : List Token → Scan → Prop
  | between (tokens : List Token) : HasRead tokens ⟨.between, tokens⟩
  | number {phase : NumberPhase} (complete : phase.complete = true) (text : Bytes)
    (tokens : List Token) : HasRead (.number text.reverse :: tokens) ⟨.number phase text, tokens⟩

theorem HasRead.finish {s : Scan} (read : HasRead before s) : s.finish = some before.reverse := by
  cases read with
  | between => rfl
  | number complete text tokens => exact if_pos complete

/-- A byte that ends a number finishes one that is open. -/
theorem HasRead.step {s : Scan} (read : HasRead before s) {b : UInt8}
    (ends : NumberPhase.EndsNumber b) :
    s.step b = begin before b := by
  cases read with
  | between => rfl
  | number complete text tokens =>
    simp only [Scan.step, ends.next_eq_none complete, complete, if_true]

theorem step_token {token : Token} {text : Bytes} (spelled : token.Spelled text)
    (before : List Token) :
    ∃ after, text.foldlM Scan.step ⟨.between, before⟩ = some after ∧
      HasRead (token :: before) after := by
  cases spelled with
  | number isNumber =>
    obtain ⟨b, rest, phase, later, rfl, started, reads, complete⟩ :=
      NumberPhase.first_of_isNumber isNumber
    have read := HasRead.number complete (rest.reverse ++ [b]) before
    rw [List.reverse_append, List.reverse_reverse] at read
    exact ⟨_, foldlM_cons (begin_number started) (step_number reads [b]), read⟩
  | @string pieces bytes row =>
    have opened : Scan.step ⟨.between, before⟩ 0x22 = some ⟨.string [], before⟩ := rfl
    have closed : Scan.step ⟨.string (pieces.reverse ++ []), before⟩ 0x22 =
        some ⟨.between, .string ⟨pieces⟩ :: before⟩ := by simp [Scan.step]
    have inside := @step_pieces before pieces bytes row []
    exact ⟨_, foldlM_cons opened (foldlM_append inside (foldlM_cons closed rfl)), .between _⟩
  | _ => exact ⟨_, rfl, .between _⟩

end Scan

namespace Token

def isNumber : Token → Bool
  | .number _ => true
  | _ => false

/-- No number stands right behind another, nor at the start if one stands before it. -/
def Apart : Bool → List Token → Prop
  | _, [] => True
  | afterNumber, token :: rest => ¬(afterNumber = true ∧ token.isNumber = true) ∧
    Apart token.isNumber rest

theorem Apart.mono {tokens : List Token} (apart : Apart true tokens) : Apart false tokens := by
  cases tokens with
  | nil => trivial
  | cons token rest => exact ⟨nofun, apart.2⟩

/-- Any token but a number starts with a byte that ends one. -/
theorem Spelled.head_endsNumber {token : Token} {text : Bytes} (spelled : token.Spelled text)
    (other : token.isNumber = false) : ∃ b rest, text = b :: rest ∧ NumberPhase.EndsNumber b := by
  cases spelled with
  | number => cases other
  | string row => exact ⟨0x22, _, rfl, by decide⟩
  | _ => exact ⟨_, _, rfl, by decide⟩

theorem scan_row {tokens : List Token} {bytes : Bytes} (row : Row tokens bytes)
    {before : List Token} {s : Scan} (read : Scan.HasRead before s)
    (apart : Apart (before.head?.any isNumber) tokens) :
    ∃ after, bytes.foldlM Scan.step s = some after ∧
      Scan.HasRead (tokens.reverse ++ before) after := by
  induction row generalizing before s with
  | nil => exact ⟨s, rfl, read⟩
  | @blank b tokens bytes blank others ih =>
    have ends : NumberPhase.EndsNumber b := by
      simp only [Scan.isBlank, Bool.or_eq_true, beq_iff_eq] at blank
      rcases blank with ((rfl | rfl) | rfl) | rfl <;> decide
    have skipped : s.step b = some ⟨.between, before⟩ := by
      rw [read.step ends]
      exact if_pos blank
    obtain ⟨after, reads, hasRead⟩ := ih (.between before) apart
    exact ⟨after, foldlM_cons skipped reads, hasRead⟩
  | @cons token rest text bytes spelled others ih =>
    -- What is open is finished by the first byte of the token, which then
    -- begins between two tokens.
    have settled : text.foldlM Scan.step s = text.foldlM Scan.step ⟨.between, before⟩ := by
      cases read with
      | between => rfl
      | number complete open_ earlier =>
        have other : token.isNumber = false := by
          rw [Bool.eq_false_iff]
          exact fun number => apart.1 ⟨rfl, number⟩
        obtain ⟨b, rest, rfl, ends⟩ := spelled.head_endsNumber other
        have same := (Scan.HasRead.number complete open_ earlier).step ends
        rw [List.foldlM_cons, List.foldlM_cons, same]
        rfl
    obtain ⟨middle, readsToken, hasToken⟩ := Scan.step_token spelled before
    obtain ⟨after, readsRest, hasRead⟩ := ih hasToken apart.2
    refine ⟨after, foldlM_append (settled.trans readsToken) readsRest, ?_⟩
    rw [List.reverse_cons, List.append_assoc]
    exact hasRead

/-- The lexer reads the tokens of a row in which numbers are kept apart. -/
theorem scan_of_row {tokens : List Token} {bytes : Bytes} (row : Row tokens bytes)
    (apart : Apart false tokens) : scan bytes = some tokens := by
  obtain ⟨after, reads, hasRead⟩ := scan_row row (.between []) apart
  rw [scan, reads, Option.bind_some, hasRead.finish, List.append_nil, List.reverse_reverse]

end Token

end ExpiringStore
