import ExpiringStore.Http.Spelling
import ExpiringStore.Proofs.Json.Literal
import ExpiringStore.Proofs.Json.Reader

/-!
# Requests are read as they are meant

Every spelling of a key leads to that key, and every body that carries a
write is read as that write.
-/
namespace ExpiringStore

namespace Percent

theorem IsPlain.ordinary {b : UInt8} (plain : IsPlain b) :
    b ≠ 0x25 ∧ b ≠ 0x2f ∧ b ≠ 0x3f ∧ b ≠ 0x23 := by
  refine ⟨?_, ?_, ?_, ?_⟩ <;> rintro rfl <;> simp [IsPlain] at plain

theorem ordinary_of_isHex {value : Nat} {b : UInt8} (hex : Bytes.IsHex value b) :
    b ≠ 0x25 ∧ b ≠ 0x2f ∧ b ≠ 0x3f ∧ b ≠ 0x23 := by
  refine ⟨?_, ?_, ?_, ?_⟩ <;> rintro rfl <;> simp [Bytes.IsHex] at hex <;> omega

theorem decodeOnto_cons_of_ne {b : UInt8} (ordinary : b ≠ 0x25) (acc rest : Bytes) :
    decodeOnto acc (b :: rest) = decodeOnto (b :: acc) rest := by
  rw [decodeOnto]
  rintro high low others rfl
  exact fun _ => absurd rfl ordinary

theorem decodeOnto_of_spelled {bytes text : Bytes} (spelled : Spelled bytes text) (acc : Bytes) :
    decodeOnto acc text = acc.reverse ++ bytes := by
  induction spelled generalizing acc with
  | nil => simp [decodeOnto]
  | @plain b rest text plain _ ih =>
    rw [decodeOnto_cons_of_ne plain.ordinary.1, ih, List.reverse_cons, List.append_assoc]
    rfl
  | @escape b high low h l rest text first second value _ ih =>
    have sum : 16 * h.toUInt8 + l.toUInt8 = b := by
      have bounds := And.intro first.lt second.lt
      apply UInt8.toNat_inj.mp
      simp
      omega
    rw [decodeOnto, Bytes.hexValue?_of_isHex first, Bytes.hexValue?_of_isHex second]
    simp only [sum, ih, List.reverse_cons, List.append_assoc]
    rfl

theorem decode_of_spelled {bytes text : Bytes} (spelled : Spelled bytes text) :
    decode text = bytes :=
  decodeOnto_of_spelled spelled []

/-- A spelling holds no byte that ends a segment. -/
theorem Spelled.ordinary {bytes text : Bytes} (spelled : Spelled bytes text) :
    ∀ b ∈ text, b ≠ 0x2f ∧ b ≠ 0x3f ∧ b ≠ 0x23 := by
  induction spelled with
  | nil => nofun
  | @plain b rest text plain _ ih =>
    intro c mem
    rcases List.mem_cons.mp mem with rfl | inside
    · exact plain.ordinary.2
    · exact ih c inside
  | @escape b high low h l rest text first second _ _ ih =>
    intro c mem
    simp only [List.mem_cons] at mem
    rcases mem with rfl | rfl | rfl | inside
    · decide
    · exact (ordinary_of_isHex first).2
    · exact (ordinary_of_isHex second).2
    · exact ih c inside

theorem Spelled.ne_nil {bytes text : Bytes} (spelled : Spelled bytes text) (some : bytes ≠ []) :
    text ≠ [] := by
  cases spelled with
  | nil => exact absurd rfl some
  | plain | escape => nofun

end Percent

namespace Http

/-- A query ends a path that holds none of the bytes that end one. -/
theorem untilQuery_append {path query : Bytes} (ordinary : ∀ b ∈ path, b ≠ 0x3f ∧ b ≠ 0x23)
    (isQuery : IsQuery query) : untilQuery (path ++ query) = path := by
  have kept : ∀ b ∈ path, (b != 0x3f && b != 0x23) = true := by
    intro b mem
    simp [ordinary b mem]
  rw [untilQuery, List.takeWhile_append_of_pos kept]
  cases isQuery with
  | none => simp
  | some rest => simp

theorem ofTarget_of_namesKeys {target : String} (names : NamesKeys target) :
    Route.ofTarget target = .keys := by
  obtain ⟨query, isQuery, written⟩ := names
  have path : Bytes.ofString "/keys" = [0x2f, 0x6b, 0x65, 0x79, 0x73] := by decide
  have cut := @untilQuery_append (Bytes.ofString "/keys") query (by simp [path]) isQuery
  rw [path] at written cut
  rw [Route.ofTarget, written]
  exact congrArg Route.ofPath cut

theorem ofTarget_of_namesKey {target key : String} (names : NamesKey target key)
    (named : key ≠ "") :
    ∃ segment, Route.ofTarget target = .key segment ∧ keyOfSegment? segment = some key := by
  obtain ⟨text, query, spelled, isQuery, written⟩ := names
  have path : Bytes.ofString "/keys/" = [0x2f, 0x6b, 0x65, 0x79, 0x73, 0x2f] := by decide
  have bytes : Bytes.ofString key ≠ [] := fun none =>
    named (Bytes.ofString_injective (none.trans (by decide : [] = Bytes.ofString "")))
  have ordinary : ∀ b ∈ Bytes.ofString "/keys/" ++ text, b ≠ 0x3f ∧ b ≠ 0x23 := by
    intro b mem
    have fixed : ∀ b ∈ Bytes.ofString "/keys/", b ≠ 0x3f ∧ b ≠ 0x23 := by simp [path]
    rcases List.mem_append.mp mem with front | inside
    · exact fixed b front
    · exact (spelled.ordinary b inside).2
  have cut := untilQuery_append ordinary isQuery
  have noSlash : text.contains 0x2f = false := by
    rw [Bool.eq_false_iff]
    intro slash
    exact (spelled.ordinary 0x2f (List.contains_iff_mem.mp slash)).1 rfl
  have filled : text.isEmpty = false := List.isEmpty_eq_false_iff.mpr (spelled.ne_nil bytes)
  have oneSegment : (text.isEmpty || text.contains 0x2f) = false := by
    rw [filled, noSlash, Bool.or_false]
  refine ⟨text, ?_, ?_⟩
  · rw [List.append_assoc, path] at cut
    rw [Route.ofTarget, written, path]
    refine (congrArg Route.ofPath cut).trans ?_
    exact if_neg (Bool.eq_false_iff.mp oneSegment)
  · rw [keyOfSegment?, Percent.decode_of_spelled spelled, Bytes.toString?_ofString]

namespace SetBody

/-- A whole number's decimal digits are read as the number. -/
theorem int64OfText?_toString (n : Int64) :
    int64OfText? (Bytes.ofString (toString n.toInt)) = some n := by
  have chars := @Bytes.map_ofString (toString n.toInt) fun _ => ascii_of_mem_toString
  have notMinusZero : Bytes.ofString (toString n.toInt) ≠ [0x2d, 0x30] := by
    intro same
    rw [same] at chars
    exact toString_ne_minusZero n.toInt chars.symm
  rw [int64OfText?, beq_false_of_ne notMinusZero, if_neg Bool.false_ne_true, chars,
    readInt64_toString n.le_toInt n.toInt_lt]
  exact congrArg some (Int64.ofInt_toInt n)

theorem addMember_value {name : Literal} (named : name.StandsFor "value") (seen : SeenMembers)
    (document : Json) :
    addMember seen (name, document) =
      if seen.value.isSome then none else (string? document).map fun v =>
        { seen with value := some v } := by
  simp only [addMember, Literal.text?_of_standsFor named]

theorem addMember_ttlSeconds {name : Literal} (named : name.StandsFor "ttl_seconds")
    (seen : SeenMembers) (document : Json) :
    addMember seen (name, document) =
      if seen.ttlSeconds.isSome then none
      else (int64? document).map fun n => { seen with ttlSeconds := some n } := by
  simp only [addMember, Literal.text?_of_standsFor named]

/-- Members are taken into account in any order, next to those that have been seen. -/
theorem foldlM_addMember {found : SeenMembers} {members : List (Literal × Json)}
    (given : Members found members) (seen : SeenMembers)
    (value : seen.value = none ∨ found.value = none)
    (ttlSeconds : seen.ttlSeconds = none ∨ found.ttlSeconds = none) :
    members.foldlM addMember seen =
      some ⟨found.value.or seen.value, found.ttlSeconds.or seen.ttlSeconds⟩ := by
  induction given generalizing seen with
  | nil => rfl
  | @value name content text seconds rest named stands others ih =>
    have unseen : seen.value = none := value.resolve_right nofun
    have added : addMember seen (name, .string content) =
        some { seen with value := some text } := by
      simp [addMember_value named, unseen, string?, Literal.text?_of_standsFor stands]
    rw [List.foldlM_cons, added]
    exact ih { seen with value := some text } (.inr rfl) ttlSeconds
  | @ttlSeconds name given seconds rest named others ih =>
    have unseen : seen.ttlSeconds = none := ttlSeconds.resolve_right nofun
    have added : addMember seen (name, .number (Bytes.ofString (toString seconds.toInt))) =
        some { seen with ttlSeconds := some seconds } := by
      simp only [addMember_ttlSeconds named, unseen, int64?, int64OfText?_toString,
        Option.isSome_none, Bool.false_eq_true, if_false, Option.map_some]
    rw [List.foldlM_cons, added]
    exact ih { seen with ttlSeconds := some seconds } value (.inr rfl)
  | @other name document text found rest named notValue notSeconds others ih =>
    have skipped : addMember seen (name, document) = some seen := by
      simp [addMember, Literal.text?_of_standsFor named]
    rw [List.foldlM_cons, skipped]
    exact ih seen value ttlSeconds

/-- A body that carries a write is read as that write. -/
theorem parse?_of_spelled {write : SetBody} {body : Bytes} (carries : write.Spelled body) :
    parse? body = some write := by
  obtain ⟨seen, members, given, spelled, value, ttlSeconds⟩ := carries
  rw [parse?, Json.parse?_of_spelled spelled, Option.bind_some, ofJson?,
    foldlM_addMember given ⟨none, none⟩ (.inl rfl) (.inl rfl), Option.map_some, Option.or_none,
    Option.or_none, value, ttlSeconds]

end SetBody

end Http

end ExpiringStore
