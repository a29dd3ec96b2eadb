import ExpiringStore.Proofs.Http.Keys
import ExpiringStore.Proofs.Json.Trailing

/-!
# A write depends on what its body means

Of a write's body only the two members count that it knows, in whatever order and spelling.
Where one of them has no meaning, or has two, or something follows the object, the write is
refused and nothing is stored.
-/
namespace ExpiringStore

section

variable {α β : Type} {f : β → α → Option β} {holds : β → Prop}

/-- A row is refused if some step in it is refused from then on. -/
theorem foldlM_eq_none_of_mem (kept : ∀ s a after, holds s → f s a = some after → holds after)
    {a : α} (refused : ∀ s, holds s → f s a = none) {row : List α} (mem : a ∈ row) {s : β}
    (now : holds s) :
    row.foldlM f s = none := by
  induction row generalizing s with
  | nil => cases mem
  | cons b rest ih =>
    rw [List.foldlM_cons]
    rcases List.mem_cons.mp mem with rfl | later
    · rw [refused s now]
      rfl
    · cases stepped : f s b with
      | none => rfl
      | some after => exact ih later (kept s b after now stepped)

/-- A row is refused if one step in it rules out a later one. -/
theorem foldlM_eq_none_of_twice (kept : ∀ s a after, holds s → f s a = some after → holds after)
    {a b : α} (taken : ∀ s after, f s a = some after → holds after)
    (refused : ∀ s, holds s → f s b = none) (front middle back : List α) (s : β) :
    (front ++ a :: (middle ++ b :: back)).foldlM f s = none := by
  rw [List.foldlM_append]
  cases front.foldlM f s with
  | none => rfl
  | some before =>
    rw [Option.bind_eq_bind, Option.bind_some, List.foldlM_cons]
    cases stepped : f before a with
    | none => rfl
    | some after =>
      exact foldlM_eq_none_of_mem kept refused (List.mem_append_right middle List.mem_cons_self)
        (taken before after stepped)

end

namespace Http

namespace SetBody

/-- Members carry the write of what they give, with the zero value for what is left out. -/
theorem Members.carries {seen : SeenMembers} {members : List (Literal × Json)} {body : Bytes}
    (given : Members seen members) (spelled : (Json.object members).Spelled body) :
    SetBody.Spelled ⟨seen.value.getD "", seen.ttlSeconds.getD 0⟩ body :=
  ⟨seen, members, given, spelled, rfl, rfl⟩

/-! ## Members without a meaning -/

theorem value_of_addMember {name : Literal} (named : name.StandsFor "value")
    {seen after : SeenMembers} {document : Json}
    (added : addMember seen (name, document) = some after) : after.value.isSome := by
  rw [addMember_value named] at added
  split at added
  · cases added
  · obtain ⟨value, -, rfl⟩ := Option.map_eq_some_iff.mp added
    rfl

theorem ttlSeconds_of_addMember {name : Literal} (named : name.StandsFor "ttl_seconds")
    {seen after : SeenMembers} {document : Json}
    (added : addMember seen (name, document) = some after) :
    after.ttlSeconds.isSome := by
  rw [addMember_ttlSeconds named] at added
  split at added
  · cases added
  · obtain ⟨seconds, -, rfl⟩ := Option.map_eq_some_iff.mp added
    rfl

/-- What has been seen stays seen. -/
theorem addMember_keeps {seen after : SeenMembers} {member : Literal × Json}
    (added : addMember seen member = some after) :
    (seen.value.isSome → after.value.isSome) ∧
      (seen.ttlSeconds.isSome → after.ttlSeconds.isSome) := by
  unfold addMember at added
  split at added
  · cases added
  · split at added
    · cases added
    · obtain ⟨value, -, rfl⟩ := Option.map_eq_some_iff.mp added
      exact ⟨fun _ => rfl, id⟩
  · split at added
    · cases added
    · obtain ⟨seconds, -, rfl⟩ := Option.map_eq_some_iff.mp added
      exact ⟨id, fun _ => rfl⟩
  · obtain rfl := Option.some.inj added
    exact ⟨id, id⟩

/-- Only the digits of a whole number in range are an integer of 64 bits. -/
theorem int64OfText?_of_notInt64 {text : Bytes} (notInt64 : NotInt64 text) :
    int64OfText? text = none := by
  have refuse {text : Bytes}
      (failed : ∃ failure, readInt64 (text.map fun b => Char.ofNat b.toNat) = .error failure) :
      int64OfText? text = none := by
    obtain ⟨failure, failed⟩ := failed
    rw [int64OfText?, failed]
    exact ite_self none
  cases notInt64 with
  | minusZero => rfl
  | @outside n outside =>
    apply refuse
    rw [@Bytes.map_ofString (toString n) fun _ => ascii_of_mem_toString]
    have low : Int64.minValue.toInt = -9223372036854775808 := by decide
    have high : Int64.maxValue.toInt = 9223372036854775807 := by decide
    exact readInt64_toString_of_outside (by omega)
  | @fractional sign whole fraction exponent signed wholePart fractionPart exponentPart some =>
    -- A point or a mark is neither a digit nor a sign.
    have marked : ∃ b ∈ fraction ++ exponent, b = 0x2e ∨ b = 0x65 ∨ b = 0x45 := by
      cases fractionPart with
      | digits => exact ⟨0x2e, List.mem_cons_self, .inl rfl⟩
      | none =>
        cases exponentPart with
        | none => simp at some
        | @digits mark first sign rest marked => exact ⟨mark, List.mem_cons_self, .inr marked⟩
    obtain ⟨b, mem, kind⟩ := marked
    have inside : b ∈ sign ++ (whole ++ (fraction ++ exponent)) :=
      List.mem_append_right _ (List.mem_append_right _ mem)
    have notDigit : digitValue? 10 (Char.ofNat b.toNat) = none := by
      rcases kind with rfl | rfl | rfl <;> decide
    have notSign : Char.ofNat b.toNat ≠ '+' ∧ Char.ofNat b.toNat ≠ '-' := by
      rcases kind with rfl | rfl | rfl <;> decide
    exact refuse (readSigned_of_mem notDigit notSign (List.mem_map_of_mem inside))

/-- Members that are faulty make no write. -/
theorem ofJson?_of_faulty {members : List (Literal × Json)} (faulty : Faulty members) :
    ofJson? (.object members) = none := by
  have refuse (refused : members.foldlM addMember ⟨none, none⟩ = none) :
      ofJson? (.object members) = none := by
    rw [ofJson?, refused, Option.map_none]
  have never {member : Literal × Json} (mem : member ∈ members)
      (refused : ∀ seen, addMember seen member = none) : ofJson? (.object members) = none :=
    refuse (@foldlM_eq_none_of_mem _ _ addMember (fun _ => True) (fun _ _ _ _ _ => trivial) member
      (fun seen _ => refused seen) members mem _ trivial)
  cases faulty with
  | @notString name document _ member named notString =>
    have unread : string? document = none := by
      cases document with
      | string content => exact absurd rfl (notString content)
      | _ => rfl
    exact never member fun seen => by rw [addMember_value named, unread, Option.map_none, ite_self]
  | @notNumber name document _ member named notNumber =>
    have unread : int64? document = none := by
      cases document with
      | number text => exact absurd rfl (notNumber text)
      | _ => rfl
    exact never member fun seen => by
      rw [addMember_ttlSeconds named, unread, Option.map_none, ite_self]
  | @notInteger name text _ member named notInteger =>
    have unread : int64? (.number text) = none := int64OfText?_of_notInt64 notInteger
    exact never member fun seen => by
      rw [addMember_ttlSeconds named, unread, Option.map_none, ite_self]
  | @twice text first second document other front middle back known named namedAgain =>
    apply refuse
    rcases known with rfl | rfl
    · exact @foldlM_eq_none_of_twice _ _ addMember (·.value.isSome)
        (fun _ _ _ seen added => (addMember_keeps added).1 seen) _ _
        (fun _ _ added => value_of_addMember named added)
        (fun seen has => by rw [addMember_value namedAgain, if_pos has]) front middle back _
    · exact @foldlM_eq_none_of_twice _ _ addMember (·.ttlSeconds.isSome)
        (fun _ _ _ seen added => (addMember_keeps added).2 seen) _ _
        (fun _ _ added => ttlSeconds_of_addMember named added)
        (fun seen has => by rw [addMember_ttlSeconds namedAgain, if_pos has]) front middle back _

theorem parse?_of_faulty {members : List (Literal × Json)} {body : Bytes} (faulty : Faulty members)
    (spelled : (Json.object members).Spelled body) : parse? body = none := by
  rw [parse?, Json.parse?_of_spelled spelled, Option.bind_some, ofJson?_of_faulty faulty]

theorem parse?_of_trailing {members : List (Literal × Json)} {text rest : Bytes}
    (spelled : (Json.object members).Spelled text) (notBlank : ∃ b ∈ rest, Scan.isBlank b = false) :
    parse? (text ++ rest) = none := by
  rw [parse?, Json.parse?_append_of_object spelled notBlank, Option.bind_none]

end SetBody

/-! ## Writes -/

/-- A write whose body is read as none is refused. -/
theorem setKey_of_none {key : String} {body : Bytes} (admissible : checkKey key = .ok ())
    (unread : SetBody.parse? body = none) (store : Store) (now : Instant) :
    setKey store now key body =
      (store, .json 400 (.single "error" (.ofString "invalid JSON")), []) := by
  simp only [setKey, admissible, unread]
  rfl

theorem handle_put_of_fits {target key : String} (names : NamesKey target key) (named : key ≠ "")
    {body : Bytes} (fits : body.length ≤ maxBodyBytes) (store : Store) (now : Instant)
    (headers : List (String × String)) :
    handle store now ⟨.put, target, headers, body⟩ = setKey store now key body := by
  rw [handle_of_namesKey names named, handleKey, if_neg (Nat.not_lt.mpr fits)]

/-- Members that mean a value and a number of seconds make the remote write of these, with nothing
and zero for what is left out, in every spelling of every order of them; two texts that mean the
same do the same. A body with faulty members, or with anything but blanks behind its object, is
answered as no JSON that can be used, and leaves the store as it was. -/
theorem write_depends_on_meaning {key target : String} (filled : 0 < key.utf8ByteSize)
    (keyFits : key.utf8ByteSize ≤ maxKeyBytes) (names : NamesKey target key) (store : Store)
    (now : Instant) (headers : List (String × String)) :
    let put := fun body => handle store now ⟨.put, target, headers, body⟩
    let refused : Outcome := (store, .json 400 (.single "error" (.ofString "invalid JSON")), [])
    (∀ seen members body, SetBody.Members seen members → (Json.object members).Spelled body →
      body.length ≤ maxBodyBytes →
      Matches (put body)
        (Rpc.handle store now (.set key (seen.value.getD "") (seen.ttlSeconds.getD 0)))) ∧
    (∀ write body other, SetBody.Spelled write body → SetBody.Spelled write other →
      body.length ≤ maxBodyBytes → other.length ≤ maxBodyBytes → put body = put other) ∧
    (∀ members body, SetBody.Faulty members → (Json.object members).Spelled body →
      body.length ≤ maxBodyBytes → put body = refused) ∧
    (∀ members text rest, (Json.object members).Spelled text →
      (∃ b ∈ rest, Scan.isBlank b = false) →
      (text ++ rest).length ≤ maxBodyBytes → put (text ++ rest) = refused) := by
  intro put refused
  have named := ne_empty_of_filled filled
  have admissible := checkKey_of_admissible filled keyFits
  have handled {body : Bytes} (fits : body.length ≤ maxBodyBytes) :
      put body = setKey store now key body :=
    handle_put_of_fits names named fits store now headers
  refine ⟨?_, ?_, ?_, ?_⟩
  · intro seen members body given spelled fits
    exact (Makes.set names named fits (given.carries spelled)).matches store now
  · intro write body other carries carriesToo fits fitsToo
    have done := handle_put names filled carries headers store now
    have doneToo := handle_put names filled carriesToo headers store now
    rw [if_pos fits] at done
    rw [if_pos fitsToo] at doneToo
    exact done.trans doneToo.symm
  · intro members body faulty spelled fits
    rw [handled fits]
    exact setKey_of_none admissible (SetBody.parse?_of_faulty faulty spelled) store now
  · intro members text rest spelled notBlank fits
    rw [handled fits]
    exact setKey_of_none admissible (SetBody.parse?_of_trailing spelled notBlank) store now

/-- A member that a write does not know, and a value whose name and content are escaped, the content
as a pair of surrogates. -/
def escapedMembers : List (Literal × Json) :=
  [(Literal.ofString "other", .array [.null, .object [(Literal.ofString "value", .bool true)]]),
    (⟨.unit 0x76 :: (Literal.ofString "alue").pieces⟩, .string ⟨[.unit 0xd83d, .unit 0xde00]⟩)]

theorem standsFor_escaped :
    Literal.StandsFor ⟨.unit 0x76 :: (Literal.ofString "alue").pieces⟩ "value" :=
  .unit (by decide) (Literal.standsFor_ofString "alue")

theorem members_escaped : SetBody.Members ⟨some "😀", none⟩ escapedMembers := by
  have content : Literal.StandsFor ⟨[.unit 0xd83d, .unit 0xde00]⟩ "😀" :=
    .pair (by decide) (by decide) (by decide) .nil
  exact .other (Literal.standsFor_ofString "other") (by decide) (by decide)
    (.value standsFor_escaped content .nil)

theorem wellFormed_escaped {others : List (Literal × Json)}
    (wellFormed : Json.WellFormedMembers others) :
    (Json.object (escapedMembers ++ others)).WellFormed := by
  have names := Literal.wellFormed_ofString
  have name : Literal.WellFormed ⟨.unit 0x76 :: (Literal.ofString "alue").pieces⟩ := by
    intro piece mem
    rcases List.mem_cons.mp mem with rfl | plain
    · trivial
    · exact names "alue" piece plain
  have content : Literal.WellFormed ⟨[.unit 0xd83d, .unit 0xde00]⟩ := by
    intro piece mem
    rcases List.mem_cons.mp mem with rfl | second
    · trivial
    · obtain rfl := List.mem_singleton.mp second
      trivial
  exact ⟨names _, ⟨trivial, ⟨names _, trivial, trivial⟩, trivial⟩, name, content, wellFormed⟩

theorem write_depends_on_meaning_escaped :
    let store := (Store.create .standard ⟨0, 0⟩).1
    let put := fun body => handle store ⟨0, 0⟩ ⟨.put, escapedTarget "k", [], body⟩
    let refused : Outcome := (store, .json 400 (.single "error" (.ofString "invalid JSON")), [])
    let again := [(Literal.ofString "value", Json.ofString "v")]
    Matches (put (Json.object escapedMembers).render) (Rpc.handle store ⟨0, 0⟩ (.set "k" "😀" 0)) ∧
      put (Json.object escapedMembers).render = put (SetBody.document ⟨"😀", 0⟩).render ∧
      put (Json.object (escapedMembers ++ again)).render = refused ∧
      put ((Json.object escapedMembers).render ++ [0x20, 0x7d]) = refused := by
  intro store put refused again
  have spelled : (Json.object escapedMembers).Spelled (Json.object escapedMembers).render :=
    Json.spelled_render _ (@wellFormed_escaped [] trivial)
  have spelledAgain := Json.spelled_render (.object (escapedMembers ++ again))
    (wellFormed_escaped ⟨Literal.wellFormed_ofString _, Literal.wellFormed_ofString _, trivial⟩)
  have twice : SetBody.Faulty (escapedMembers ++ again) :=
    @SetBody.Faulty.twice "value" _ _ _ _ [_] [] [] (.inl rfl) standsFor_escaped
      (Literal.standsFor_ofString "value")
  obtain ⟨called, same, faulty, trailing⟩ := write_depends_on_meaning (by decide) (by decide)
    (namesKey_escapedTarget "k") store ⟨0, 0⟩ []
  refine ⟨?_, ?_, ?_, ?_⟩
  · exact called _ _ _ members_escaped spelled (by decide)
  · exact same ⟨"😀", 0⟩ _ _ (members_escaped.carries spelled) (SetBody.spelled_document _)
      (by decide) (by decide)
  · exact faulty _ _ twice spelledAgain (by decide)
  · exact trailing _ _ _ spelled ⟨0x7d, by decide, by decide⟩ (by decide)

end Http

end ExpiringStore
