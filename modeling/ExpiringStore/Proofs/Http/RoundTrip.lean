import ExpiringStore.Proofs.Http.Keys
import ExpiringStore.Proofs.Persistence

/-!
# What has been read can be written back

The document that tells a value is a document that carries a write of it, which never
expires. So a value is copied from key to key by sending what has been received, and the copy
is told in the same bytes.
-/
namespace ExpiringStore.Http

/-- The document that tells a value carries a write of it, without a time to live. -/
theorem SetBody.spelled_value (value : String) :
    SetBody.Spelled ⟨value, 0⟩ (Json.single "value" (.ofString value)).render := by
  have told :=
    Json.spelled_render _ (@Json.wellFormed_single "value" _ (Json.wellFormed_ofString value))
  exact ⟨⟨some value, none⟩, _, .value (Literal.standsFor_ofString "value")
    (Literal.standsFor_ofString value) .nil, told, rfl, rfl⟩

theorem getKey_eq_of_refused {key : String} {refusal : Refusal}
    (refused : checkKey key = .error refusal) (store : Store) (now : Instant) :
    getKey store now key = refuse store (ApiError.ofRefusal refusal).response := by
  simp only [getKey, refused]

/-- A body that tells a value is a write of it for ever. -/
theorem setKey_value {key value : String} (admissible : checkKey key = .ok ())
    (valueFits : value.utf8ByteSize ≤ maxValueBytes) (store : Store) (now : Instant) :
    setKey store now key (Json.single "value" (.ofString value)).render =
      (store.set key value none now, .empty 204, [.setRequest .http (logKey key) 0]) := by
  have checked : checkValue value = .ok () := if_neg (Nat.not_lt.mpr valueFits)
  have forEver : ttlOfSeconds 0 = none := rfl
  simp only [setKey, admissible, SetBody.parse?_of_spelled (SetBody.spelled_value value), checked,
    forEver]

/-- A request that writes such a body stores the value for ever. -/
theorem handle_put_value {target key value : String} (leads : LeadsTo target key)
    (admissible : checkKey key = .ok ()) (valueFits : value.utf8ByteSize ≤ maxValueBytes)
    (bodyFits : (Json.single "value" (.ofString value)).render.length ≤ maxBodyBytes)
    (store : Store) (now : Instant) (headers : List (String × String)) :
    handle store now ⟨.put, target, headers, (Json.single "value" (.ofString value)).render⟩ =
      (store.set key value none now, .empty 204, [.setRequest .http (logKey key) 0]) := by
  rw [handle_of_leadsTo leads, handleKey, if_neg (Nat.not_lt.mpr bodyFits)]
  exact setKey_value admissible valueFits store now

/-- A value without a deadline is told at any time until its key is written. -/
theorem told_until_written {store : Store} {spelling key value : String}
    (held : store.table.find? key = some (.permanent value)) (admissible : checkKey key = .ok ())
    {between : List Happening} (others : ∀ happening ∈ between, happening.written? ≠ some key)
    (spells : LeadsTo spelling key) (moment : Instant) (headers : List (String × String))
    (body : Bytes) :
    (handle (between.foldl Happening.after store) moment ⟨.get, spelling, headers, body⟩).2.1 =
      .json 200 (.single "value" (.ofString value)) := by
  have kept := Happening.find?_foldl_after held rfl others
  have live := Table.live?_eq_some_iff.mpr ⟨kept, Entry.expiredAt_of_lasting rfl moment⟩
  have told := getKey_of_live admissible live
  rw [handle_of_leadsTo spells]
  exact told

/-- The response that tells a live value, sent as it is as the body of a write of any key, is
accepted if it is not too long for a body, and stores that value for ever under that key; other keys
keep what they hold. From then on every read of the copy, in any spelling of its key and at any
time, gives the response that was copied, byte for byte, whatever else happens to the store, until
the copy itself is written or removed. -/
theorem reading_can_be_written_back {store : Store} {now : Instant} {key source : String}
    {entry : Entry} (leads : LeadsTo source key) (live : store.table.live? key now = some entry)
    (valueFits : entry.value.utf8ByteSize ≤ maxValueBytes) (headers : List (String × String))
    (body : Bytes) :
    let read := handle store now ⟨.get, source, headers, body⟩
    read.1 = store ∧
    (read.2.1.status = 200 ↔ 0 < key.utf8ByteSize ∧ key.utf8ByteSize ≤ maxKeyBytes) ∧
    (read.2.1.status = 200 → read.2.1.body.length ≤ maxBodyBytes →
      ∀ copy target, LeadsTo target copy → 0 < copy.utf8ByteSize → copy.utf8ByteSize ≤ maxKeyBytes →
        ∀ (other : Store) (later : Instant) (headers' : List (String × String)),
          let written := handle other later ⟨.put, target, headers', read.2.1.body⟩
          written.2.1 = .empty 204 ∧ written.1.table.find? copy = some (.permanent entry.value) ∧
          (∀ elsewhere, elsewhere ≠ copy →
            written.1.table.find? elsewhere = other.table.find? elsewhere) ∧
          ∀ between : List Happening, (∀ happening ∈ between, happening.written? ≠ some copy) →
            ∀ spelling, LeadsTo spelling copy →
              ∀ (moment : Instant) (headers'' : List (String × String)) (unread : Bytes),
                (handle (between.foldl Happening.after written.1) moment
                  ⟨.get, spelling, headers'', unread⟩).2.1 = read.2.1) := by
  intro read
  have asked : read = getKey store now key := handle_of_leadsTo leads store now .get headers body
  cases checked : checkKey key with
  | error refusal =>
    have refused : read = refuse store (ApiError.ofRefusal refusal).response :=
      asked.trans (getKey_eq_of_refused checked store now)
    have status : ¬read.2.1.status = 200 := by rw [refused]; nofun
    have inadmissible : ¬(0 < key.utf8ByteSize ∧ key.utf8ByteSize ≤ maxKeyBytes) := by
      rw [← checkKey_eq_ok_iff, checked]
      nofun
    exact ⟨congrArg Prod.fst refused, iff_of_false status inadmissible,
      fun answered => absurd answered status⟩
  | ok =>
    have told := asked.trans (getKey_eq_of_live checked live)
    have response : read.2.1 = .json 200 (.single "value" (.ofString entry.value)) :=
      congrArg (·.2.1) told
    have bytes : read.2.1.body = (Json.single "value" (.ofString entry.value)).render :=
      congrArg Response.body response
    refine ⟨congrArg Prod.fst told,
      iff_of_true (by rw [response]; rfl) (checkKey_eq_ok_iff.mp checked), ?_⟩
    intro _ bodyFits copy target leadsCopy filled copyFits other later headers' written
    have admissible := checkKey_of_admissible filled copyFits
    have stored : written = (other.set copy entry.value none later, .empty 204,
        [.setRequest .http (logKey copy) 0]) := by
      rw [bytes] at bodyFits
      have put := handle_put_value leadsCopy admissible valueFits bodyFits other later headers'
      rw [← bytes] at put
      exact put
    have held (key : String) : written.1.table.find? key =
        if key = copy then some (.permanent entry.value) else other.table.find? key := by
      rw [stored]
      exact Table.find?_insert _ _ _ _
    have copied := (held copy).trans (if_pos rfl)
    refine ⟨by rw [stored], copied,
      fun elsewhere differs => (held elsewhere).trans (if_neg differs), ?_⟩
    intro between others spelling spells moment headers'' unread
    exact (told_until_written copied admissible others spells moment headers'' unread).trans
      response.symm

/-- A value with a quote, a backslash, control characters and one beyond sixteen bits, copied one
second before it expires and read an hour later, when the original has been swept and removed. -/
theorem reading_can_be_written_back_escaped :
    let value := "\"\\\n\x01😀"
    let store := (Store.create .standard ⟨0, 0⟩).1.set "from" value (some (.ofSeconds 60)) ⟨0, 0⟩
    let read := handle store ⟨59, 0⟩ ⟨.get, "/keys/fr%6fm", [], []⟩
    let written := handle store ⟨59, 0⟩ ⟨.put, "/keys/to", [], read.2.1.body⟩
    let between : List Happening :=
      [.served ⟨59, 0⟩ (.advance (.ofSeconds 3600)), .performed ⟨3659, 0⟩ .sweep,
        .served ⟨3659, 0⟩ (.call (.delete "from"))]
    read.2.1.status = 200 ∧ written.2.1 = .empty 204 ∧
      (handle (between.foldl Happening.after written.1) ⟨3659, 0⟩
        ⟨.get, "/keys/t%6F?again", [], []⟩).2.1 = read.2.1 := by
  intro value store read written between
  have leads : LeadsTo "/keys/fr%6fm" "from" :=
    ⟨[0x66, 0x72, 0x25, 0x36, 0x66, 0x6d], by decide, by decide⟩
  have leadsCopy : LeadsTo "/keys/to" "to" := ⟨[0x74, 0x6f], by decide, by decide⟩
  have spells : LeadsTo "/keys/t%6F?again" "to" := ⟨[0x74, 0x25, 0x36, 0x46], by decide, by decide⟩
  have live : store.table.live? "from" ⟨59, 0⟩ = some (.expiringAt value ⟨60, 0⟩) := by decide
  obtain ⟨-, status, copies⟩ := reading_can_be_written_back leads live (by decide) [] []
  have answered := status.mpr (by decide)
  have bodyFits : read.2.1.body.length ≤ maxBodyBytes := by decide +kernel
  obtain ⟨accepted, -, -, reads⟩ :=
    copies answered bodyFits "to" "/keys/to" leadsCopy (by decide) (by decide) store ⟨59, 0⟩ []
  have others : ∀ happening ∈ between, happening.written? ≠ some "to" := by decide
  refine ⟨answered, accepted, ?_⟩
  simp only [written, read]
  exact reads between others "/keys/t%6F?again" spells ⟨3659, 0⟩ [] []

end ExpiringStore.Http
