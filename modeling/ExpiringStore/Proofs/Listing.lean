import ExpiringStore.Proofs.Http.Spelling
import ExpiringStore.Proofs.Json.Rendering
import ExpiringStore.Proofs.Operations
import ExpiringStore.Proofs.TextOrder
import ExpiringStore.Rpc.Service

/-!
# Listings are canonical

Both front-ends list the live keys in the order of their bytes. A client that reads the document
finds them in it; and as there is one sorted row for each set of keys, nothing of how a store
came to hold them shows.
-/
namespace ExpiringStore

namespace Http

/-- The keys that a client finds in the body of a listing: those in the array that is the
member `keys` of an object. -/
def listedKeys? (body : Bytes) : Option (List String) :=
  match Json.parse? body with
  | some (.object [(name, .array items)]) =>
    if name.text? = some "keys" then items.mapM SetBody.string? else none
  | _ => none

theorem mapM_string? (texts : List String) :
    (texts.map Json.ofString).mapM SetBody.string? = some texts := by
  induction texts with
  | nil => rfl
  | cons text rest ih =>
    have first : SetBody.string? (Json.ofString text) = some text := Literal.text?_ofString text
    rw [List.map_cons, List.mapM_cons, first, ih]
    rfl

/-- The keys that are written into a body are found in it. -/
theorem listedKeys?_render (keys : List String) :
    listedKeys? (Json.single "keys" (.array (keys.map Json.ofString))).render = some keys := by
  rw [listedKeys?, Json.parse?_render (Json.wellFormed_single (Json.wellFormed_array keys))]
  simp only [Json.single, Literal.text?_ofString, if_true, mapM_string?]

/-- A request that leads to the keys is answered with a listing. -/
theorem handle_of_leadsToKeys {target : String} (leads : Route.ofTarget target = .keys)
    (store : Store) (now : Instant) (headers : List (String × String)) (body : Bytes) :
    handle store now ⟨.get, target, headers, body⟩ = listKeys store now := by
  simp only [handle, leads]

end Http

/-- Stores in which the same keys are live have the same sorted keys. -/
theorem Store.sortKeys_list_eq {store other : Store} {now later : Instant}
    (same : ∀ key, (store.table.live? key now).isSome = (other.table.live? key later).isSome) :
    sortKeys (store.list now) = sortKeys (other.list later) := by
  refine sortKeys_eq_of_mem_iff (store.table.nodup_liveKeys now)
    (other.table.nodup_liveKeys later) fun key => ?_
  rw [Store.list, Store.list, Table.mem_liveKeys_iff, Table.mem_liveKeys_iff, same]

namespace Http

/-- Over HTTP and remotely the same keys are listed: those under which there is a live entry, each
once, in strict order of their bytes and so of their characters. A listing leaves the store as it
is, and it is the same for every other store, with whatever history and order of entries, in which
the same keys are live. -/
theorem listing_is_canonical (store : Store) (now : Instant) {target : String}
    (leads : Route.ofTarget target = .keys) (headers : List (String × String)) (body : Bytes) :
    let listed := handle store now ⟨.get, target, headers, body⟩
    let called := Rpc.handle store now .list
    listed.1 = store ∧ called.1 = store ∧ listed.2.1.status = 200 ∧
    ∃ keys, listedKeys? listed.2.1.body = some keys ∧ called.2.1 = .ok (.keys keys) ∧
      (keys.Pairwise fun a b => Bytes.ofString a < Bytes.ofString b) ∧
      keys.Pairwise (· < ·) ∧ keys.Nodup ∧
      (∀ key, key ∈ keys ↔
        ∃ entry, store.table.find? key = some entry ∧ entry.expiredAt now = false) ∧
      ∀ (other : Store) (later : Instant),
        (∀ key, (store.table.live? key now).isSome = (other.table.live? key later).isSome) →
          (handle other later ⟨.get, target, headers, body⟩).2.1 = listed.2.1 ∧
          (Rpc.handle other later .list).2.1 = .ok (.keys keys) := by
  intro listed called
  have inOrder := strict_sortKeys (store.table.nodup_liveKeys now)
  have answered : listed = listKeys store now := handle_of_leadsToKeys leads store now headers body
  refine ⟨congrArg Prod.fst answered, rfl,
    by rw [answered]; rfl, sortKeys (store.list now), ?_, rfl, inOrder, ?_, ?_, fun key => ?_,
    fun other later same => ⟨?_, ?_⟩⟩
  · rw [answered]
    exact listedKeys?_render _
  · exact inOrder.imp Bytes.ofString_lt_iff.mp
  · exact (perm_sortKeys _).nodup_iff.mpr (store.table.nodup_liveKeys now)
  · rw [(perm_sortKeys _).mem_iff]
    exact Table.mem_liveKeys
  · rw [handle_of_leadsToKeys leads, answered]
    simp only [listKeys, Store.sortKeys_list_eq same]
  · simp only [Rpc.handle, Store.sortKeys_list_eq same]

/-- Two histories of the same live keys: one with an expired key that nobody has removed, and one
that went another way. Of the two keys that are left the one with the smaller code comes first,
though not in UTF-16. -/
theorem listing_is_canonical_histories :
    let new := (Store.create .standard ⟨0, 0⟩).1
    let one := (new.set "😀" "1" none ⟨0, 0⟩).set "gone" "2" (some (.ofSeconds 1)) ⟨0, 0⟩
    let first := one.set "～" "3" none ⟨0, 0⟩
    let another := ((new.set "～" "4" none ⟨0, 0⟩).set "a" "5" none ⟨0, 0⟩).delete "a" ⟨0, 0⟩
    let second := another.1.set "😀" "6" none ⟨0, 0⟩
    let listed := (handle first ⟨1, 0⟩ ⟨.get, "/keys?all", [], []⟩).2.1
    Route.ofTarget "/keys?all" = .keys ∧ first.size = 3 ∧ listed.status = 200 ∧
      listedKeys? listed.body = some ["～", "😀"] ∧
      (handle second ⟨0, 0⟩ ⟨.get, "/keys?all", [], []⟩).2.1 = listed := by
  intro new one first another second listed
  have leads : Route.ofTarget "/keys?all" = .keys := by decide
  obtain ⟨-, -, status, keys, found, called, -, -, -, -, canonical⟩ :=
    listing_is_canonical first ⟨1, 0⟩ leads [] []
  have held : first.list ⟨1, 0⟩ = ["～", "😀"] := by decide +kernel
  have heldBySecond : second.list ⟨0, 0⟩ = ["😀", "～"] := by decide +kernel
  have same : ∀ key, (first.table.live? key ⟨1, 0⟩).isSome =
      (second.table.live? key ⟨0, 0⟩).isSome := by
    intro key
    rw [Bool.eq_iff_iff, ← Table.mem_liveKeys_iff, ← Table.mem_liveKeys_iff]
    change key ∈ first.list ⟨1, 0⟩ ↔ key ∈ second.list ⟨0, 0⟩
    rw [held, heldBySecond]
    simp [or_comm]
  have sorted : keys = ["～", "😀"] := by
    rw [Rpc.handle, held] at called
    have inOrder : sortKeys ["～", "😀"] = ["～", "😀"] := List.mergeSort_of_pairwise (by decide)
    exact (Rpc.Reply.keys.inj (Except.ok.inj (inOrder ▸ called))).symm
  exact ⟨leads, by decide, status, sorted ▸ found, (canonical second ⟨0, 0⟩ same).1⟩

end Http

end ExpiringStore
