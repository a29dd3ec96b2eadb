import ExpiringStore.Proofs.Http.Plain

/-!
# The size of a body

How many bytes the document of a write has. Beside the value's own bytes it is the escapes that
count: a control character can take six times its room.
-/
namespace ExpiringStore

namespace Bytes

/-- An ASCII character, again and again, is its byte again and again. -/
theorem ofString_replicate {c : Char} (ascii : c.toNat < 0x80) (n : Nat) :
    ofString (String.ofList (List.replicate n c)) = List.replicate n c.toNat.toUInt8 := by
  have chars : ∀ d ∈ (String.ofList (List.replicate n c)).toList, d.toNat < 0x80 := by
    intro d mem
    rw [String.toList_ofList] at mem
    rwa [List.eq_of_mem_replicate mem]
  rw [ofString_eq_map chars, String.toList_ofList, List.map_replicate]

end Bytes

namespace Literal

/-- The bytes that a byte of a text takes in a string: two for a quote, a backslash and the control
characters that have a letter, six for other control characters. -/
def escapedSize (b : UInt8) : Nat :=
  if b ∈ [0x22, 0x5c, 0x08, 0x09, 0x0a, 0x0c, (0x0d : UInt8)] then 2 else if b < 0x20 then 6 else 1

def escapedSizes : Bytes → Nat
  | [] => 0
  | b :: rest => escapedSize b + escapedSizes rest

/-- The bytes that a text takes in a string, between the quotes. -/
def textSize (text : String) : Nat := escapedSizes (Bytes.ofString text)

theorem escapedSizes_replicate (n : Nat) (b : UInt8) :
    escapedSizes (List.replicate n b) = n * escapedSize b := by
  induction n with
  | zero => rw [Nat.zero_mul, List.replicate_zero, escapedSizes]
  | succ n ih => rw [List.replicate_succ, escapedSizes, ih, Nat.succ_mul, Nat.add_comm]

theorem length_render_pieceOf (b : UInt8) : (pieceOf b).render.length = escapedSize b := by
  have table : ∀ n : Fin 256,
      (pieceOf n.val.toUInt8).render.length = escapedSize n.val.toUInt8 := by decide +kernel
  have found := table ⟨b.toNat, b.toNat_lt⟩
  rwa [Nat.toUInt8_eq, UInt8.ofNat_toNat] at found

theorem length_render_pieces (bytes : Bytes) :
    ((bytes.map pieceOf).flatMap Piece.render).length = escapedSizes bytes := by
  induction bytes with
  | nil => rfl
  | cons b rest ih =>
    rw [List.map_cons, List.flatMap_cons, List.length_append, ih, length_render_pieceOf,
      escapedSizes]

theorem length_render_ofString (text : String) :
    (ofString text).render.length = textSize text + 2 := by
  rw [render, ofString, List.length_cons, List.length_append, length_render_pieces]
  rfl

end Literal

namespace Http.SetBody

/-- The bytes of a write's document: its names and marks, the value and the
digits of the seconds. -/
theorem length_render_document (write : SetBody) :
    write.document.render.length =
      27 + Literal.textSize write.value + (toString write.ttlSeconds.toInt).utf8ByteSize := by
  have name : (Literal.ofString "value").render.length = 7 := by decide
  have other : (Literal.ofString "ttl_seconds").render.length = 13 := by decide
  simp only [document, Json.ofString, Json.render, Json.renderMembers, Json.commaSeparated,
    List.length_cons, List.length_append, List.length_nil, List.flatMap_cons, List.flatMap_nil,
    name, other, Literal.length_render_ofString, Bytes.length_ofString]
  omega

end Http.SetBody

end ExpiringStore
