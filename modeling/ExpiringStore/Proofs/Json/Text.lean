import ExpiringStore.Proofs.Json.Literal
import ExpiringStore.Proofs.Json.Rendering

/-!
# What is written is text

The rendering of a document whose strings stand for texts is the UTF-8 of a text itself. A string's
escapes are ASCII, and what is not escaped are whole characters.
-/
namespace ExpiringStore

/-- Bytes that are the UTF-8 of a text. -/
def Bytes.IsText (bytes : Bytes) : Prop := ∃ text, Bytes.ofString text = bytes

namespace Bytes.IsText

theorem ofString (text : String) : (Bytes.ofString text).IsText := ⟨text, rfl⟩

theorem append {front back : Bytes} (first : front.IsText) (second : back.IsText) :
    (front ++ back).IsText := by
  obtain ⟨text, rfl⟩ := first
  obtain ⟨rest, rfl⟩ := second
  refine ⟨text ++ rest, ?_⟩
  rw [ofString_eq_flatMap, String.toList_append, List.flatMap_append, ← ofString_eq_flatMap,
    ← ofString_eq_flatMap]

theorem char (c : Char) : IsText (String.utf8EncodeChar c) := by
  refine ⟨String.ofList [c], ?_⟩
  rw [ofString_eq_flatMap, String.toList_ofList, List.flatMap_singleton]

theorem ascii {bytes : Bytes} (ascii : bytes.all (fun b => b.toNat < 0x80) = true) :
    bytes.IsText := by
  induction bytes with
  | nil => exact ofString ""
  | cons b rest ih =>
    rw [List.all_cons, Bool.and_eq_true, decide_eq_true_eq] at ascii
    have first := char (Char.ofNat b.toNat)
    rw [Literal.utf8EncodeChar_ascii ascii.1] at first
    exact first.append (ih ascii.2)

/-- Texts one after the other. -/
theorem flatMap {α : Type} {items : List α} {write : α → Bytes}
    (texts : ∀ item ∈ items, (write item).IsText) : IsText (items.flatMap write) := by
  induction items with
  | nil => exact ofString ""
  | cons item rest ih =>
    rw [List.flatMap_cons]
    exact (texts item List.mem_cons_self).append (ih fun other mem =>
      texts other (List.mem_cons_of_mem _ mem))

end Bytes.IsText

namespace Literal

/-- A character outside ASCII is written as it is, and of an ASCII one every byte is ASCII. -/
theorem isText_char (c : Char) :
    Bytes.IsText (((String.utf8EncodeChar c).map pieceOf).flatMap Piece.render) := by
  by_cases narrow : c.toNat < 0x80
  · have table : ∀ n : Fin 0x80,
        (pieceOf n.val.toUInt8).render.all (fun b => b.toNat < 0x80) = true := by
      decide +kernel
    rw [Bytes.utf8EncodeChar_of_lt narrow, List.map_singleton, List.flatMap_singleton]
    exact .ascii (table ⟨c.toNat, narrow⟩)
  · have wide : 0x80 ≤ c.toNat := by omega
    rw [List.map_congr_left fun b mem => pieceOf_of_le (le_of_mem_utf8EncodeChar wide mem),
      List.flatMap_map]
    have plain : (String.utf8EncodeChar c).flatMap (fun b => (Piece.raw b).render) =
        String.utf8EncodeChar c :=
      List.flatMap_singleton' _
    rw [plain]
    exact .char c

theorem isText_render (text : String) : (ofString text).render.IsText := by
  have quote : Bytes.IsText [0x22] := .ascii (by decide)
  have content : Bytes.IsText ((ofString text).pieces.flatMap Piece.render) := by
    rw [Literal.ofString, Bytes.ofString_eq_flatMap, List.map_flatMap, List.flatMap_assoc]
    exact .flatMap fun c _ => isText_char c
  exact quote.append (content.append quote)

end Literal

namespace Json

theorem isText_ofString (text : String) : (ofString text).render.IsText :=
  Literal.isText_render text

theorem isText_bool (b : Bool) : (Json.bool b).render.IsText := by
  cases b <;> exact .ascii (by decide)

theorem isText_commaSeparated {parts : List Bytes} (texts : ∀ part ∈ parts, part.IsText) :
    (commaSeparated parts).IsText := by
  cases parts with
  | nil => exact .ofString ""
  | cons first rest =>
    have comma : Bytes.IsText [0x2c] := .ascii (by decide)
    refine (texts first List.mem_cons_self).append (.flatMap fun part mem => ?_)
    exact comma.append (texts part (List.mem_cons_of_mem _ mem))

theorem mem_renderItems {items : List Json} {part : Bytes} (mem : part ∈ renderItems items) :
    ∃ item ∈ items, item.render = part := by
  induction items with
  | nil => cases mem
  | cons item rest ih =>
    rcases List.mem_cons.mp mem with rfl | later
    · exact ⟨item, List.mem_cons_self, rfl⟩
    · obtain ⟨other, held, same⟩ := ih later
      exact ⟨other, List.mem_cons_of_mem _ held, same⟩

theorem isText_array {items : List Json} (texts : ∀ item ∈ items, item.render.IsText) :
    (Json.array items).render.IsText := by
  have opening : Bytes.IsText [0x5b] := .ascii (by decide)
  have closing : Bytes.IsText [0x5d] := .ascii (by decide)
  have parts : ∀ part ∈ renderItems items, part.IsText := by
    intro part mem
    obtain ⟨item, held, rfl⟩ := mem_renderItems mem
    exact texts item held
  exact opening.append ((isText_commaSeparated parts).append closing)

theorem isText_single {name : String} {value : Json} (text : value.render.IsText) :
    (single name value).render.IsText := by
  have opening : Bytes.IsText [0x7b] := .ascii (by decide)
  have colon : Bytes.IsText [0x3a] := .ascii (by decide)
  have closing : Bytes.IsText [0x7d] := .ascii (by decide)
  have member := (Literal.isText_render name).append (colon.append text)
  have parts : ∀ part ∈ [(Literal.ofString name).render ++ 0x3a :: value.render], part.IsText := by
    intro part mem
    obtain rfl := List.mem_singleton.mp mem
    exact member
  exact opening.append ((isText_commaSeparated parts).append closing)

end Json

end ExpiringStore
