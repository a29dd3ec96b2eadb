import ExpiringStore.Proofs.Json.Reader

/-!
# What is written is read back

The rendering of a document is one of its texts, if its numbers are numbers and its strings hold no
byte that has to be escaped. What stands for a text is such a string.
-/
namespace ExpiringStore

namespace Piece

/-- A byte that stands for itself may do so. -/
def WellFormed : Piece → Prop
  | .raw b => 0x20 ≤ b.toNat ∧ b ≠ 0x22 ∧ b ≠ 0x5c
  | .unit _ => True

theorem isHex_hexDigit {n : UInt8} (small : n.toNat < 16) :
    Bytes.IsHex n.toNat (Bytes.hexDigit n) := by
  have table : ∀ n : Fin 16, (Bytes.hexDigit n.val.toUInt8).toNat =
      if n.val < 10 then 0x30 + n.val else 0x57 + n.val := by decide
  have digit := table ⟨n.toNat, small⟩
  simp only [Nat.toUInt8_eq, UInt8.ofNat_toNat] at digit
  split at digit
  · exact .inl ⟨by omega, digit⟩
  · exact .inr ⟨by omega, small, .inr digit⟩

theorem spelled_renderUnit (u : UInt16) : Spelled (.unit u) (renderUnit u) := by
  unfold renderUnit
  split
  case h_8 =>
    have bound := u.toNat_lt
    have first : (u / 4096).toUInt8.toNat = u.toNat / 4096 := by simp; omega
    have second : (u / 256 % 16).toUInt8.toNat = u.toNat / 256 % 16 := by simp; omega
    have third : (u / 16 % 16).toUInt8.toNat = u.toNat / 16 % 16 := by simp; omega
    have fourth : (u % 16).toUInt8.toNat = u.toNat % 16 := by simp; omega
    exact .digits (isHex_hexDigit (by omega)) (isHex_hexDigit (by omega))
      (isHex_hexDigit (by omega)) (isHex_hexDigit (by omega)) (by omega)
  all_goals exact .letter (by decide)

theorem spelled_render {piece : Piece} (wellFormed : piece.WellFormed) :
    piece.Spelled piece.render := by
  cases piece with
  | raw b => exact .raw wellFormed.1 wellFormed.2.1 wellFormed.2.2
  | unit u => exact spelled_renderUnit u

theorem row_render {pieces : List Piece} (wellFormed : ∀ piece ∈ pieces, piece.WellFormed) :
    Row pieces (pieces.flatMap render) := by
  induction pieces with
  | nil => exact .nil
  | cons piece rest ih =>
    have others := ih fun other mem => wellFormed other (List.mem_cons_of_mem _ mem)
    exact .cons (spelled_render (wellFormed piece List.mem_cons_self)) others

end Piece

namespace Literal

/-- A content that may be written as it is. -/
def WellFormed (l : Literal) : Prop := ∀ piece ∈ l.pieces, piece.WellFormed

theorem wellFormed_ofString (s : String) : (ofString s).WellFormed := by
  intro piece mem
  obtain ⟨b, -, rfl⟩ := List.mem_map.mp mem
  unfold pieceOf
  split
  · trivial
  · rename_i ordinary
    simp only [Bool.or_eq_true, decide_eq_true_eq, beq_iff_eq, not_or,
      UInt8.lt_iff_toNat_lt] at ordinary
    exact ⟨Nat.le_of_not_lt ordinary.1.1, ordinary.1.2, ordinary.2⟩

theorem ofString_injective {s t : String} (same : ofString s = ofString t) : s = t := by
  have texts := congrArg text? same
  rw [text?_ofString, text?_ofString] at texts
  exact Option.some.inj texts

end Literal

namespace Token

theorem Row.append {front back : List Token} {first second : Bytes} (row : Row front first)
    (other : Row back second) : Row (front ++ back) (first ++ second) := by
  induction row with
  | nil => exact other
  | blank isBlank _ ih => exact .blank isBlank ih
  | cons spelled _ ih =>
    rw [List.cons_append, List.append_assoc]
    exact .cons spelled ih

theorem Row.single {token : Token} {text : Bytes} (spelled : token.Spelled text) :
    Row [token] text := by
  have row := Row.cons spelled .nil
  rw [List.append_nil] at row
  exact row

/-- Parts that are rows each, one by one. -/
inductive Rows : List (List Token) → List Bytes → Prop
  | nil : Rows [] []
  | cons {part : List Token} {parts : List (List Token)} {text : Bytes} {texts : List Bytes}
    (row : Row part text) (others : Rows parts texts) : Rows (part :: parts) (text :: texts)

theorem Rows.commas {parts : List (List Token)} {texts : List Bytes} (rows : Rows parts texts) :
    Row (parts.flatMap fun part => .comma :: part) (texts.flatMap fun text => 0x2c :: text) := by
  induction rows with
  | nil => exact .nil
  | cons row _ ih => exact .append (.cons .comma row) ih

theorem Rows.separated {parts : List (List Token)} {texts : List Bytes} (rows : Rows parts texts) :
    Row (separated parts) (Json.commaSeparated texts) := by
  cases rows with
  | nil => exact .nil
  | cons row others => exact .append row others.commas

end Token

namespace Json

mutual

/-- A document that may be written as it is. -/
def WellFormed : Json → Prop
  | .null | .bool _ => True
  | .number text => NumberPhase.IsNumber text
  | .string content => content.WellFormed
  | .array items => WellFormedItems items
  | .object members => WellFormedMembers members

def WellFormedItems : List Json → Prop
  | [] => True
  | item :: rest => WellFormed item ∧ WellFormedItems rest

def WellFormedMembers : List (Literal × Json) → Prop
  | [] => True
  | (name, value) :: rest => name.WellFormed ∧ WellFormed value ∧ WellFormedMembers rest

end

theorem row_string {content : Literal} (wellFormed : content.WellFormed) :
    Token.Row [.string content] content.render :=
  .single (.string (Piece.row_render wellFormed))

mutual

theorem spelled_render (document : Json) (wellFormed : document.WellFormed) :
    document.Spelled document.render := by
  cases document with
  | null => exact .single .null
  | bool value =>
    cases value with
    | false => exact .single .no
    | true => exact .single .yes
  | number text => exact .single (.number wellFormed)
  | string content => exact row_string wellFormed
  | array items =>
    exact .cons .openBracket (.append (rows_items items wellFormed).separated
      (.single .closeBracket))
  | object members =>
    exact .cons .openBrace (.append (rows_members members wellFormed).separated
      (.single .closeBrace))

theorem rows_items (items : List Json) (wellFormed : WellFormedItems items) :
    Token.Rows (itemTokens items) (renderItems items) := by
  cases items with
  | nil => exact .nil
  | cons item rest => exact .cons (spelled_render item wellFormed.1) (rows_items rest wellFormed.2)

theorem rows_members (members : List (Literal × Json)) (wellFormed : WellFormedMembers members) :
    Token.Rows (memberTokens members) (renderMembers members) := by
  cases members with
  | nil => exact .nil
  | cons member rest =>
    obtain ⟨name, value⟩ := member
    have valueRow := spelled_render value wellFormed.2.1
    exact .cons (.append (row_string wellFormed.1) (.cons .colon valueRow))
      (rows_members rest wellFormed.2.2)

end

/-- What is written is read back. -/
theorem parse?_render {document : Json} (wellFormed : document.WellFormed) :
    parse? document.render = some document :=
  parse?_of_spelled (spelled_render document wellFormed)

/-- Different documents are written differently. -/
theorem render_injective {document other : Json} (wellFormed : document.WellFormed)
    (otherWellFormed : other.WellFormed) (same : document.render = other.render) :
    document = other :=
  (spelled_render document wellFormed).unique (same ▸ spelled_render other otherWellFormed)

/-! ## Documents of one member -/

@[simp] theorem wellFormed_bool (b : Bool) : (Json.bool b).WellFormed := trivial

@[simp] theorem wellFormed_ofString (s : String) : (ofString s).WellFormed :=
  Literal.wellFormed_ofString s

theorem wellFormed_strings (texts : List String) : WellFormedItems (texts.map ofString) := by
  induction texts with
  | nil => trivial
  | cons text rest ih => exact ⟨Literal.wellFormed_ofString text, ih⟩

@[simp] theorem wellFormed_array (texts : List String) :
    (Json.array (texts.map ofString)).WellFormed :=
  wellFormed_strings texts

theorem wellFormed_single {name : String} {value : Json} (wellFormed : value.WellFormed) :
    (single name value).WellFormed := ⟨Literal.wellFormed_ofString name, wellFormed, trivial⟩

@[simp] theorem ofString_inj {s t : String} : ofString s = ofString t ↔ s = t :=
  ⟨fun same => Literal.ofString_injective (Json.string.inj same), congrArg ofString⟩

@[simp] theorem single_inj {name other : String} {value value' : Json} :
    single name value = single other value' ↔ name = other ∧ value = value' := by
  constructor
  · intro same
    have members := (List.cons.inj (Json.object.inj same)).1
    obtain ⟨names, values⟩ := Prod.mk.inj members
    exact ⟨Literal.ofString_injective names, values⟩
  · rintro ⟨rfl, rfl⟩
    rfl

@[simp] theorem map_ofString_inj {texts others : List String} :
    texts.map ofString = others.map ofString ↔ texts = others :=
  List.map_inj_right fun _ _ => ofString_inj.mp

end Json

end ExpiringStore
