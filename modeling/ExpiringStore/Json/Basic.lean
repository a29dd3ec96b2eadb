import ExpiringStore.Text.Bytes

/-!
# JSON documents

A document is kept as it is written down to its spelling: the content of a string is a row of raw
bytes and escapes, which is a text only if the bytes are UTF-8 and surrogates come in pairs, and a
number is its text. `Json.render` writes a document without blanks.
-/
namespace ExpiringStore

/-- A part of a string's content: a byte that stands for itself, or an escaped UTF-16 unit. -/
inductive Piece where
  | raw (byte : UInt8)
  | unit (value : UInt16)
  deriving DecidableEq, Repr

/-- The content of a string. -/
structure Literal where
  pieces : List Piece
  deriving DecidableEq, Repr

/-- A document. Members keep their order and may repeat a name. -/
inductive Json where
  | null
  | bool (value : Bool)
  | number (text : Bytes)
  | string (content : Literal)
  | array (items : List Json)
  | object (members : List (Literal × Json))
  deriving Repr

namespace Piece

/-- An escape: a letter of its own for the usual characters, else four hexadecimal digits. -/
def renderUnit (u : UInt16) : Bytes :=
  match u with
  | 0x22 => [0x5c, 0x22]
  | 0x5c => [0x5c, 0x5c]
  | 0x08 => [0x5c, 0x62]
  | 0x0c => [0x5c, 0x66]
  | 0x0a => [0x5c, 0x6e]
  | 0x0d => [0x5c, 0x72]
  | 0x09 => [0x5c, 0x74]
  | _ =>
    [0x5c, 0x75, Bytes.hexDigit (u / 4096).toUInt8, Bytes.hexDigit (u / 256 % 16).toUInt8,
      Bytes.hexDigit (u / 16 % 16).toUInt8, Bytes.hexDigit (u % 16).toUInt8]

def render : Piece → Bytes
  | .raw b => [b]
  | .unit u => renderUnit u

end Piece

namespace Literal

def isHigh (u : UInt16) : Bool := 0xd800 ≤ u && u ≤ 0xdbff

def isLow (u : UInt16) : Bool := 0xdc00 ≤ u && u ≤ 0xdfff

def pairChar (high low : UInt16) : Char :=
  Char.ofNat (0x10000 + (high.toNat - 0xd800) * 0x400 + (low.toNat - 0xdc00))

/-- The bytes that pieces stand for, behind those of `acc`, which are in reverse, and
behind the first half of a surrogate pair, if one has been read. A half without its other
half stands for nothing. -/
def unescape (acc : Bytes) (high : Option UInt16) : List Piece → Option Bytes
  | [] => if high.isNone then some acc.reverse else none
  | piece :: rest =>
    match high, piece with
    | none, .raw b => unescape (b :: acc) none rest
    | none, .unit u =>
      if isLow u then none
      else if isHigh u then unescape acc (some u) rest
      else unescape ((String.utf8EncodeChar (Char.ofNat u.toNat)).reverse ++ acc) none rest
    | some first, .unit u =>
      if isLow u then
        unescape ((String.utf8EncodeChar (pairChar first u)).reverse ++ acc) none rest
      else none
    | some _, .raw _ => none

def text? (l : Literal) : Option String := (unescape [] none l.pieces).bind Bytes.toString?

/-- How a byte of a text is written: quotes, backslashes and control characters are escaped. -/
def pieceOf (b : UInt8) : Piece :=
  if b < 0x20 || b == 0x22 || b == 0x5c then .unit b.toUInt16 else .raw b

def ofString (s : String) : Literal := ⟨(Bytes.ofString s).map pieceOf⟩

theorem utf8EncodeChar_ascii {b : UInt8} (h : b.toNat < 0x80) :
    String.utf8EncodeChar (Char.ofNat b.toNat) = [b] := by
  have table : ∀ n : Fin 0x80, String.utf8EncodeChar (Char.ofNat n.val) = [n.val.toUInt8] := by
    decide
  simpa using table ⟨b.toNat, h⟩

theorem unescape_map_pieceOf (acc bytes : Bytes) :
    unescape acc none (bytes.map pieceOf) = some (acc.reverse ++ bytes) := by
  induction bytes generalizing acc with
  | nil => simp [unescape]
  | cons b rest ih =>
    rw [List.map_cons, pieceOf]
    by_cases special : (b < 0x20 || b == 0x22 || b == 0x5c) = true
    · have below : b.toNat < 0x80 := by
        simp only [Bool.or_eq_true, beq_iff_eq, decide_eq_true_eq] at special
        rcases special with (control | rfl) | rfl
        · have small : b.toNat < 0x20 := UInt8.lt_iff_toNat_lt.mp control
          omega
        · decide
        · decide
      have value : b.toUInt16.toNat = b.toNat := by simp
      have notLow : isLow b.toUInt16 = false := by
        simp [isLow, UInt16.le_iff_toNat_le]
        omega
      have notHigh : isHigh b.toUInt16 = false := by
        simp [isHigh, UInt16.le_iff_toNat_le]
        omega
      rw [if_pos special, unescape, notLow, notHigh, value, utf8EncodeChar_ascii below]
      simp [ih]
    · rw [if_neg special, unescape]
      simp [ih]

/-- What is written for a text stands for that text. -/
theorem text?_ofString (s : String) : (ofString s).text? = some s := by
  simp [text?, ofString, unescape_map_pieceOf, Bytes.toString?_ofString]

def render (l : Literal) : Bytes := 0x22 :: (l.pieces.flatMap Piece.render ++ [0x22])

end Literal

namespace Json

def commaSeparated : List Bytes → Bytes
  | [] => []
  | first :: rest => first ++ rest.flatMap fun part => 0x2c :: part

mutual

def render : Json → Bytes
  | .null => [0x6e, 0x75, 0x6c, 0x6c]
  | .bool true => [0x74, 0x72, 0x75, 0x65]
  | .bool false => [0x66, 0x61, 0x6c, 0x73, 0x65]
  | .number text => text
  | .string content => content.render
  | .array items => 0x5b :: (commaSeparated (renderItems items) ++ [0x5d])
  | .object members => 0x7b :: (commaSeparated (renderMembers members) ++ [0x7d])

def renderItems : List Json → List Bytes
  | [] => []
  | item :: rest => render item :: renderItems rest

/-- The members of an object, each a name, a colon and a value. -/
def renderMembers : List (Literal × Json) → List Bytes
  | [] => []
  | (name, value) :: rest => (name.render ++ 0x3a :: render value) :: renderMembers rest

end

def ofString (s : String) : Json := .string (Literal.ofString s)

def single (name : String) (value : Json) : Json := .object [(Literal.ofString name, value)]

end Json

end ExpiringStore
