import ExpiringStore.Json.Lexer

/-!
# JSON texts

Which bytes are a document, said without a reader: the document's tokens in order, each in any of
its spellings, with blanks before, between and after them.
-/
namespace ExpiringStore

/-- The hexadecimal digits of a value below sixteen, letters in either case. -/
def Bytes.IsHex (value : Nat) (b : UInt8) : Prop :=
  value < 10 ∧ b.toNat = 0x30 + value ∨
    10 ≤ value ∧ value < 16 ∧ (b.toNat = 0x37 + value ∨ b.toNat = 0x57 + value)

namespace Piece

/-- The letters that stand for a unit behind a backslash. -/
def escapeLetters : List (UInt8 × UInt16) :=
  [(0x22, 0x22), (0x5c, 0x5c), (0x2f, 0x2f), (0x62, 0x08), (0x66, 0x0c), (0x6e, 0x0a),
    (0x72, 0x0d), (0x74, 0x09)]

/-- The ways to write a piece of a string: a byte other than a control character, a quote and a
backslash as itself, and a unit as a letter or as four digits behind a backslash. -/
inductive Spelled : Piece → Bytes → Prop
  | raw {b : UInt8} (printable : 0x20 ≤ b.toNat) (notQuote : b ≠ 0x22) (notEscape : b ≠ 0x5c) :
    Spelled (.raw b) [b]
  | letter {b : UInt8} {u : UInt16} (listed : (b, u) ∈ escapeLetters) : Spelled (.unit u) [0x5c, b]
  | digits {b₁ b₂ b₃ b₄ : UInt8} {n₁ n₂ n₃ n₄ : Nat} {u : UInt16} (first : Bytes.IsHex n₁ b₁)
    (second : Bytes.IsHex n₂ b₂) (third : Bytes.IsHex n₃ b₃) (fourth : Bytes.IsHex n₄ b₄)
    (value : u.toNat = n₁ * 4096 + n₂ * 256 + n₃ * 16 + n₄) :
    Spelled (.unit u) [0x5c, 0x75, b₁, b₂, b₃, b₄]

/-- Pieces one after the other. -/
inductive Row : List Piece → Bytes → Prop
  | nil : Row [] []
  | cons {piece : Piece} {rest : List Piece} {text bytes : Bytes} (spelled : piece.Spelled text)
    (others : Row rest bytes) : Row (piece :: rest) (text ++ bytes)

end Piece

namespace Literal

/-- Pieces for a row of characters: each in its UTF-8 bytes, or as its UTF-16 units. -/
inductive Stands : List Piece → List Char → Prop
  | nil : Stands [] []
  | raw {c : Char} {pieces : List Piece} {rest : List Char} (others : Stands pieces rest) :
    Stands ((String.utf8EncodeChar c).map Piece.raw ++ pieces) (c :: rest)
  | unit {u : UInt16} {c : Char} {pieces : List Piece} {rest : List Char}
    (value : c.toNat = u.toNat) (others : Stands pieces rest) :
    Stands (.unit u :: pieces) (c :: rest)
  | pair {high low : UInt16} {c : Char} {pieces : List Piece} {rest : List Char}
    (first : 0xd800 ≤ high.toNat ∧ high.toNat ≤ 0xdbff)
    (second : 0xdc00 ≤ low.toNat ∧ low.toNat ≤ 0xdfff)
    (value : c.toNat = 0x10000 + (high.toNat - 0xd800) * 0x400 + (low.toNat - 0xdc00))
    (others : Stands pieces rest) : Stands (.unit high :: .unit low :: pieces) (c :: rest)

def StandsFor (l : Literal) (text : String) : Prop := Stands l.pieces text.toList

end Literal

namespace NumberPhase

def AllDigits (digits : Bytes) : Prop := ∀ d ∈ digits, isDigit d = true

/-- The whole part of a number, which has no zero before other digits. -/
inductive Whole : Bytes → Prop
  | zero : Whole [0x30]
  | digits {first : UInt8} {rest : Bytes} (digit : isDigit first = true) (notZero : first ≠ 0x30)
    (others : AllDigits rest) : Whole (first :: rest)

/-- Nothing, or a point and digits. -/
inductive Fraction : Bytes → Prop
  | none : Fraction []
  | digits {first : UInt8} {rest : Bytes} (digit : isDigit first = true) (others : AllDigits rest) :
    Fraction (0x2e :: first :: rest)

/-- Nothing, or a mark, perhaps a sign, and digits. -/
inductive Exponent : Bytes → Prop
  | none : Exponent []
  | digits {mark first : UInt8} {sign rest : Bytes} (marked : mark = 0x65 ∨ mark = 0x45)
    (signed : sign = [] ∨ sign = [0x2b] ∨ sign = [0x2d]) (digit : isDigit first = true)
    (others : AllDigits rest) : Exponent (mark :: (sign ++ first :: rest))

inductive IsNumber : Bytes → Prop
  | mk {sign whole fraction exponent : Bytes} (signed : sign = [] ∨ sign = [0x2d])
    (wholePart : Whole whole) (fractionPart : Fraction fraction)
    (exponentPart : Exponent exponent) :
    IsNumber (sign ++ (whole ++ (fraction ++ exponent)))

end NumberPhase

namespace Token

/-- The spellings of a token. Only strings have more than one. -/
inductive Spelled : Token → Bytes → Prop
  | openBrace : Spelled .openBrace [0x7b]
  | closeBrace : Spelled .closeBrace [0x7d]
  | openBracket : Spelled .openBracket [0x5b]
  | closeBracket : Spelled .closeBracket [0x5d]
  | comma : Spelled .comma [0x2c]
  | colon : Spelled .colon [0x3a]
  | null : Spelled .null [0x6e, 0x75, 0x6c, 0x6c]
  | yes : Spelled (.bool true) [0x74, 0x72, 0x75, 0x65]
  | no : Spelled (.bool false) [0x66, 0x61, 0x6c, 0x73, 0x65]
  | number {text : Bytes} (isNumber : NumberPhase.IsNumber text) : Spelled (.number text) text
  | string {pieces : List Piece} {bytes : Bytes} (row : Piece.Row pieces bytes) :
    Spelled (.string ⟨pieces⟩) (0x22 :: (bytes ++ [0x22]))

/-- Tokens one after the other, with any blanks. -/
inductive Row : List Token → Bytes → Prop
  | nil : Row [] []
  | blank {b : UInt8} {tokens : List Token} {bytes : Bytes} (blank : Scan.isBlank b = true)
    (others : Row tokens bytes) : Row tokens (b :: bytes)
  | cons {token : Token} {rest : List Token} {text bytes : Bytes} (spelled : token.Spelled text)
    (others : Row rest bytes) : Row (token :: rest) (text ++ bytes)

def separated : List (List Token) → List Token
  | [] => []
  | first :: rest => first ++ rest.flatMap fun part => .comma :: part

end Token

namespace Json

mutual

def tokens : Json → List Token
  | .null => [.null]
  | .bool value => [.bool value]
  | .number text => [.number text]
  | .string content => [.string content]
  | .array items => .openBracket :: (Token.separated (itemTokens items) ++ [.closeBracket])
  | .object members => .openBrace :: (Token.separated (memberTokens members) ++ [.closeBrace])

def itemTokens : List Json → List (List Token)
  | [] => []
  | item :: rest => tokens item :: itemTokens rest

def memberTokens : List (Literal × Json) → List (List Token)
  | [] => []
  | (name, value) :: rest => (.string name :: .colon :: tokens value) :: memberTokens rest

end

def Spelled (document : Json) (bytes : Bytes) : Prop := Token.Row document.tokens bytes

end Json

end ExpiringStore
