import ExpiringStore.Json.Basic

/-!
# JSON tokens

The lexer takes one byte at a time, so that what it has read is a fold over the bytes. A
number goes on as long as its bytes allow; the byte that ends it belongs to the next token.
Strings may hold any bytes from a blank on; their escapes are checked here, and whether they
are texts is left to the reader.
-/
namespace ExpiringStore

/-- A unit of JSON syntax. -/
inductive Token where
  | openBrace
  | closeBrace
  | openBracket
  | closeBracket
  | comma
  | colon
  | null
  | bool (value : Bool)
  | number (text : Bytes)
  | string (content : Literal)
  deriving DecidableEq, Repr

/-- How far a number has come. -/
inductive NumberPhase where
  | minus
  | zero
  | whole
  | point
  | fraction
  | mark
  | sign
  | exponent
  deriving DecidableEq, Repr

namespace NumberPhase

def isDigit (b : UInt8) : Bool := 0x30 ≤ b && b ≤ 0x39

def first (b : UInt8) : Option NumberPhase :=
  if b == 0x2d then some .minus
  else if b == 0x30 then some .zero
  else if isDigit b then some .whole
  else none

/-- After the whole part: a point, an exponent's mark, or the end. -/
def afterWhole (b : UInt8) : Option NumberPhase :=
  if b == 0x2e then some .point
  else if b == 0x65 || b == 0x45 then some .mark
  else none

/-- The phase after one more byte, unless the number cannot go on with it. -/
def next (phase : NumberPhase) (b : UInt8) : Option NumberPhase :=
  match phase with
  | .minus => if b == 0x30 then some .zero else if isDigit b then some .whole else none
  | .zero => afterWhole b
  | .whole => if isDigit b then some .whole else afterWhole b
  | .point => if isDigit b then some .fraction else none
  | .fraction =>
    if isDigit b then some .fraction
    else if b == 0x65 || b == 0x45 then some .mark
    else none
  | .mark =>
    if b == 0x2b || b == 0x2d then some .sign else if isDigit b then some .exponent else none
  | .sign => if isDigit b then some .exponent else none
  | .exponent => if isDigit b then some .exponent else none

def complete : NumberPhase → Bool
  | .zero | .whole | .fraction | .exponent => true
  | .minus | .point | .mark | .sign => false

end NumberPhase

/-- What the lexer is in the middle of. Pieces and number texts are held in reverse. -/
inductive Mode where
  | between
  | word (rest : Bytes) (token : Token)
  | number (phase : NumberPhase) (text : Bytes)
  | string (pieces : List Piece)
  | escape (pieces : List Piece)
  | hex (pieces : List Piece) (missing : Nat) (value : UInt16)
  deriving DecidableEq, Repr

/-- What the lexer has read: finished tokens, the last one first, and what
it is in the middle of. -/
structure Scan where
  mode : Mode
  tokens : List Token
  deriving DecidableEq, Repr

namespace Scan

/-- Space, tab, line feed and carriage return. -/
def isBlank (b : UInt8) : Bool := b == 0x20 || b == 0x09 || b == 0x0a || b == 0x0d

def escaped? (b : UInt8) : Option UInt16 :=
  match b with
  | 0x22 => some 0x22
  | 0x5c => some 0x5c
  | 0x2f => some 0x2f
  | 0x62 => some 0x08
  | 0x66 => some 0x0c
  | 0x6e => some 0x0a
  | 0x72 => some 0x0d
  | 0x74 => some 0x09
  | _ => none

/-- Reads a byte that stands between two tokens or starts one. -/
def begin (tokens : List Token) (b : UInt8) : Option Scan :=
  if isBlank b then some ⟨.between, tokens⟩
  else
    match b with
    | 0x7b => some ⟨.between, .openBrace :: tokens⟩
    | 0x7d => some ⟨.between, .closeBrace :: tokens⟩
    | 0x5b => some ⟨.between, .openBracket :: tokens⟩
    | 0x5d => some ⟨.between, .closeBracket :: tokens⟩
    | 0x2c => some ⟨.between, .comma :: tokens⟩
    | 0x3a => some ⟨.between, .colon :: tokens⟩
    | 0x22 => some ⟨.string [], tokens⟩
    | 0x6e => some ⟨.word [0x75, 0x6c, 0x6c] .null, tokens⟩
    | 0x74 => some ⟨.word [0x72, 0x75, 0x65] (.bool true), tokens⟩
    | 0x66 => some ⟨.word [0x61, 0x6c, 0x73, 0x65] (.bool false), tokens⟩
    | _ => (NumberPhase.first b).map fun phase => ⟨.number phase [b], tokens⟩

def step (s : Scan) (b : UInt8) : Option Scan :=
  match s.mode with
  | .between => begin s.tokens b
  | .word rest token =>
    match rest with
    | [] => none
    | [last] => if b == last then some ⟨.between, token :: s.tokens⟩ else none
    | next :: rest => if b == next then some ⟨.word rest token, s.tokens⟩ else none
  | .number phase text =>
    match phase.next b with
    | some phase => some ⟨.number phase (b :: text), s.tokens⟩
    | none => if phase.complete then begin (.number text.reverse :: s.tokens) b else none
  | .string pieces =>
    if b == 0x22 then some ⟨.between, .string ⟨pieces.reverse⟩ :: s.tokens⟩
    else if b == 0x5c then some ⟨.escape pieces, s.tokens⟩
    else if b < 0x20 then none
    else some ⟨.string (.raw b :: pieces), s.tokens⟩
  | .escape pieces =>
    if b == 0x75 then some ⟨.hex pieces 3 0, s.tokens⟩
    else (escaped? b).map fun u => ⟨.string (.unit u :: pieces), s.tokens⟩
  | .hex pieces missing value =>
    match Bytes.hexValue? b with
    | none => none
    | some digit =>
      let value := 16 * value + digit.toUInt16
      match missing with
      | 0 => some ⟨.string (.unit value :: pieces), s.tokens⟩
      | missing + 1 => some ⟨.hex pieces missing value, s.tokens⟩

def finish (s : Scan) : Option (List Token) :=
  match s.mode with
  | .between => some s.tokens.reverse
  | .number phase text =>
    if phase.complete then some (Token.number text.reverse :: s.tokens).reverse else none
  | _ => none

end Scan

/-- The tokens of a text, unless some byte fits no token. -/
def Token.scan (bytes : Bytes) : Option (List Token) :=
  (bytes.foldlM Scan.step ⟨.between, []⟩).bind Scan.finish

end ExpiringStore
