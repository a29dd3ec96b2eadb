import ExpiringStore.Json.Reader
import ExpiringStore.Proofs.Json.Lexer

/-!
# The reader reads every document

A document's tokens are read back as the document, whatever is open around it, and no two numbers
among them are neighbours. So every text of a document is read as that document.
-/
namespace ExpiringStore

namespace Reading

/-- At the start of an array a document is read as any of its items is. -/
theorem foldlM_arrayStart (document : Json) (around : List Context) :
    document.tokens.foldlM step (.arrayStart around) =
      document.tokens.foldlM step (.value (.item [] :: around)) := by
  cases document <;> rfl

mutual

/-- A document's tokens are read as the document. -/
theorem read_tokens (document : Json) (around : List Context) :
    document.tokens.foldlM step (.value around) = some (deliver document around) := by
  cases document with
  | null | bool | number | string => rfl
  | array items =>
    have opened : step (.value around) .openBracket = some (.arrayStart around) := rfl
    cases items with
    | nil => rfl
    | cons first rest =>
      have readFirst :=
        (foldlM_arrayStart first around).trans (read_tokens first (.item [] :: around))
      have readRest := read_items rest [first] around
      have closed : step (.afterItem (rest.reverse ++ [first]) around) .closeBracket =
          some (deliver (.array (first :: rest)) around) := by simp [step]
      exact foldlM_cons opened (foldlM_append (foldlM_append readFirst readRest)
        (foldlM_cons closed rfl))
  | object members =>
    have opened : step (.value around) .openBrace = some (.objectStart around) := rfl
    cases members with
    | nil => rfl
    | cons first rest =>
      obtain ⟨name, value⟩ := first
      have named : step (.objectStart around) (.string name) = some (.memberColon [] name around) :=
        rfl
      have readFirst := read_tokens value (.member [] name :: around)
      have readRest := read_members rest [(name, value)] around
      have closed : step (.afterMember (rest.reverse ++ [(name, value)]) around) .closeBrace =
          some (deliver (.object ((name, value) :: rest)) around) := by simp [step]
      exact foldlM_cons opened
        (foldlM_append (foldlM_append (foldlM_cons named (foldlM_cons rfl readFirst)) readRest)
        (foldlM_cons closed rfl))

theorem read_items (items earlier : List Json) (around : List Context) :
    ((Json.itemTokens items).flatMap fun part => .comma :: part).foldlM step
      (.afterItem earlier around) = some (.afterItem (items.reverse ++ earlier) around) := by
  cases items with
  | nil => rfl
  | cons first rest =>
    have readFirst := read_tokens first (.item earlier :: around)
    have readRest := read_items rest (first :: earlier) around
    rw [List.reverse_cons, List.append_assoc]
    exact foldlM_cons rfl (foldlM_append readFirst readRest)

theorem read_members (members earlier : List (Literal × Json)) (around : List Context) :
    ((Json.memberTokens members).flatMap fun part => .comma :: part).foldlM step
      (.afterMember earlier around) = some (.afterMember (members.reverse ++ earlier) around) := by
  cases members with
  | nil => rfl
  | cons first rest =>
    obtain ⟨name, value⟩ := first
    have readFirst := read_tokens value (.member earlier name :: around)
    have readRest := read_members rest ((name, value) :: earlier) around
    rw [List.reverse_cons, List.append_assoc]
    exact foldlM_cons rfl (foldlM_append (foldlM_cons rfl (foldlM_cons rfl readFirst)) readRest)

end

end Reading

namespace Token

mutual

/-- The tokens of a document keep numbers apart in front of tokens that could follow a number. -/
theorem apart_tokens (document : Json) {rest : List Token} (apart : Apart true rest) :
    Apart false (document.tokens ++ rest) := by
  cases document with
  | null | bool | string => exact ⟨nofun, apart.mono⟩
  | number => exact ⟨nofun, apart⟩
  | array items =>
    have closed : Apart true (.closeBracket :: rest) := ⟨nofun, apart.mono⟩
    rw [Json.tokens, List.cons_append, List.append_assoc]
    refine ⟨nofun, ?_⟩
    cases items with
    | nil => exact closed.mono
    | cons first others =>
      rw [Json.itemTokens, separated, List.append_assoc]
      exact apart_tokens first (apart_items others closed)
  | object members =>
    have closed : Apart true (.closeBrace :: rest) := ⟨nofun, apart.mono⟩
    rw [Json.tokens, List.cons_append, List.append_assoc]
    refine ⟨nofun, ?_⟩
    cases members with
    | nil => exact closed.mono
    | cons first others =>
      rw [Json.memberTokens, separated, List.append_assoc]
      exact ⟨nofun, nofun, apart_tokens first.2 (apart_members others closed)⟩

theorem apart_items (items : List Json) {rest : List Token} (apart : Apart true rest) :
    Apart true (((Json.itemTokens items).flatMap fun part => .comma :: part) ++ rest) := by
  cases items with
  | nil => exact apart
  | cons first others =>
    rw [Json.itemTokens, List.flatMap_cons, List.append_assoc]
    exact ⟨nofun, apart_tokens first (apart_items others apart)⟩

theorem apart_members (members : List (Literal × Json)) {rest : List Token}
    (apart : Apart true rest) :
    Apart true (((Json.memberTokens members).flatMap fun part => .comma :: part) ++ rest) := by
  cases members with
  | nil => exact apart
  | cons first others =>
    rw [Json.memberTokens, List.flatMap_cons, List.append_assoc]
    exact ⟨nofun, nofun, nofun, apart_tokens first.2 (apart_members others apart)⟩

end

end Token

namespace Json

theorem ofTokens?_tokens (document : Json) : ofTokens? document.tokens = some document := by
  rw [ofTokens?, Reading.read_tokens]
  rfl

/-- Every text of a document is read as that document. -/
theorem parse?_of_spelled {document : Json} {bytes : Bytes} (spelled : document.Spelled bytes) :
    parse? bytes = some document := by
  have apart := @Token.apart_tokens document [] trivial
  rw [List.append_nil] at apart
  rw [parse?, Token.scan_of_row spelled apart, Option.bind_some, ofTokens?_tokens]

/-- A text is that of one document only. -/
theorem Spelled.unique {document other : Json} {bytes : Bytes} (spelled : document.Spelled bytes)
    (spelledOther : other.Spelled bytes) : document = other :=
  Option.some.inj ((parse?_of_spelled spelled).symm.trans (parse?_of_spelled spelledOther))

end Json

end ExpiringStore
