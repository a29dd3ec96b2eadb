import ExpiringStore.Wire.Varint

/-!
# Message fields

A message is a row of numbered fields, each with a payload whose kind is written down with its
number, so that a reader can step over fields it does not know. Groups are the one kind that nests;
their content is stepped over here and only their presence is kept.
-/
namespace ExpiringStore

/-- What a field holds. -/
inductive Payload where
  | varint (value : Nat)
  | fixed64 (bytes : Bytes)
  | bytes (content : Bytes)
  | group
  | fixed32 (bytes : Bytes)
  deriving DecidableEq, Repr

/-- A numbered payload. -/
structure Field where
  number : Nat
  payload : Payload
  deriving DecidableEq, Repr

/-- A field that does not nest, or one of the two ends of a group. -/
inductive WireItem where
  | field (field : Field)
  | groupStart (number : Nat)
  | groupEnd (number : Nat)
  deriving DecidableEq, Repr

/-- The first `n` bytes and the others, if there are so many; `acc` goes before
the first, in reverse. -/
def Bytes.splitOnto (acc : Bytes) : Nat → Bytes → Option (Bytes × Bytes)
  | 0, rest => some (acc.reverse, rest)
  | _ + 1, [] => none
  | n + 1, b :: rest => Bytes.splitOnto (b :: acc) n rest

/-- The first `n` bytes and the others, if there are so many. -/
def Bytes.split? (n : Nat) (bytes : Bytes) : Option (Bytes × Bytes) := Bytes.splitOnto [] n bytes

theorem Bytes.length_of_splitOnto {acc first rest bytes : Bytes} {n : Nat}
    (h : Bytes.splitOnto acc n bytes = some (first, rest)) : rest.length ≤ bytes.length := by
  induction n generalizing acc bytes with
  | zero =>
    rw [Bytes.splitOnto] at h
    have same : bytes = rest := (Prod.mk.inj (Option.some.inj h)).2
    simp [same]
  | succ n ih =>
    cases bytes with
    | nil => simp [Bytes.splitOnto] at h
    | cons b tail =>
      rw [Bytes.splitOnto] at h
      have shorter := ih h
      simp only [List.length_cons]
      omega

theorem Bytes.splitOnto_append (acc first rest : Bytes) :
    Bytes.splitOnto acc first.length (first ++ rest) = some (acc.reverse ++ first, rest) := by
  induction first generalizing acc with
  | nil => simp [Bytes.splitOnto]
  | cons b tail ih =>
    simp only [List.length_cons, List.cons_append, Bytes.splitOnto, ih]
    simp

theorem Bytes.split?_append (first rest : Bytes) :
    Bytes.split? first.length (first ++ rest) = some (first, rest) :=
  Bytes.splitOnto_append [] first rest

namespace WireItem

/-- Reads the payload of a field, given its number and the kind written with it. -/
def readPayload (number kind : Nat) (bytes : Bytes) : Option (WireItem × Bytes) :=
  match kind with
  | 0 => (Varint.read bytes).map fun (value, rest) => (.field ⟨number, .varint value⟩, rest)
  | 1 => (Bytes.split? 8 bytes).map fun (content, rest) =>
      (.field ⟨number, .fixed64 content⟩, rest)
  | 2 => (Varint.read bytes).bind fun (length, rest) =>
      (Bytes.split? length rest).map fun (content, rest) =>
        (.field ⟨number, .bytes content⟩, rest)
  | 3 => some (.groupStart number, bytes)
  | 4 => some (.groupEnd number, bytes)
  | 5 => (Bytes.split? 4 bytes).map fun (content, rest) =>
      (.field ⟨number, .fixed32 content⟩, rest)
  | _ => none

/-- Reads one item. Its key is a number of at most 32 bits; the number of a field is not zero. -/
def read (bytes : Bytes) : Option (WireItem × Bytes) :=
  match Varint.read bytes with
  | none => none
  | some (key, rest) =>
    if UInt32.size ≤ key ∨ key / 8 = 0 then none else readPayload (key / 8) (key % 8) rest

theorem length_of_readPayload {number kind : Nat} {bytes rest : Bytes} {item : WireItem}
    (h : readPayload number kind bytes = some (item, rest)) : rest.length ≤ bytes.length := by
  unfold readPayload at h
  split at h
  · obtain ⟨⟨_, _⟩, hr, same⟩ := Option.map_eq_some_iff.mp h
    have shorter := Varint.length_of_read hr
    simp only [Prod.mk.injEq] at same
    rw [← same.2]
    omega
  · obtain ⟨⟨_, _⟩, hr, same⟩ := Option.map_eq_some_iff.mp h
    simp only [Prod.mk.injEq] at same
    rw [← same.2]
    exact Bytes.length_of_splitOnto hr
  · obtain ⟨⟨_, middle⟩, hr, h⟩ := Option.bind_eq_some_iff.mp h
    obtain ⟨⟨_, _⟩, hs, same⟩ := Option.map_eq_some_iff.mp h
    have shorter := Varint.length_of_read hr
    have notLonger := Bytes.length_of_splitOnto hs
    simp only [Prod.mk.injEq] at same
    rw [← same.2]
    omega
  · simp only [Option.some.injEq, Prod.mk.injEq] at h
    simp [h.2]
  · simp only [Option.some.injEq, Prod.mk.injEq] at h
    simp [h.2]
  · obtain ⟨⟨_, _⟩, hr, same⟩ := Option.map_eq_some_iff.mp h
    simp only [Prod.mk.injEq] at same
    rw [← same.2]
    exact Bytes.length_of_splitOnto hr
  · simp at h

theorem length_of_read {bytes rest : Bytes} {item : WireItem}
    (h : read bytes = some (item, rest)) : rest.length < bytes.length := by
  unfold read at h
  split at h
  · simp at h
  · rename_i hr
    split at h
    · simp at h
    · have shorter := Varint.length_of_read hr
      have notLonger := length_of_readPayload h
      omega

end WireItem

namespace Field

def maxDepth : Nat := 100

/-- Reads the rest of a message inside the open groups `groups`, the innermost first. Fields outside
all groups are kept, the last one first. -/
def collect (groups : List Nat) (fields : List Field) (bytes : Bytes) : Option (List Field) :=
  if bytes.isEmpty then
    if groups.isEmpty then some fields.reverse else none
  else
    match _h : WireItem.read bytes with
    | none => none
    | some (.groupEnd number, rest) =>
      match groups with
      | [] => none
      | innermost :: outer => if innermost = number then collect outer fields rest else none
    | some (.groupStart number, rest) =>
      if groups.length ≥ maxDepth then none
      else
        collect (number :: groups)
          (if groups.isEmpty then ⟨number, .group⟩ :: fields else fields) rest
    | some (.field field, rest) =>
      if groups.length ≥ maxDepth then none
      else collect groups (if groups.isEmpty then field :: fields else fields) rest
termination_by bytes.length
decreasing_by all_goals exact WireItem.length_of_read _h

/-- The fields of a message in the order in which they are written. -/
def parse? (message : Bytes) : Option (List Field) := collect [] [] message

end Field

end ExpiringStore
