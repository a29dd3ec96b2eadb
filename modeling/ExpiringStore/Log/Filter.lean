import ExpiringStore.Log.Event

/-!
# Log filters

A filter is a comma-separated list of directives: a level for all events, a target with a level, or
a target alone, which lets all its events through. A directive holds for every target that begins
with its own; of those that hold, the one with the longest target decides.
-/
namespace ExpiringStore

/-- The least important level that passes, if any does. -/
inductive Threshold where
  | off
  | atLeast (level : Level)
  deriving DecidableEq, Repr

/-- A threshold for the targets that begin with `target`. -/
structure Directive where
  target : String
  threshold : Threshold
  deriving DecidableEq, Repr

/-- A list of directives, the later ones replacing earlier ones with the same target. -/
structure LogFilter where
  directives : List Directive
  deriving DecidableEq, Repr

namespace Threshold

def ofString? (text : String) : Option Threshold :=
  match text.toLower with
  | "off" | "0" => some .off
  | "error" | "1" => some (.atLeast .error)
  | "warn" | "2" => some (.atLeast .warn)
  | "info" | "3" => some (.atLeast .info)
  | "debug" | "4" => some (.atLeast .debug)
  | "trace" | "5" => some (.atLeast .trace)
  | _ => none

def passes (t : Threshold) (level : Level) : Bool :=
  match t with
  | .off => false
  | .atLeast least => decide (least.rank ≤ level.rank)

end Threshold

namespace Directive

def isTargetChar (c : Char) : Bool := c.isAlphanum || c == '_' || c == ':' || c == '-'

def ofString? (text : String) : Option Directive :=
  match Threshold.ofString? text with
  | some threshold => some ⟨"", threshold⟩
  | none =>
    let target := text.toList.takeWhile isTargetChar
    if target.isEmpty then none
    else
      match text.toList.dropWhile isTargetChar with
      | [] => some ⟨text, .atLeast .trace⟩
      | ['='] => some ⟨String.ofList target, .atLeast .trace⟩
      | '=' :: level =>
        (Threshold.ofString? (String.ofList level)).map fun threshold =>
          ⟨String.ofList target, threshold⟩
      | _ => none

def holdsFor (d : Directive) (target : String) : Bool :=
  d.target.toList.isPrefixOf target.toList

end Directive

namespace LogFilter

/-- The filter of a program that is told nothing: everything from the level INFO on. -/
def standard : LogFilter :=
  ⟨["stashr", "stashr_server", "stashr_core", "tonic"].map fun target => ⟨target, .atLeast .info⟩⟩

/-- Reads a filter. One without directives lets errors through. -/
def parse? (text : String) : Option LogFilter :=
  match (text.splitOn ",").filter (fun part => !part.isEmpty) with
  | [] => some ⟨[⟨"", .atLeast .error⟩]⟩
  | parts => (parts.mapM Directive.ofString?).map LogFilter.mk

/-- The filter that a variable's value asks for; one that cannot be read counts as none. -/
def ofVariable (value : Option String) : LogFilter := (value.bind parse?).getD standard

def deciding? (f : LogFilter) (target : String) : Option Directive :=
  (f.directives.filter fun d => d.holdsFor target).foldl
    (fun best d =>
      match best with
      | some longest => if longest.target.length ≤ d.target.length then some d else best
      | none => some d)
    none

def passes (f : LogFilter) (e : Event) : Bool :=
  match f.deciding? e.target with
  | some d => d.threshold.passes e.level
  | none => false

end LogFilter

end ExpiringStore
