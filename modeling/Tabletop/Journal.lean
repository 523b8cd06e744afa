import Tabletop.LogLevel
import Tabletop.Reading

/-! The journal: what is recorded when a text is read. Reading records what it accepts and refuses,
assembling what it cannot interpret; a numeral of too many digits leaves no entry. -/
namespace Tabletop.Journal

inductive Source where
  | reading
  | assembling
deriving DecidableEq, Repr

def Source.label : Source → String
  | .reading => "mcp_dice_notation.parser"
  | .assembling => "mcp_dice_notation.builder"

structure Entry where
  source : Source
  level : LogLevel
  message : String
deriving DecidableEq, Repr

def Entry.line (entry : Entry) : String :=
  entry.level.label ++ ":" ++ entry.source.label ++ ":" ++ entry.message

def accepted (text : String) (reading : Reading) : Entry :=
  ⟨.reading, .debug, "Parsed " ++ Text.quote text ++ " into " ++
    Numeral.describe reading.rolls.length ++ " dice roll(s)"⟩

def refused (rejection : Rejection) : Entry :=
  ⟨.reading, .debug, "Rejected " ++ Text.quote rejection.text ++ " at position " ++
    Numeral.describe rejection.position ++ ": " ++ rejection.expected.message⟩

def uninterpreted (violation : Violation) : Entry :=
  ⟨.assembling, .error, "Builder cannot interpret " ++ violation.rule.name ++ " node " ++
    Text.quote violation.text ++ ": " ++ violation.reason.message⟩

def entries (text : String) : Except Failure Reading → List Entry
  | .ok reading => [accepted text reading]
  | .error (.rejected rejection) => [refused rejection]
  | .error (.violated violation) => [uninterpreted violation]
  | .error (.overlong _) => []
  | .error (.faulty _) => []

def shown (level : LogLevel) (entries : List Entry) : List Entry :=
  entries.filter fun entry => level.severity ≤ entry.level.severity

end Tabletop.Journal
