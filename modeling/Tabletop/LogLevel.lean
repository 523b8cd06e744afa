import Tabletop.Text.Characters

/-! Levels of the journal, under the names by which they are set. Two pairs of names mean the same
severity. -/
namespace Tabletop

inductive LogLevel where
  | critical
  | fatal
  | error
  | warn
  | warning
  | info
  | debug
  | notset
deriving DecidableEq, Repr

namespace LogLevel

def label : LogLevel → String
  | .critical => "CRITICAL"
  | .fatal => "FATAL"
  | .error => "ERROR"
  | .warn => "WARN"
  | .warning => "WARNING"
  | .info => "INFO"
  | .debug => "DEBUG"
  | .notset => "NOTSET"

def ofLabel? : String → Option LogLevel
  | "CRITICAL" => some .critical
  | "FATAL" => some .fatal
  | "ERROR" => some .error
  | "WARN" => some .warn
  | "WARNING" => some .warning
  | "INFO" => some .info
  | "DEBUG" => some .debug
  | "NOTSET" => some .notset
  | _ => none

def read? (text : String) : Option LogLevel :=
  ofLabel? (String.ofList ((Text.trim Text.isBlank text.toList).flatMap Text.capital))

def severity : LogLevel → Nat
  | .critical => 50
  | .fatal => 50
  | .error => 40
  | .warn => 30
  | .warning => 30
  | .info => 20
  | .debug => 10
  | .notset => 0

theorem ofLabel?_label (level : LogLevel) : ofLabel? level.label = some level := by
  cases level <;> rfl

end LogLevel
end Tabletop
