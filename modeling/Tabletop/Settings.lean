import Tabletop.LogLevel
import Tabletop.Text.Quoted

/-! Settings of the server. They are given by name, each of them optional and each of any kind, or
read from variables of the environment; every field at fault is reported, in the order of the
fields. -/
namespace Tabletop

namespace Settings

inductive Transport where
  | stdio
  | sse
  | streamableHttp
deriving DecidableEq, Repr

def Transport.label : Transport → String
  | .stdio => "stdio"
  | .sse => "sse"
  | .streamableHttp => "streamable-http"

def Transport.ofLabel? : String → Option Transport
  | "stdio" => some .stdio
  | "sse" => some .sse
  | "streamable-http" => some .streamableHttp
  | _ => none

end Settings

structure Settings where
  serverName : String := "mcp-dice-notation"
  transport : Settings.Transport := .stdio
  logLevel : LogLevel := .warning
deriving DecidableEq, Repr

namespace Settings

inductive Given (α : Type) where
  | text (value : String)
  | foreign (value : α)

inductive Field where
  | serverName
  | transport
  | logLevel
deriving DecidableEq, Repr

def Field.name : Field → String
  | .serverName => "server_name"
  | .transport => "transport"
  | .logLevel => "log_level"

def Field.variable : Field → String
  | .serverName => "DICE_NOTATION_SERVER_NAME"
  | .transport => "DICE_NOTATION_TRANSPORT"
  | .logLevel => "DICE_NOTATION_LOG_LEVEL"

inductive Problem where
  | notText
  | transportUnknown
  | logLevelUnknown (level : String)
deriving DecidableEq, Repr

def Problem.kind : Problem → String
  | .notText => "string_type"
  | .transportUnknown => "literal_error"
  | .logLevelUnknown _ => "value_error"

def Problem.message : Problem → String
  | .notText => "Input should be a valid string"
  | .transportUnknown => "Input should be 'stdio', 'sse' or 'streamable-http'"
  | .logLevelUnknown level => "Value error, unknown log level " ++ Text.quote level

structure Fault (α : Type) where
  field : Field
  problem : Problem
  given : Given α

structure Form (α : Type) where
  serverName : Option (Given α) := none
  transport : Option (Given α) := none
  logLevel : Option (Given α) := none

variable {α : Type}

def readServerName : Option (Given α) → Except (Fault α) String
  | none => .ok ({} : Settings).serverName
  | some (.text name) => .ok name
  | some given => .error ⟨.serverName, .notText, given⟩

def readTransport : Option (Given α) → Except (Fault α) Transport
  | none => .ok ({} : Settings).transport
  | some (.text label) =>
    match Transport.ofLabel? label with
    | some transport => .ok transport
    | none => .error ⟨.transport, .transportUnknown, .text label⟩
  | some given => .error ⟨.transport, .transportUnknown, given⟩

def readLogLevel : Option (Given α) → Except (Fault α) LogLevel
  | none => .ok ({} : Settings).logLevel
  | some (.text level) =>
    match LogLevel.read? level with
    | some level => .ok level
    | none => .error ⟨.logLevel, .logLevelUnknown level, .text level⟩
  | some given => .error ⟨.logLevel, .notText, given⟩

def faults {β : Type} : Except (Fault α) β → List (Fault α)
  | .ok _ => []
  | .error fault => [fault]

def Form.check (form : Form α) : Except (List (Fault α)) Settings :=
  let serverName := readServerName form.serverName
  let transport := readTransport form.transport
  let logLevel := readLogLevel form.logLevel
  match serverName, transport, logLevel with
  | .ok serverName, .ok transport, .ok logLevel => .ok ⟨serverName, transport, logLevel⟩
  | _, _, _ => .error (faults serverName ++ faults transport ++ faults logLevel)

abbrev Environment := String → Option String

def Form.ofEnvironment (environment : Environment) : Form Empty where
  serverName := (environment Field.serverName.variable).map .text
  transport := (environment Field.transport.variable).map .text
  logLevel := (environment Field.logLevel.variable).map .text

def load (environment : Environment) : Except (List (Fault Empty)) Settings :=
  (Form.ofEnvironment environment).check

theorem Transport.ofLabel?_label (transport : Transport) :
    Transport.ofLabel? transport.label = some transport := by
  cases transport <;> rfl

end Settings
end Tabletop
