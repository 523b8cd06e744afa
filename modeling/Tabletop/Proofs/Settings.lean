import Mathlib.Data.List.Basic
import Tabletop.Proofs.LogLevel
import Tabletop.Settings

/-! Settings from an environment. Each field has the texts that it takes and the form in which it
holds them; an environment makes settings exactly if every field takes what is given for it. -/
namespace Tabletop.Settings

namespace Transport

def labels : List String := ["stdio", "sse", "streamable-http"]

theorem ofLabel?_eq_some (text : String) (transport : Transport) :
    ofLabel? text = some transport ↔ text = transport.label := by
  constructor
  · intro found
    unfold ofLabel? at found
    split at found <;> cases found <;> rfl
  · rintro rfl
    exact ofLabel?_label transport

def all : List Transport := [.stdio, .sse, .streamableHttp]

theorem mem_all (transport : Transport) : transport ∈ all := by
  cases transport <;> decide

theorem mem_labels (text : String) : text ∈ labels ↔ ∃ transport : Transport, transport.label = text := by
  rw [show labels = all.map label by decide, List.mem_map]
  simp only [mem_all, true_and]

end Transport

namespace Field

def all : List Field := [.serverName, .transport, .logLevel]

theorem mem_all (field : Field) : field ∈ all := by
  cases field <;> decide

/-- The texts that a field takes. -/
def Takes : Field → String → Prop
  | .serverName, _ => True
  | .transport, text => text ∈ Transport.labels
  | .logLevel, text => LogLevel.normal text ∈ LogLevel.names

instance : (field : Field) → (text : String) → Decidable (field.Takes text)
  | .serverName, _ => .isTrue trivial
  | .transport, text => inferInstanceAs (Decidable (text ∈ Transport.labels))
  | .logLevel, text => inferInstanceAs (Decidable (LogLevel.normal text ∈ LogLevel.names))

def held : Field → String → String
  | .logLevel, text => LogLevel.normal text
  | _, text => text

def fallback : Field → String
  | .serverName => "mcp-dice-notation"
  | .transport => "stdio"
  | .logLevel => "WARNING"

def problem : Field → String → Problem
  | .serverName, _ => .notText
  | .transport, _ => .transportUnknown
  | .logLevel, text => .logLevelUnknown text

def Refused (environment : Environment) (field : Field) : Prop :=
  ∃ text ∈ environment field.variable, ¬field.Takes text

instance (environment : Environment) (field : Field) : Decidable (field.Refused environment) :=
  inferInstanceAs (Decidable (∃ text ∈ environment field.variable, ¬field.Takes text))

/-- What the field holds of the environment. -/
def assigned (environment : Environment) (field : Field) : String :=
  match environment field.variable with
  | some text => field.held text
  | none => field.fallback

def fault? (environment : Environment) (field : Field) : Option (Fault Empty) :=
  (environment field.variable).bind fun text =>
    if field.Takes text then none else some ⟨field, field.problem text, .text text⟩

theorem fault?_eq_none (environment : Environment) (field : Field) :
    field.fault? environment = none ↔ ¬field.Refused environment := by
  cases given : environment field.variable <;> simp [fault?, Refused, given]

end Field

def text (settings : Settings) : Field → String
  | .serverName => settings.serverName
  | .transport => settings.transport.label
  | .logLevel => settings.logLevel.label

theorem text_injective (first second : Settings) (same : ∀ field, first.text field = second.text field) :
    first = second := by
  obtain ⟨name, transport, level⟩ := first
  obtain ⟨name', transport', level'⟩ := second
  have sameTransport : some transport = some transport' := by
    rw [← Transport.ofLabel?_label, ← Transport.ofLabel?_label]
    exact congrArg Transport.ofLabel? (same .transport)
  have sameLevel : some level = some level' := by
    rw [← LogLevel.ofLabel?_label, ← LogLevel.ofLabel?_label]
    exact congrArg LogLevel.ofLabel? (same .logLevel)
  rw [Option.some.inj sameTransport, Option.some.inj sameLevel, show name = name' from same .serverName]

theorem takes_text (settings : Settings) (field : Field) : field.Takes (settings.text field) := by
  cases field with
  | serverName => trivial
  | transport => exact (Transport.mem_labels _).mpr ⟨_, rfl⟩
  | logLevel => exact (LogLevel.mem_names _).mpr ⟨_, (LogLevel.normal_label _).symm⟩

theorem held_text (settings : Settings) (field : Field) :
    field.held (settings.text field) = settings.text field := by
  cases field with
  | serverName => rfl
  | transport => rfl
  | logLevel => exact LogLevel.normal_label _

variable {β : Type}

structure Reads (environment : Environment) (field : Field) (written : β → String)
    (outcome : Except (Fault Empty) β) : Prop where
  faults : faults outcome = (field.fault? environment).toList
  holds : ∀ value, outcome = .ok value → written value = field.assigned environment

theorem reads_absent (environment : Environment) (field : Field) (written : β → String) (value : β)
    (absent : environment field.variable = none) (same : written value = field.fallback) :
    Reads environment field written (.ok value) := by
  refine ⟨?_, ?_⟩
  · rw [Field.fault?, absent]
    rfl
  · rintro _ ⟨⟩
    rw [Field.assigned, absent, same]

theorem reads_taken (environment : Environment) (field : Field) (written : β → String) (value : β)
    (text : String) (given : environment field.variable = some text) (takes : field.Takes text)
    (same : written value = field.held text) : Reads environment field written (.ok value) := by
  refine ⟨?_, ?_⟩
  · rw [Field.fault?, given, Option.bind_some, if_pos takes]
    rfl
  · rintro _ ⟨⟩
    rw [Field.assigned, given, same]

theorem reads_refused (environment : Environment) (field : Field) (written : β → String) (text : String)
    (given : environment field.variable = some text) (refuses : ¬field.Takes text) :
    Reads environment field written (.error ⟨field, field.problem text, .text text⟩) := by
  refine ⟨?_, ?_⟩
  · rw [Field.fault?, given, Option.bind_some, if_neg refuses]
    rfl
  · rintro _ ⟨⟩

theorem reads_named (environment : Environment) (field : Field) (written : β → String)
    (read? : String → Option β) (text : String) (outcome : Except (Fault Empty) β)
    (given : environment field.variable = some text)
    (reading : ∀ value, read? text = some value ↔ field.held text = written value)
    (named : field.Takes text ↔ ∃ value, written value = field.held text)
    (found : ∀ value, read? text = some value → outcome = .ok value)
    (missed : read? text = none → outcome = .error ⟨field, field.problem text, .text text⟩) :
    Reads environment field written outcome := by
  cases result : read? text with
  | some value =>
    have same := (reading value).mp result
    rw [found value result]
    exact reads_taken environment field written value text given (named.mpr ⟨value, same.symm⟩) same.symm
  | none =>
    rw [missed result]
    refine reads_refused environment field written text given fun takes => ?_
    obtain ⟨value, same⟩ := named.mp takes
    rw [(reading value).mpr same.symm] at result
    cases result

theorem reads_serverName (environment : Environment) :
    Reads environment .serverName id (readServerName ((environment Field.serverName.variable).map .text)) := by
  cases given : environment Field.serverName.variable with
  | none => exact reads_absent environment .serverName id _ given rfl
  | some name => exact reads_taken environment .serverName id name name given trivial rfl

theorem reads_transport (environment : Environment) :
    Reads environment .transport Transport.label
      (readTransport ((environment Field.transport.variable).map .text)) := by
  cases given : environment Field.transport.variable with
  | none => exact reads_absent environment .transport _ _ given rfl
  | some label =>
    refine reads_named environment .transport _ Transport.ofLabel? label _ given
      (Transport.ofLabel?_eq_some label) (Transport.mem_labels label) ?_ ?_
    · intro transport found
      rw [Option.map_some, readTransport, found]
    · intro missed
      rw [Option.map_some, readTransport, missed]
      rfl

theorem reads_logLevel (environment : Environment) :
    Reads environment .logLevel LogLevel.label
      (readLogLevel ((environment Field.logLevel.variable).map .text)) := by
  cases given : environment Field.logLevel.variable with
  | none => exact reads_absent environment .logLevel _ _ given rfl
  | some text =>
    refine reads_named environment .logLevel _ LogLevel.read? text _ given
      (LogLevel.read?_eq_some text) (LogLevel.mem_names (LogLevel.normal text)) ?_ ?_
    · intro level found
      rw [Option.map_some, readLogLevel, found]
    · intro missed
      rw [Option.map_some, readLogLevel, missed]
      rfl

theorem ok_of_faults (outcome : Except (Fault Empty) β) (sound : faults outcome = []) :
    ∃ value, outcome = .ok value := by
  cases outcome with
  | ok value => exact ⟨value, rfl⟩
  | error fault => cases sound

def report (environment : Environment) : List (Fault Empty) :=
  Field.all.filterMap (·.fault? environment)

theorem report_eq_nil (environment : Environment) :
    report environment = [] ↔ ∀ field : Field, ¬field.Refused environment := by
  simp only [report, List.filterMap_eq_nil_iff, Field.mem_all, forall_const, Field.fault?_eq_none]

theorem report_ne_nil (environment : Environment) :
    report environment ≠ [] ↔ ∃ field : Field, field.Refused environment := by
  rw [Ne, report_eq_nil, not_forall_not]

/-- All that loading can do: it makes the settings that the environment assigns, or it reports every
fault. -/
theorem load_cases (environment : Environment) :
    (∃ settings, load environment = .ok settings ∧ report environment = [] ∧
      ∀ field, settings.text field = field.assigned environment) ∨
    load environment = .error (report environment) ∧ report environment ≠ [] := by
  have name := reads_serverName environment
  have transport := reads_transport environment
  have level := reads_logLevel environment
  have reported : report environment =
      faults (readServerName ((environment Field.serverName.variable).map .text)) ++
      faults (readTransport ((environment Field.transport.variable).map .text)) ++
      faults (readLogLevel ((environment Field.logLevel.variable).map .text)) := by
    rw [name.faults, transport.faults, level.faults, report, List.filterMap_eq_flatMap_toList]
    simp only [Field.all, List.flatMap_cons, List.flatMap_nil, List.append_nil, List.append_assoc]
  rw [reported]
  simp only [load, Form.check, Form.ofEnvironment]
  split
  · rename_i serverName transport' level' readName readTransport readLevel
    refine .inl ⟨_, rfl, ?_, ?_⟩
    · rw [readName, readTransport, readLevel]
      rfl
    · intro field
      cases field with
      | serverName => exact name.holds _ readName
      | transport => exact transport.holds _ readTransport
      | logLevel => exact level.holds _ readLevel
  · rename_i unread
    -- A field without a fault is read, so not every field is without one.
    refine .inr ⟨rfl, fun sound => ?_⟩
    rw [List.append_eq_nil_iff, List.append_eq_nil_iff] at sound
    obtain ⟨⟨soundName, soundTransport⟩, soundLevel⟩ := sound
    obtain ⟨_, readName⟩ := ok_of_faults _ soundName
    obtain ⟨_, readTransport⟩ := ok_of_faults _ soundTransport
    obtain ⟨_, readLevel⟩ := ok_of_faults _ soundLevel
    exact unread _ _ _ readName readTransport readLevel

/-- An environment makes settings exactly if no field refuses what is given for it, and the settings
are those whose fields hold what is assigned to them. -/
theorem load_ok_iff (environment : Environment) (settings : Settings) :
    load environment = .ok settings ↔
      (∀ field : Field, ¬field.Refused environment) ∧
      ∀ field : Field, settings.text field = field.assigned environment := by
  rw [← report_eq_nil]
  rcases load_cases environment with ⟨made, loaded, sound, holds⟩ | ⟨loaded, unsound⟩
  · rw [loaded]
    constructor
    · rintro ⟨⟩
      exact ⟨sound, holds⟩
    · rintro ⟨_, same⟩
      rw [text_injective made settings fun field => (holds field).trans (same field).symm]
  · rw [loaded]
    exact ⟨nofun, fun made => absurd made.1 unsound⟩

theorem load_error_iff (environment : Environment) (faults : List (Fault Empty)) :
    load environment = .error faults ↔
      faults = report environment ∧ ∃ field : Field, field.Refused environment := by
  rw [← report_ne_nil]
  rcases load_cases environment with ⟨made, loaded, sound, _⟩ | ⟨loaded, unsound⟩
  · rw [loaded]
    exact ⟨nofun, fun failed => absurd sound failed.2⟩
  · rw [loaded]
    constructor
    · rintro ⟨⟩
      exact ⟨rfl, unsound⟩
    · rintro ⟨rfl, _⟩
      rfl

theorem refused_iff (environment : Environment) :
    (∃ field : Field, field.Refused environment) ↔
      (∃ label ∈ environment Field.transport.variable, label ∉ Transport.labels) ∨
      ∃ level ∈ environment Field.logLevel.variable, LogLevel.normal level ∉ LogLevel.names := by
  constructor
  · rintro ⟨field, text, given, refuses⟩
    cases field with
    | serverName => exact absurd trivial refuses
    | transport => exact .inl ⟨text, given, refuses⟩
    | logLevel => exact .inr ⟨text, given, refuses⟩
  · rintro (refused | refused)
    · exact ⟨.transport, refused⟩
    · exact ⟨.logLevel, refused⟩

theorem fields_report (environment : Environment) :
    (report environment).map Fault.field = Field.all.filter (·.Refused environment) := by
  rw [report, List.map_filterMap, ← List.filterMap_eq_filter]
  refine List.filterMap_congr fun field _ => ?_
  cases given : environment field.variable with
  | none => simp [Option.guard, Field.fault?, Field.Refused, given]
  | some text =>
    by_cases takes : field.Takes text <;>
      simp [Option.guard, Field.fault?, Field.Refused, given, takes]

theorem fault?_eq_some (environment : Environment) (field : Field) (fault : Fault Empty)
    (reported : field.fault? environment = some fault) :
    ∃ text ∈ environment fault.field.variable, ¬fault.field.Takes text ∧
      fault.problem = fault.field.problem text ∧ fault.given = .text text := by
  obtain ⟨text, given, found⟩ := Option.bind_eq_some_iff.mp reported
  split at found
  · cases found
  · rename_i refuses
    cases found
    exact ⟨text, given, refuses, rfl, rfl⟩

theorem load_text (settings : Settings) (environment : Environment)
    (written : ∀ field : Field, environment field.variable = some (settings.text field)) :
    load environment = .ok settings := by
  rw [load_ok_iff]
  refine ⟨?_, ?_⟩
  · rintro field ⟨text, given, refuses⟩
    rw [written field] at given
    cases given
    exact refuses (settings.takes_text field)
  · intro field
    rw [Field.assigned, written field]
    exact (settings.held_text field).symm

/-- Only the three variables count. Loading fails exactly if the transport is given and none of its
labels, or the level is given and its normal form is no name of a level; the report names the fields
at fault in their order, with what they were given. Settings that are made hold the normal forms of
what was given or the fallbacks, and they are made again from their own texts. -/
theorem load_exact (environment : Environment) :
    (∀ other : Environment, (∀ field : Field, other field.variable = environment field.variable) →
      load other = load environment) ∧
    ((∃ faults, load environment = .error faults) ↔
      (∃ label ∈ environment Field.transport.variable, label ∉ Transport.labels) ∨
      ∃ level ∈ environment Field.logLevel.variable, LogLevel.normal level ∉ LogLevel.names) ∧
    (∀ faults, load environment = .error faults →
      faults.map Fault.field = Field.all.filter (·.Refused environment) ∧
      ∀ fault ∈ faults, ∃ text ∈ environment fault.field.variable, ¬fault.field.Takes text ∧
        fault.problem = fault.field.problem text ∧ fault.given = .text text) ∧
    ∀ settings, load environment = .ok settings →
      settings.logLevel.label ∈ LogLevel.names ∧
      (∀ field : Field, settings.text field = field.assigned environment) ∧
      ∀ again : Environment, (∀ field : Field, again field.variable = some (settings.text field)) →
        load again = .ok settings := by
  refine ⟨?_, ?_, ?_, ?_⟩
  · intro other same
    simp only [load, Form.ofEnvironment, same]
  · rw [← refused_iff]
    simp only [load_error_iff, exists_eq_left]
  · intro faults failed
    obtain ⟨rfl, _⟩ := (load_error_iff environment faults).mp failed
    refine ⟨fields_report environment, fun fault member => ?_⟩
    obtain ⟨field, _, reported⟩ := List.mem_filterMap.mp member
    exact fault?_eq_some environment field fault reported
  · intro settings loaded
    obtain ⟨_, holds⟩ := (load_ok_iff environment settings).mp loaded
    exact ⟨(LogLevel.mem_names _).mpr ⟨_, rfl⟩, holds, settings.load_text⟩

/-- Labels of transports count letter by letter, and one fault does not hide another. -/
example :
    let environment : Environment
      | "DICE_NOTATION_TRANSPORT" => some "SSE"
      | "DICE_NOTATION_LOG_LEVEL" => some "loud"
      | _ => none
    (match load environment with
      | .ok _ => []
      | .error faults => faults.map Fault.field) = [.transport, .logLevel] := by
  decide +kernel

end Tabletop.Settings
