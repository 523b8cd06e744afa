import Tabletop.Settings

/-! The server that offers the reading of dice notation as its one tool, and how it is launched. -/
namespace Tabletop

structure Server where
  name : String
  tools : List String
deriving DecidableEq, Repr

/-- A server that is given an empty name goes by the one that unnamed servers have. -/
def Server.ofSettings (unnamed : String) (settings : Settings) : Server where
  name := if settings.serverName = "" then unnamed else settings.serverName
  tools := ["parse_dice"]

/-- What is set up before serving. The name is the one asked for, also where the server goes by
another; the journal goes to the standard error stream, since the standard output may carry the
transport. -/
structure Launch where
  serverName : String
  server : Server
  transport : Settings.Transport
  logLevel : LogLevel
  logsToStandardError : Bool := true
deriving DecidableEq, Repr

def Launch.ofSettings (unnamed : String) (settings : Settings) : Launch where
  serverName := settings.serverName
  server := .ofSettings unnamed settings
  transport := settings.transport
  logLevel := settings.logLevel

end Tabletop
