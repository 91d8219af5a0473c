import RouteAtlas.Text.Basic

/-!
# Log records

A record has a level, the channel of the part that reports, and a message.
-/

namespace RouteAtlas.Log

inductive Level where
  | debug
  | info
  | warning
  | error
deriving DecidableEq, Repr

inductive Channel where
  | aggregator
  | classifier
  | signature
  | discovery
  | orchestrator
deriving DecidableEq, Repr

structure Record where
  level : Level
  channel : Channel
  message : Text
deriving DecidableEq, Repr

def Level.name : Level → Text
  | debug => "DEBUG"
  | info => "INFO"
  | warning => "WARNING"
  | error => "ERROR"

def Channel.name : Channel → Text
  | aggregator => "routegen.aggregator"
  | classifier => "routegen.classifier"
  | signature => "routegen.signature"
  | discovery => "routegen.discovery"
  | orchestrator => "routegen.orchestrator"

def Record.line (r : Record) : Text :=
  r.level.name ++ ' ' :: r.channel.name ++ ": " ++ r.message

def Record.consoleLine (r : Record) : Text := "[routegen] " ++ r.level.name ++ ' ' :: r.message

/-- The record is shown on the console, where the lowest level is shown only on request. -/
def Record.shown (verbose : Bool) (r : Record) : Bool := verbose || r.level != .debug

end RouteAtlas.Log
