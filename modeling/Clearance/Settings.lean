import Clearance.Policy

/-! The settings: what is logged and how, where the grants are, and the security policy. -/
namespace Clearance

inductive LogFormat where
  | json
  | pretty
deriving DecidableEq, Repr

namespace LogFormat

def name : LogFormat → String
  | json => "json"
  | pretty => "pretty"

/-- The names that are read. One format has two. -/
def names : List (String × LogFormat) := [("json", json), ("pretty", pretty), ("text", pretty)]

def toValue (f : LogFormat) : Json.Value := .text f.name

def reader : Json.Reader LogFormat := Json.variant names

end LogFormat

structure Telemetry where
  logLevel : String := "info"
  logFormat : LogFormat := .json
deriving DecidableEq, Repr

def Telemetry.record : Json.Record Telemetry where
  name := "TelemetryConfig"
  fields := [
    .of "log_level" (Json.text "a string") fun l t => { t with logLevel := l },
    .of "log_format" LogFormat.reader fun f t => { t with logFormat := f }]
  start := {}

/-- With authorization disabled every operation passes. -/
structure Authorization where
  enabled : Bool := true
  grantsFile : Option String := none
deriving DecidableEq, Repr

def Authorization.record : Json.Record Authorization where
  name := "AuthorizationConfig"
  fields := [
    .of "enabled" Json.boolean fun b a => { a with enabled := b },
    .of "grants_file" (Json.nullable (Json.text "path string"))
      fun p a => { a with grantsFile := p }]
  start := {}

structure Settings where
  telemetry : Telemetry := {}
  authorization : Authorization := {}
  security : Policy := {}
deriving DecidableEq, Repr

namespace Settings

def toValue (s : Settings) : Json.Value :=
  .object [
    ("telemetry", .object [
      ("log_level", .text s.telemetry.logLevel),
      ("log_format", s.telemetry.logFormat.toValue)]),
    ("authorization", .object [
      ("enabled", .boolean s.authorization.enabled),
      ("grants_file", .ofOption .text s.authorization.grantsFile)]),
    ("security", s.security.toValue)]

def record : Json.Record Settings where
  name := "AppConfig"
  fields := [
    .of "telemetry" Telemetry.record.reader fun t s => { s with telemetry := t },
    .of "authorization" Authorization.record.reader fun a s => { s with authorization := a },
    .of "security" Policy.record.reader fun p s => { s with security := p }]
  start := {}

end Settings
end Clearance
