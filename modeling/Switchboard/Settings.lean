import Switchboard.Json.Record
import Switchboard.Number.Literal
import Switchboard.Number.Width

/-!
# Container settings

How often and how far apart lifecycle states are polled, and which init
parameter marks a handler as restricted. Settings come from named variables, or
from a record that may leave any of them out.
-/

namespace Switchboard

inductive SettingsFault where
  | retriesUnreadable (text : String)
  | intervalUnreadable (text : String)
  | restrictedParamBlank
  | intervalZero
  deriving DecidableEq, Repr

structure Settings where
  pollRetries : Nat := 50
  pollInterval : Nat := 100
  restrictedParam : String := "restricted"
  deriving DecidableEq, Repr, Inhabited

namespace Settings

def retriesVariable : String := "BINDLET_LIFECYCLE_POLL_RETRIES"
def intervalVariable : String := "BINDLET_LIFECYCLE_POLL_INTERVAL_MS"
def restrictedVariable : String := "BINDLET_RESTRICTED_PARAM"

/-- The restricted parameter has a name and polls are some time apart. -/
def validate (s : Settings) : Except SettingsFault Unit :=
  if Text.IsBlank s.restrictedParam then .error .restrictedParamBlank
  else if s.pollInterval = 0 then .error .intervalZero
  else .ok ()

/-- An unsigned 64-bit integer, blanks around it aside. -/
def countText? (s : String) : Option Nat :=
  (Literal.unsigned? (Text.trimChars s.toList)).filter (· < Width.wordLimit)

/-- A variable that is absent or a count. -/
def readCount (fallback : Nat) (fault : String → SettingsFault) : Option String → Except SettingsFault Nat
  | none => .ok fallback
  | some text =>
    match countText? text with
    | some n => .ok n
    | none => .error (fault text)

/-- The defaults overridden by the variables that are set. -/
def ofVariables (lookup : String → Option String) : Except SettingsFault Settings := do
  let base : Settings := {}
  let retries ← readCount base.pollRetries .retriesUnreadable (lookup retriesVariable)
  let interval ← readCount base.pollInterval .intervalUnreadable (lookup intervalVariable)
  let restricted := ((lookup restrictedVariable).map Text.trim).getD base.restrictedParam
  let settings : Settings := ⟨retries, interval, restricted⟩
  settings.validate
  return settings

/-- Polling with an interval of seconds and nanoseconds, cut to milliseconds of 64 bits. -/
def withPolling (s : Settings) (retries seconds nanoseconds : Nat) : Settings :=
  { s with
    pollRetries := retries
    pollInterval := (seconds * 1000 + nanoseconds / 1000000) % Width.wordLimit }

/-! ## As a record -/

def fieldNames : List String :=
  ["lifecycle_poll_retries", "lifecycle_poll_interval_ms", "restricted_param"]

def ofJson? (surplus : Json.Surplus) (v : Json) : Option Settings := do
  let base : Settings := {}
  let fields ← v.record? surplus fieldNames
  let retries ← Json.defaulted base.pollRetries Json.count? "lifecycle_poll_retries" fields
  let interval ← Json.defaulted base.pollInterval Json.count? "lifecycle_poll_interval_ms" fields
  let restricted ← Json.defaulted base.restrictedParam Json.text? "restricted_param" fields
  return ⟨retries, interval, restricted⟩

def toJson (s : Settings) : Json :=
  .ofFields [("lifecycle_poll_retries", .int s.pollRetries),
    ("lifecycle_poll_interval_ms", .int s.pollInterval), ("restricted_param", .string s.restrictedParam)]

end Settings

def SettingsFault.message : SettingsFault → String
  | retriesUnreadable t => Settings.retriesVariable ++ " is not a count: " ++ t
  | intervalUnreadable t => Settings.intervalVariable ++ " is not a number of milliseconds: " ++ t
  | restrictedParamBlank => "restricted_param cannot be empty"
  | intervalZero => "lifecycle_poll_interval_ms must be > 0"

end Switchboard
