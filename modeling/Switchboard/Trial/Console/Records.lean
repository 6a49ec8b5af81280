import Switchboard.Json.Compact
import Switchboard.Trial.Console.Basic

/-!
# What classes and hooks recorded

The log of a class, the tally of what its handlers were made to do, and what a
hook was asked and made to refuse. All are read off the acts of the store.
-/

namespace Switchboard.Trial

open Container (Act Store)

/-! ## Logs -/

def instanceNumber (s : Store) (i : InstanceId) : String :=
  toString (((s.instance? i).map (·.number)).getD 0)

def initLine (number : String) (config : HandlerConfig) : String :=
  "init " ++ number ++ " " ++ config.context ++ "/" ++ config.handler ++ " " ++
    (Json.ofTextFields config.params.entries).compact ++ " " ++ ",".intercalate config.params.names

/-- The line that a handler of a class writes for an act. -/
def actLine? (s : Store) (cls : ClassId) : Act → Option String
  | .constructing c n => if c = cls then some ("construct " ++ toString n) else none
  | .initializing c i config => if c = cls then some (initLine (instanceNumber s i) config) else none
  | .processing c i => if c = cls then some ("process " ++ instanceNumber s i) else none
  | .destroying c i => if c = cls then some ("destroy " ++ instanceNumber s i) else none
  | _ => none

/-- The log of a class: what its handlers did, or what its endpoint was asked to do. -/
def classLog (s : Store) (cls : ClassId) : List String :=
  match (s.classOf cls).duty with
  | .answer _ => s.acts.reverse.filterMap (actLine? s cls)
  | .remote endpoint =>
    ((s.remotes.get? endpoint).map fun r => r.ledger.happenings.reverse.filterMap serviceLine?).getD []

/-! ## Tallies -/

def processor? (cls : ClassId) : Act → Option InstanceId
  | .processing c i => if c = cls then some i else none
  | _ => none

/-- How many handlers were built, initialized, made to process and destroyed, and how many processed. -/
def classTally (s : Store) (cls : ClassId) : List Nat :=
  let processors := s.acts.filterMap (processor? cls)
  [s.acts.countP fun | .constructing c _ => c = cls | _ => false,
    s.acts.countP fun | .initializing c .. => c = cls | _ => false,
    processors.length,
    s.acts.countP fun | .destroying c _ => c = cls | _ => false,
    processors.eraseDups.length]

/-! ## Hooks -/

def askedOf? (hook : HookId) : Act → Option String
  | .asked h handler _ => if h = hook then some handler else none
  | _ => none

def refusedBy? (hook : HookId) : Act → Option String
  | .refused h handler => if h = hook then some handler else none
  | _ => none

inductive RecordCommand where
  | log (cls : String)
  | probe (cls : String)
  | recording (hook : String) (allow : Option Bool)

namespace Console

/-- The lines that the log of a class has gained since it was last shown. -/
def showLog (c : Console) (cls : ClassId) : Console × Answer :=
  let log := classLog c.store cls
  ({ c with shown := (cls, log.length) :: c.shown }, .lines (log.drop ((c.shown.lookup cls).getD 0)))

def setVerdict (c : Console) (hook : HookId) : Option Bool → Console
  | none => c
  | some allow => c.change fun s => { s with hooks := s.hooks.update hook fun _ => recordingHook allow }

def record (c : Console) : RecordCommand → Console × Answer
  | .log cls => c.withClass cls fun k => c.showLog k
  | .probe cls => c.withClass cls fun k => (c, .tally (classTally c.store k))
  | .recording hook allow => c.look c.hooks hook fun h =>
    let acts := c.store.acts.reverse
    (c.setVerdict h allow, .recorded (acts.filterMap (askedOf? h)) (acts.filterMap (refusedBy? h)))

end Console
end Switchboard.Trial
