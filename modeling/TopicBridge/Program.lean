import TopicBridge.CommandLine
import TopicBridge.Host.Stdio
import TopicBridge.Parameter.Document

/-! What the commands do. Files, links and time are outside: a file is looked up, a link opens in
given surroundings, and what arrives on it is fed in between turns. -/
namespace TopicBridge.Program

def name : String := "serialbridge"
def release : String := "0.1.0"

def about (extended : Bool) : List String :=
  if extended then
    [s!"name: {name}", s!"version: {release}", "git_hash: unknown",
     s!"protocols: {Protocol.px4.name}, {Protocol.cobs.name}", "transports: serial, udp"]
  else [s!"{name} {release}"]

/-- The content of a file, or why there is none. -/
abbrev Files := String → Except IoFailure Bytes

def notText : String := "stream did not contain valid UTF-8"

def readText (files : Files) (path : String) : Except Failure String :=
  let unreadable (cause : String) : Failure :=
    ⟨Failure.badParameter, s!"cannot read {path}: {cause}"⟩
  match files path with
  | .error cause => .error (unreadable cause.text)
  | .ok data =>
      match Cdr.utf8? data with
      | some text => .ok text
      | none => .error (unreadable notText)

/-- The parameters of a file, if there is one, under those given directly. -/
def parameters (files : Files) (source : CommandLine.Source) : Except Failure Parameters :=
  match source.file with
  | none => .ok source.overlay
  | some path => do
      let text ← readText files path
      let params ← (Parameters.ofDocument text source.node).mapError fun failure =>
        Failure.during path failure.code failure.message
      return params.merge source.overlay

def settings (params : Parameters) : Except Failure Settings :=
  (Settings.ofParameters params).mapError (Failure.ofBridge "invalid parameters")

def address (params : Parameters) : Except Failure LinkAddress :=
  (LinkAddress.ofParameters params).mapError (Failure.ofBridge "invalid parameters")

def listedTable (params : Parameters) : Except Failure Table :=
  (Table.ofParameters params).mapError (Failure.ofBridge "invalid topic table")

def openForTable (surroundings : Surroundings) (params : Parameters) (config : FrameConfig) :
    Except Failure Endpoint := do
  (Bridge.openEndpoint surroundings (← address params) config).mapError
    (Failure.ofFrame "link open failed")

def negotiatedTable (settings : Settings) (params : Parameters) (endpoint : Endpoint) :
    Except Failure Table :=
  (Negotiation.loadTable settings params Negotiation.readsWithin endpoint).1.mapError
    (Failure.ofBridge "serial mapping failed")

/-- The topic table as it is printed. A listed table needs no link. -/
def mapping (surroundings : Surroundings) (params : Parameters) (format : OutputFormat) :
    Except Failure String := do
  let settings ← settings params
  if settings.negotiationWait.isNone then
    return Output.table format (← listedTable params) "static"
  let endpoint ← openForTable surroundings params settings.frameConfig
  return Output.table format (← negotiatedTable settings params endpoint) "negotiated"

/-- What the owner of a bridge makes of it after a turn. -/
inductive Verdict where
  | enough
  | workerEnded
  | goOn
  deriving DecidableEq, Repr

/-- One turn of the owner: what waits is pumped out, then it is time to stop if `count` messages
are published or the worker has ended. -/
def turn (count : Option Nat) (bridge : Bridge StdioHost) : Verdict × Bridge StdioHost :=
  let bridge := bridge.pump.2
  (if count.any (· ≤ bridge.host.published) then .enough
    else if bridge.isReading then .goOn
    else .workerEnded,
   bridge)

def start (surroundings : Surroundings) (params : Parameters) (format : OutputFormat) :
    Except Failure (Bridge StdioHost) := do
  let address ← address params
  let settings ← settings params
  (Bridge.launch surroundings address settings params { format : StdioHost }).mapError
    (Failure.ofBridge "bridge startup failed")

/-- Shuts the bridge down, and reports a link that failed before that. -/
def finish (bridge : Bridge StdioHost) : Except Failure Unit :=
  match bridge.shutdown.1 with
  | .error cause => .error (Failure.ofBridge "shutdown failed" cause)
  | .ok summary =>
      if summary.linkFailed then .error ⟨Failure.transport, "link failed while bridging"⟩
      else .ok ()

/-- How a run of the program ends, with the lines it prints and the datagrams it sends. One that
waits for something that never comes does not end. -/
inductive Outcome where
  | ended (code : Nat) (printed : List String) (message : Option String) (sent : List Bytes)
  | endless

def Outcome.ofFailure (failure : Failure) : Outcome :=
  .ended failure.code [] (some failure.message) []

/-- Bridges on a link on which nothing more arrives. -/
def run (surroundings : Surroundings) (params : Parameters) (count : Option Nat)
    (format : OutputFormat) : Outcome :=
  match start surroundings params format with
  | .error failure => .ofFailure failure
  | .ok bridge =>
      match turn count bridge.settle with
      | (.goOn, _) => .endless
      | (_, bridge) =>
          match finish bridge with
          | .error failure => .ofFailure failure
          | .ok () => .ended 0 [] none bridge.endpoint.link.sent.toList

/-- Carries a command out where nothing arrives on any link. `usual` is the format if none is
asked for. -/
def perform (surroundings : Surroundings) (files : Files) (usual : OutputFormat)
    (invocation : CommandLine.Invocation) : Outcome :=
  let format := invocation.format.getD usual
  match invocation.command with
  | .version extended => .ended 0 (about extended) none []
  | .mapping source =>
      match parameters files source >>= fun params => mapping surroundings params format with
      | .error failure => .ofFailure failure
      | .ok text => .ended 0 (text.splitOn "\n") none []
  | .run source count _ =>
      match parameters files source with
      | .error failure => .ofFailure failure
      | .ok params => run surroundings params count format

/-- A run of the program from its arguments. Faulty arguments are answered with the usage code and
no message of the program's own. -/
def invoke (surroundings : Surroundings) (files : Files) (environment : String → Option String)
    (usual : OutputFormat) (arguments : List String) : Outcome :=
  match CommandLine.parse environment arguments with
  | .ok invocation => perform surroundings files usual invocation
  | .error .usage => .ended Failure.usage [] none []
  | .error .version => .ended 0 (about false) none []
  | .error .help => .ended 0 [] none []

end TopicBridge.Program
