import TopicBridge.Host
import TopicBridge.Negotiation

/-! A bridge between a framed link and a host. A worker reads frames and hands them to the host
until it is told to stop or the link fails; the owner starts it, sends through the link and
shuts it down. The worker moves in small steps, so that every order of its steps and the
owner's is a run of this module. -/
namespace TopicBridge

/-- The life of a bridge. It only moves forward. -/
inductive Stage where
  | constructing
  | running
  | shuttingDown
  | stopped
  deriving DecidableEq, Repr

namespace Stage

def name : Stage → String
  | .constructing => "constructing"
  | .running => "running"
  | .shuttingDown => "shutting down"
  | .stopped => "stopped"

def label : Stage → String
  | .constructing => "Constructing"
  | .running => "Running"
  | .shuttingDown => "ShuttingDown"
  | .stopped => "Stopped"

end Stage

structure Tally where
  published : Nat := 0
  publishFailures : Nat := 0
  unroutable : Nat := 0
  deriving DecidableEq, Repr

structure Summary where
  frames : Stats := {}
  tally : Tally := {}
  linkFailed : Bool := false
  deriving DecidableEq, Repr

/-- Where the worker stands: before a look at the stop flag, before a read, with a frame to hand
on, waiting after a failure of the link, with an error that ends it, or at the end. -/
inductive Worker where
  | checking
  | reading
  | holding (frame : Frame)
  | pausing
  | failing
  | ended (summary : Summary)
  | crashed
  deriving DecidableEq, Repr

def Worker.isAlive : Worker → Bool
  | .ended _ => false
  | .crashed => false
  | _ => true

/-- `routes` holds the inbound topics for which the host gave a publisher. -/
structure Bridge (η : Type) where
  endpoint : Endpoint
  host : η
  table : Table
  routes : List TopicMapping
  stage : Stage := .running
  cancelled : Bool := false
  worker : Worker := .checking
  tally : Tally := {}

/-- A start that was given up, with the link and the host as it left them. -/
structure StartFailure (η : Type) where
  cause : BridgeError
  endpoint : Endpoint
  host : η

namespace Bridge

variable {η : Type} [Host η]

def registerOne (headerLength : Nat) (host : η) (mapping : TopicMapping) :
    Except BridgeError (List TopicMapping × η) :=
  match mapping.direction with
  | .serialToHost => (Host.openInbound host mapping).map fun host => ([mapping], host)
  | .hostToSerial =>
      (Host.openOutbound host mapping ⟨mapping.topicId, mapping.name, headerLength⟩).map
        fun host => ([], host)
  | .unknown => .error (.invalidDirection mapping.name mapping.direction.name)

/-- Registers topics in order. The first refusal ends it; the host stays as it was then. -/
def register (headerLength : Nat) :
    List TopicMapping → η → Except BridgeError (List TopicMapping) × η
  | [], host => (.ok [], host)
  | mapping :: rest, host =>
      match registerOne headerLength host mapping with
      | .error cause => (.error cause, host)
      | .ok (routes, host) =>
          let (more, host) := register headerLength rest host
          (more.map (routes ++ ·), host)

/-- Registers every topic and sets the worker off. A refusal closes the link. -/
def start (endpoint : Endpoint) (table : Table) (host : η) :
    Except (StartFailure η) (Bridge η) :=
  let (routes, host) := register endpoint.headerLength table.mappings host
  match routes with
  | .error cause => .error ⟨cause, endpoint.close.2, host⟩
  | .ok routes => .ok { endpoint, host, table, routes }

/-- Loads the table and starts on a framed link. Every failure leaves the link closed. -/
def startOn (endpoint : Endpoint) (settings : Settings) (params : Parameters)
    (reads : Duration → Endpoint → Nat) (host : η) : Except (StartFailure η) (Bridge η) :=
  let (table, endpoint) := Negotiation.loadTable settings params reads endpoint
  match table with
  | .error cause => .error ⟨cause, endpoint.close.2, host⟩
  | .ok table => start endpoint table host

def openEndpoint (surroundings : Surroundings) (address : LinkAddress) (config : FrameConfig) :
    Except FrameError Endpoint := do
  config.validate
  let link ← (address.open surroundings).mapError .link
  Endpoint.create link config

def launch (surroundings : Surroundings) (address : LinkAddress) (settings : Settings)
    (params : Parameters) (host : η) : Except BridgeError (Bridge η) := do
  settings.validate
  let endpoint ← (openEndpoint surroundings address settings.frameConfig).mapError .frame
  (startOn endpoint settings params Negotiation.readsWithin host).mapError (·.cause)

def route? (bridge : Bridge η) (id : UInt8) : Option TopicMapping :=
  bridge.routes.find? fun mapping => mapping.topicId = id

def dispatch (bridge : Bridge η) (frame : Frame) : Bridge η :=
  match bridge.route? frame.topic with
  | none =>
      { bridge with
        worker := .checking
        tally := { bridge.tally with unroutable := bridge.tally.unroutable + 1 } }
  | some mapping =>
      let (delivery, host) := Host.publish bridge.host mapping frame.payload
      match delivery with
      | .done =>
          { bridge with
            host
            worker := .checking
            tally := { bridge.tally with published := bridge.tally.published + 1 } }
      | .refused _ =>
          { bridge with
            host
            worker := .checking
            tally := { bridge.tally with publishFailures := bridge.tally.publishFailures + 1 } }
      | .crashed => { bridge with host, worker := .crashed }

/-- Where an outcome of a read leads: a failure of the link that may pass makes the worker wait,
an overflow and a lost frame do not. -/
def afterRead : Except FrameError (Option Frame) → Worker
  | .ok (some frame) => .holding frame
  | .ok none => .checking
  | .error cause =>
      if cause.isOverflow then .checking
      else if cause.isTransient then
        match cause with
        | .link _ => .pausing
        | _ => .checking
      else .failing

def finish (bridge : Bridge η) (linkFailed : Bool) : Bridge η :=
  { bridge with
    worker := .ended { frames := bridge.endpoint.reader.stats, tally := bridge.tally, linkFailed } }

/-- One step of the worker. At the end there are none. -/
def step (bridge : Bridge η) : Bridge η :=
  match bridge.worker with
  | .checking =>
      if bridge.cancelled then bridge.finish false else { bridge with worker := .reading }
  | .reading =>
      let (result, endpoint) := bridge.endpoint.read
      { bridge with endpoint, worker := afterRead result }
  | .holding frame => bridge.dispatch frame
  | .pausing => { bridge with worker := .checking }
  | .failing => bridge.finish (!bridge.cancelled)
  | .ended _ => bridge
  | .crashed => bridge

/-- Steps until a read finds nothing and uses nothing up, or the worker is at its end. -/
def settleWithin : Nat → Bridge η → Bridge η
  | 0, bridge => bridge
  | steps + 1, bridge =>
      let next := bridge.step
      if !bridge.worker.isAlive then bridge
      else if bridge.worker = .reading ∧ next.worker = .checking ∧
          next.endpoint.backlog = bridge.endpoint.backlog then next
      else settleWithin steps next

/-- Lets the worker find everything that has arrived. A read that uses something up takes at
most three steps. -/
def settle (bridge : Bridge η) : Bridge η :=
  bridge.settleWithin (3 * bridge.endpoint.backlog + 5)

/-- Steps until the worker is at its end. Once it is told to stop, three steps are enough. -/
def join (bridge : Bridge η) : Bridge η :=
  Nat.repeat step 3 bridge

def send (bridge : Bridge η) (topic : OutboundTopic) (payload : Bytes) :
    Except BridgeError Nat × Bridge η :=
  let (result, endpoint) := bridge.endpoint.write topic.topicId payload
  (result.mapError .frame, { bridge with endpoint })

def cancel (bridge : Bridge η) : Bridge η :=
  { bridge with stage := .shuttingDown, cancelled := true }

/-- What the worker leaves behind: nothing if it crashed. -/
def summary (bridge : Bridge η) : Summary :=
  match bridge.worker with
  | .ended summary => summary
  | _ => {}

/-- Closes the link, which ends the bridge even if closing fails. -/
def stop (bridge : Bridge η) : Except BridgeError Unit × Bridge η :=
  let (closed, endpoint) := bridge.endpoint.close
  (closed.mapError .frame, { bridge with endpoint, stage := .stopped })

/-- Stops the worker, waits for its end and closes the link. A bridge that is stopped stays as
it is. -/
def shutdown (bridge : Bridge η) : Except BridgeError Summary × Bridge η :=
  if bridge.stage = .stopped then (.ok {}, bridge)
  else
    let joined := bridge.cancel.join
    let (closed, stopped) := joined.stop
    (closed.map fun _ => joined.summary, stopped)

def isReading (bridge : Bridge η) : Bool :=
  bridge.stage ≠ .stopped && bridge.worker.isAlive

def describe (bridge : Bridge η) : String :=
  s!"Bridge \x7b state: {bridge.stage.label}, topics: {bridge.table.size} \x7d"

end Bridge
end TopicBridge
