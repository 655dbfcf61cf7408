import Std.Async.DNS
import Std.Async.Timer
import Std.Async.UDP
import TopicBridge.Program

/-! The program at work: files, sockets, lines and time around the commands. Line parameters of a
terminal cannot be set from here, so a path that opens is still no terminal. Reading the input
cannot be broken off, so a bridge that reads it ends no earlier than the input. -/
namespace TopicBridge.Main

open Std.Async Std.Net

def ioFailure : IO.Error → IoFailure
  | .noFileOrDirectory _ _ _ => .noSuchFile
  | .permissionDenied _ code text => ⟨.permissionDenied, s!"{text} (os error {code})"⟩
  | .resourceBusy code text => ⟨.addressInUse, s!"{text} (os error {code})"⟩
  | .inappropriateType _ _ _ => .isDirectory
  | cause => ⟨.other, toString cause⟩

def terminalFailure (path : String) : IO IoFailure := do
  try
    discard <| IO.FS.Handle.mk path .readWrite
    return .notTerminal
  catch cause => return ioFailure cause

def readFile (path : String) : IO (Except IoFailure Bytes) := do
  try return .ok (← IO.FS.readBinFile path).toList
  catch cause => return .error (ioFailure cause)

/-- The values of all variables that stand in for options. -/
def environment : IO (String → Option String) := do
  let names := CommandLine.sourceOptions.map fun option => CommandLine.variableName option.name
  let values ← names.mapM fun name => return (name, ← IO.getEnv name)
  return fun name => (values.lookup name).join

/-- A socket that receives, one that sends, and where to. -/
structure Wire where
  receiver : UDP.Socket
  sender : UDP.Socket
  target : SocketAddress

def anyAddress (port : Nat) : SocketAddress := .v4 ⟨.ofParts 0 0 0 0, UInt16.ofNat port⟩

def resolve (host : String) (port : Nat) : IO SocketAddress := do
  let found : Array IPAddr ← match IPv4Addr.ofString host with
    | some address => pure #[IPAddr.v4 address]
    | none => (DNS.getAddrInfo host (toString port) (some .ipv4)).block
  match found.toList with
  | .v4 address :: _ => return .v4 ⟨address, UInt16.ofNat port⟩
  | _ => throw (.noSuchThing none 0 "no address for destination")

/-- Runs a step of an opening, with a reason of its own should it fail. -/
def attempt {α : Type} (reason : IoFailure → LinkError) (step : IO α) :
    ExceptT LinkError IO α := do
  match ← step.toBaseIO with
  | .ok result => return result
  | .error cause => throw (reason (ioFailure cause))

def Wire.open (host : String) (receivePort sendPort : Nat) : ExceptT LinkError IO Wire := do
  let receiver ← attempt (.bind s!"0.0.0.0:{receivePort}") do
    let socket ← UDP.Socket.mk
    socket.bind (anyAddress receivePort)
    return socket
  let target ← attempt (.resolve "<unresolved>") (resolve host sendPort)
  let sender ← attempt (.bind "0.0.0.0:0") do
    let socket ← UDP.Socket.mk
    socket.bind (anyAddress 0)
    return socket
  return { receiver, sender, target }

/-- The next datagram, if one comes within `wait` milliseconds. -/
def Wire.receive (wire : Wire) (wait : Nat) : IO (Option Bytes) :=
  Async.block do
    let timer ← Selector.sleep (Std.Time.Millisecond.Offset.ofNat wait)
    Selectable.one #[
      .case (wire.receiver.recvSelector (UInt64.ofNat Link.maxDatagram)) fun received =>
        return some received.1.toList,
      .case timer fun _ => return none]

/-- Sends what an endpoint has sent beyond its first `before` chunks. -/
def Wire.flush (wire : Wire) (before : Nat) (endpoint : Endpoint) : IO (Option IoFailure) := do
  try
    for data in endpoint.link.sent.toList.drop before do
      (wire.sender.send ⟨data.toArray⟩ (some wire.target)).block
    return none
  catch cause => return some (ioFailure cause)

partial def awaitTable (wire : Wire) (wait : Duration) (poll deadline : Nat)
    (endpoint : Endpoint) : IO (Except BridgeError Table × Endpoint) := do
  if deadline ≤ (← IO.monoMsNow) then
    return (.error (.negotiationTimeout wait), endpoint)
  let endpoint := match ← wire.receive poll with
    | some data => endpoint.arrive (.chunk data)
    | none => endpoint
  let reads := Negotiation.readsWithin wait endpoint
  match Negotiation.await Topic.response wait reads endpoint with
  | (.error (.negotiationTimeout _), endpoint) => awaitTable wire wait poll deadline endpoint
  | (payload, endpoint) =>
      return (payload >>= MappingMessage.decode >>= Table.ofMessage, endpoint)

/-- The table of the settings, over the wire if it is to be negotiated. -/
def loadTable (wire : Wire) (settings : Settings) (params : Parameters) (endpoint : Endpoint) :
    IO (Except BridgeError Table × Endpoint) := do
  match settings.negotiationWait with
  | none => return (Table.ofParameters params, endpoint)
  | some wait =>
      match endpoint.write Topic.request [] with
      | (.error cause, endpoint) => return (.error (.frame cause), endpoint)
      | (.ok _, endpoint) =>
          match ← wire.flush 0 endpoint with
          | some cause => return (.error (.frame (.link (.io cause))), endpoint)
          | none =>
              let deadline := (← IO.monoMsNow) + settings.mappingWait.toNat
              awaitTable wire wait settings.readPoll deadline endpoint

partial def readInput (input : IO.FS.Stream) (queue : IO.Ref (List HostMessage)) : IO Unit := do
  let line ← input.getLine
  if line.isEmpty then return
  queue.modify (· ++ StdioHost.messages (StdioHost.lines line.toUTF8.toList))
  readInput input queue

def printNew (bridge : Bridge StdioHost) : IO (Bridge StdioHost) := do
  let output ← IO.getStdout
  for text in bridge.host.printed do
    output.putStr text
    output.flush
  return { bridge with host := { bridge.host with printed := #[] } }

/-- Turns of the owner, between which what has arrived is fed to the worker. -/
partial def turns (wire : Wire) (queue : IO.Ref (List HostMessage)) (sleep : Nat)
    (count : Option Nat) (bridge : Bridge StdioHost) : IO (Bridge StdioHost) := do
  let messages ← queue.modifyGet fun messages => (messages, [])
  let waiting := { bridge with host := messages.foldl StdioHost.enqueue bridge.host }
  let before := bridge.endpoint.link.sent.size
  let (verdict, bridge) := Program.turn count waiting
  discard <| wire.flush before bridge.endpoint
  match verdict with
  | .goOn =>
      let arrived := match ← wire.receive sleep with
        | some data => bridge.endpoint.arrive (.chunk data)
        | none => bridge.endpoint
      turns wire queue sleep count (← printNew { bridge with endpoint := arrived }.settle)
  | _ => return bridge

/-- What ends a command early. -/
abbrev Act := ExceptT Failure IO

def openWire (context : String) (host : String) (receivePort sendPort : Nat) : Act Wire := do
  match ← (Wire.open host receivePort sendPort).run with
  | .ok wire => return wire
  | .error cause => throw (Failure.ofLink context cause)

def mapping (wire : Wire) (endpoint : Endpoint) (settings : Settings) (params : Parameters)
    (format : OutputFormat) : Act Unit := do
  match ← loadTable wire settings params endpoint with
  | (.ok table, _) => IO.println (Output.table format table "negotiated")
  | (.error cause, _) => throw (Failure.ofBridge "serial mapping failed" cause)

def run (wire : Wire) (endpoint : Endpoint) (settings : Settings) (params : Parameters)
    (count : Option Nat) (readsInput : Bool) (format : OutputFormat) : Act Unit := do
  let failed (cause : BridgeError) : Failure := Failure.ofBridge "bridge startup failed" cause
  match ← loadTable wire settings params endpoint with
  | (.error cause, _) => throw (failed cause)
  | (.ok table, endpoint) =>
      match Bridge.start endpoint table ({ format } : StdioHost) with
      | .error failure => throw (failed failure.cause)
      | .ok bridge =>
          let queue ← IO.mkRef []
          if readsInput then
            discard <| IO.asTask (readInput (← IO.getStdin) queue) .dedicated
          Program.finish (← turns wire queue settings.writeSleep count bridge)

def overSockets (params : Parameters) (host : String) (receivePort sendPort : Nat)
    (format : OutputFormat) (command : CommandLine.Command) : Act Unit := do
  let settings ← Program.settings params
  let surroundings : Surroundings := ⟨fun _ => none, none⟩
  let address := LinkAddress.udp host receivePort sendPort
  let framed (context : String) : Except Failure Endpoint :=
    (Bridge.openEndpoint surroundings address settings.frameConfig).mapError
      (Failure.ofFrame context)
  match command with
  | .mapping _ =>
      let endpoint ← framed "link open failed"
      let wire ← openWire "link open failed" host receivePort sendPort
      mapping wire endpoint settings params format
  | .run _ count readsInput =>
      let endpoint ← framed "bridge startup failed"
      let wire ← openWire "bridge startup failed" host receivePort sendPort
      run wire endpoint settings params count readsInput format
  | .version _ => return ()

/-- Writes the lines and the message of an outcome, and returns its code. -/
def report : Program.Outcome → IO UInt32
  | .endless => return 0
  | .ended code printed message _ => do
      for line in printed do
        IO.println line
      if let some message := message then
        IO.eprintln s!"error: {message}"
      return UInt32.ofNat code

def needsLink (params : Parameters) : CommandLine.Command → Bool
  | .run _ _ _ => true
  | .mapping _ =>
      match Program.settings params with
      | .ok settings => settings.negotiationWait.isSome
      | .error _ => false
  | .version _ => false

def perform (files : Program.Files) (params : Parameters) (usual : OutputFormat)
    (invocation : CommandLine.Invocation) : IO UInt32 := do
  let nowhere : Surroundings := ⟨fun _ => some .noSuchFile, none⟩
  match Program.address params, needsLink params invocation.command with
  | .ok (.udp host receivePort sendPort), true =>
      let format := invocation.format.getD usual
      match ← (overSockets params host receivePort sendPort format invocation.command).run with
      | .ok () => return 0
      | .error failure => report (.ofFailure failure)
  | .ok (.serial device _), true => do
      let cause ← terminalFailure device
      report (Program.perform ⟨fun _ => some cause, none⟩ files usual invocation)
  | _, _ => report (Program.perform nowhere files usual invocation)

def usageText : String :=
  "usage: serialbridge [--format json|table|pretty] [--log-format text|json]\n" ++
  "         [--log-level error|warn|info|debug|trace] <command>\n" ++
  "commands:\n" ++
  "  run      bridge the link to the input and the output [--count N] [--no-stdin]\n" ++
  "  mapping  build the topic table and print it\n" ++
  "  version  show version information [--extended]\n" ++
  "options of run and mapping: --params FILE --node NAME" ++
  String.join (CommandLine.overOptions.map fun option => s!" --{option.name} VALUE")

def start (arguments : List String) : IO UInt32 := do
  let usual := if ← (← IO.getStdout).isTty then OutputFormat.pretty else .json
  match CommandLine.parse (← environment) arguments with
  | .error .usage => do
      IO.eprintln usageText
      return UInt32.ofNat Failure.usage
  | .error .help => do
      IO.println usageText
      return 0
  | .error .version => report (.ended 0 (Program.about false) none [])
  | .ok invocation => do
      let source := match invocation.command with
        | .run source _ _ => some source
        | .mapping source => some source
        | .version _ => none
      let content ← match source.bind (·.file) with
        | some path => readFile path
        | none => pure (.error .noSuchFile)
      let files : Program.Files := fun _ => content
      match source.map (Program.parameters files) with
      | some (.ok params) => perform files params usual invocation
      | _ => report (Program.perform ⟨fun _ => some .noSuchFile, none⟩ files usual invocation)

end TopicBridge.Main

def main (arguments : List String) : IO UInt32 := TopicBridge.Main.start arguments
