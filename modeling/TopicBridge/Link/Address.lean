import TopicBridge.Link

/-! Where a link leads: a terminal device at a baud rate, or a pair of sockets. Opening one is a
matter of the surroundings; which baud rates there are is not. -/
namespace TopicBridge

inductive LinkAddress where
  | serial (device : String) (baudRate : Nat)
  | udp (host : String) (receivePort sendPort : Nat)
  deriving DecidableEq, Repr

def baudRates : List Nat :=
  [1200, 2400, 4800, 9600, 19200, 38400, 57600, 115200, 230400, 460800, 500000, 921600]

namespace LinkAddress

def kind : LinkAddress → String
  | .serial _ _ => "serial"
  | .udp _ _ _ => "udp"

def render : LinkAddress → String
  | .serial device baudRate => s!"serial {device} @ {baudRate}"
  | .udp host receivePort sendPort => s!"udp :{receivePort} -> {host}:{sendPort}"

end LinkAddress

/-- What surrounds the program: why a path does not open as a terminal, if it does not, and what
the network makes of a send. -/
structure Surroundings where
  terminal : String → Option IoFailure
  network : Option IoFailure

/-- Opens a link. The baud rate is looked at before the path. -/
def LinkAddress.open (surroundings : Surroundings) : LinkAddress → Except LinkError Link
  | .serial device baudRate =>
      if baudRates.contains baudRate then
        match surroundings.terminal device with
        | some cause => .error (.openFailed device cause)
        | none => .ok .serial
      else .error (.unsupportedBaudRate baudRate)
  | .udp _ _ _ => .ok (.udp surroundings.network)

end TopicBridge
