/-! Why a link fails, and the text that reports it. A system failure is carried as its kind
and the text the system gives for it. -/
namespace TopicBridge

/-- The kinds of system failure that some rule of the library tells apart. -/
inductive IoKind where
  | notFound
  | permissionDenied
  | addressInUse
  | timedOut
  | wouldBlock
  | interrupted
  | brokenPipe
  | other
  deriving DecidableEq, Repr

structure IoFailure where
  kind : IoKind
  text : String
  deriving DecidableEq, Repr

namespace IoFailure

def noSuchFile : IoFailure := ⟨.notFound, "No such file or directory (os error 2)"⟩
def inputOutput : IoFailure := ⟨.other, "Input/output error (os error 5)"⟩
def isDirectory : IoFailure := ⟨.other, "Is a directory (os error 21)"⟩
def notTerminal : IoFailure := ⟨.other, "Inappropriate ioctl for device (os error 25)"⟩
def networkUnreachable : IoFailure := ⟨.other, "Network is unreachable (os error 101)"⟩
def messageTooLong : IoFailure := ⟨.other, "Message too long (os error 90)"⟩

end IoFailure

inductive LinkError where
  | openFailed (path : String) (cause : IoFailure)
  | unsupportedBaudRate (rate : Nat)
  | bind (address : String) (cause : IoFailure)
  | resolve (address : String) (cause : IoFailure)
  | io (cause : IoFailure)
  | writeTimeout (written length : Nat)
  | overflow (requested free : Nat)
  | closed
  deriving DecidableEq, Repr

def LinkError.message : LinkError → String
  | .openFailed path cause => s!"failed to open serial device {path}: {cause.text}"
  | .unsupportedBaudRate rate => s!"unsupported baud rate {rate}"
  | .bind address cause => s!"failed to bind udp socket to {address}: {cause.text}"
  | .resolve address cause => s!"failed to resolve udp destination {address}: {cause.text}"
  | .io cause => s!"link I/O error: {cause.text}"
  | .writeTimeout written length => s!"write timed out after {written} of {length} bytes"
  | .overflow requested free =>
      s!"ring buffer overflow ({requested} bytes requested, {free} free)"
  | .closed => "link closed"

end TopicBridge
