import TopicBridge.Error

/-! How a failure ends the program: a code for the kind of failure, and a text that begins with
what was being done. -/
namespace TopicBridge

/-- A code for the surroundings and a text for the user. -/
structure Failure where
  code : Nat
  message : String
  deriving DecidableEq, Repr

namespace Failure

def general : Nat := 1
def usage : Nat := 2
def transport : Nat := 3
def permissionDenied : Nat := 50
def dataInvalid : Nat := 60
def badParameter : Nat := 64
def timeout : Nat := 124
def internal : Nat := 125

def during (context : String) (code : Nat) (text : String) : Failure :=
  ⟨code, s!"{context}: {text}"⟩

def ofIo (context : String) (cause : IoFailure) : Failure :=
  let code := match cause.kind with
    | .permissionDenied => permissionDenied
    | .timedOut => timeout
    | .wouldBlock => timeout
    | .notFound => transport
    | .addressInUse => transport
    | _ => internal
  during context code cause.text

def openCode (cause : IoFailure) : Nat :=
  match cause.kind with
  | .permissionDenied => permissionDenied
  | _ => transport

def ofLink (context : String) (cause : LinkError) : Failure :=
  match cause with
  | .io source => ofIo context source
  | .openFailed _ source => during context (openCode source) cause.message
  | .bind _ source => during context (openCode source) cause.message
  | .writeTimeout _ _ => during context timeout cause.message
  | .unsupportedBaudRate _ => during context badParameter cause.message
  | _ => during context transport cause.message

def ofFrame (context : String) (cause : FrameError) : Failure :=
  match cause with
  | .link inner => ofLink context inner
  | .config _ => during context badParameter cause.message
  | .payloadTooLarge _ _ => during context dataInvalid cause.message
  | _ => during context internal cause.message

def ofBridge (context : String) (cause : BridgeError) : Failure :=
  match cause with
  | .link inner => ofLink context inner
  | .frame inner => ofFrame context inner
  | .missingParameter _ => during context badParameter cause.message
  | .invalidParameter _ _ => during context badParameter cause.message
  | .negotiationTimeout _ => during context timeout cause.message
  | .host _ => during context general cause.message
  | _ => during context dataInvalid cause.message

end Failure
end TopicBridge
