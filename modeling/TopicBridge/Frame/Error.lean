import TopicBridge.Link.Error

/-! Why a frame could not be read or written. An error is transient when the next attempt may
well succeed: every one but a closed link and an unusable configuration. -/
namespace TopicBridge

inductive FrameError where
  | link (cause : LinkError)
  | payloadTooLarge (size max : Nat)
  | crcMismatch (topic : UInt8) (expected actual : UInt16)
  | stuffing
  | truncated (length header : Nat)
  | lengthMismatch (declared actual : Nat)
  | config (reason : String)
  deriving DecidableEq, Repr

namespace FrameError

/-- Lower-case hexadecimal digits, at least four, behind `0x`. -/
def hexWord (value : UInt16) : String :=
  let digits := Nat.toDigits 16 value.toNat
  "0x" ++ String.ofList (List.replicate (4 - digits.length) '0' ++ digits)

def message : FrameError → String
  | .link cause => s!"transport error: {cause.message}"
  | .payloadTooLarge size max => s!"payload too large ({size} bytes, max {max})"
  | .crcMismatch topic expected actual =>
      s!"crc mismatch on topic {topic} (header {hexWord expected}, payload {hexWord actual})"
  | .stuffing => "invalid cobs encoding"
  | .truncated length header => s!"truncated frame ({length} bytes, header needs {header})"
  | .lengthMismatch declared actual =>
      s!"length mismatch (header says {declared}, record carries {actual})"
  | .config reason => s!"invalid frame configuration: {reason}"

/-- The receive queue was full. -/
def isOverflow : FrameError → Bool
  | .link (.overflow _ _) => true
  | _ => false

def isTransient : FrameError → Bool
  | .link .closed => false
  | .config _ => false
  | _ => true

end FrameError
end TopicBridge
