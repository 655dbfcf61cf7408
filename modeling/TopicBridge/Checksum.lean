import TopicBridge.Bytes

/-! The sixteen-bit cyclic redundancy check with polynomial x^16 + x^15 + x^2 + 1, low bit
first and start value zero. It is given twice: one bit at a time, and by a table of the
effect of each octet on an empty register. -/
namespace TopicBridge.Checksum

/-- One bit out of the register: a one that leaves folds the polynomial back in. -/
def shift (register : UInt16) : UInt16 :=
  if register &&& 1 = 1 then (register >>> 1) ^^^ 0xA001 else register >>> 1

def shiftOctet (register : UInt16) : UInt16 :=
  Nat.repeat shift 8 register

/-- The bit-serial step: the octet enters the low half, then eight bits leave. -/
def serialStep (register : UInt16) (octet : UInt8) : UInt16 :=
  shiftOctet (register ^^^ octet.toUInt16)

/-- The bit-serial check of a string, from a given register. -/
def serial (register : UInt16) (data : Bytes) : UInt16 :=
  data.foldl serialStep register

/-- What eight shifts make of each octet alone. -/
def table : Vector UInt16 256 :=
  Vector.ofFn fun i => shiftOctet (UInt16.ofNat i.val)

def entry (octet : UInt8) : UInt16 :=
  table.get ⟨octet.toNat, octet.toNat_lt⟩

/-- The table step: the high half passes down, the low half is looked up. -/
def step (register : UInt16) (octet : UInt8) : UInt16 :=
  (register >>> 8) ^^^ entry (register.toUInt8 ^^^ octet)

def update (register : UInt16) (data : Bytes) : UInt16 :=
  data.foldl step register

def crc16 (data : Bytes) : UInt16 :=
  update 0 data

end TopicBridge.Checksum
