/-! Text between quotes. A quote, a backslash and the control characters below the blank are
written with a backslash; every other character stands for itself. -/
namespace TopicBridge.Json

/-- Four hexadecimal digits, high first. -/
def hexDigits (n : Nat) : List Char :=
  [Nat.digitChar (n / 4096 % 16), Nat.digitChar (n / 256 % 16), Nat.digitChar (n / 16 % 16),
    Nat.digitChar (n % 16)]

def escaped (c : Char) : List Char :=
  if c = '"' then ['\\', '"']
  else if c = '\\' then ['\\', '\\']
  else if c.toNat = 8 then ['\\', 'b']
  else if c.toNat = 9 then ['\\', 't']
  else if c.toNat = 10 then ['\\', 'n']
  else if c.toNat = 12 then ['\\', 'f']
  else if c.toNat = 13 then ['\\', 'r']
  else if c.toNat < 32 then ['\\', 'u'] ++ hexDigits c.toNat
  else [c]

def quoted (s : List Char) : List Char :=
  ['"'] ++ s.flatMap escaped ++ ['"']

def quote (s : String) : String := String.ofList (quoted s.toList)

end TopicBridge.Json
