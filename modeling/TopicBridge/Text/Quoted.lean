import TopicBridge.Text.Blank
import TopicBridge.Text.Width

/-! Names between quotes for a reader's eye. What would not show, or would end the quotes, is
written with a backslash; every other character stands for itself. -/
namespace TopicBridge.Text

/-- Whether a character leaves no mark of its own: controls, white space other than the blank,
marks that join the character before them, and characters for private use. -/
def isHidden (c : Char) : Bool :=
  let n := c.toNat
  n < 0x20 || (0x7F ≤ n && n < 0xA0) || n == 0xAD || (isBlank c && c != ' ') ||
    charWidth c == 0 || (0xE000 ≤ n && n ≤ 0xF8FF) || 0xE0000 ≤ n

def shown (c : Char) : List Char :=
  if c = '"' ∨ c = '\\' then ['\\', c]
  else if c = '\n' then ['\\', 'n']
  else if c = '\r' then ['\\', 'r']
  else if c = '\t' then ['\\', 't']
  else if c.toNat = 0 then ['\\', '0']
  else if isHidden c then ['\\', 'u', '\x7b'] ++ Nat.toDigits 16 c.toNat ++ ['\x7d']
  else [c]

def quote (s : String) : String := String.ofList ('"' :: s.toList.flatMap shown ++ ['"'])

end TopicBridge.Text
