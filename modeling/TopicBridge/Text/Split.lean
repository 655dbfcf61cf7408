/-! Text cut at a separator. Cutting yields one part more than there are separators. -/
namespace TopicBridge.Text

def extend (c : Char) : List (List Char) → List (List Char)
  | [] => [[c]]
  | part :: parts => (c :: part) :: parts

def split (separator : Char) : List Char → List (List Char)
  | [] => [[]]
  | c :: rest => if c = separator then [] :: split separator rest else extend c (split separator rest)

end TopicBridge.Text
