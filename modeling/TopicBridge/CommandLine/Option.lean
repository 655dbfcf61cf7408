import TopicBridge.Text.Integer

/-! Options of a command line: a name behind two dashes, and a value behind an equals sign or as
the next argument. -/
namespace TopicBridge.CommandLine

/-- What the value of an option has to be. A path is not empty. -/
inductive ValueKind where
  | text
  | path
  | integer
  | count
  | oneOf (words : List String)

inductive Argument where
  | switch
  | text (value : String)
  | integer (value : Int64)
  | count (value : Nat)
  deriving DecidableEq, Repr

def ValueKind.read? (kind : ValueKind) (text : String) : Option Argument :=
  match kind with
  | .text => some (.text text)
  | .path => if text.isEmpty then none else some (.text text)
  | .integer => (Text.int64? text.toList).map .integer
  | .count =>
      let digits := match text.toList with
        | '+' :: rest => rest
        | chars => chars
      (Text.natural? digits).bind fun n =>
        if (Text.IntegerRange.unsigned 64).contains n then some (.count n) else none
  | .oneOf words => if words.contains text then some (.text text) else none

/-- An option without a kind of value is a switch. Only where `takesDash` holds may the next
argument be the value although it begins with a dash. -/
structure OptionSpec where
  name : String
  kind : Option ValueKind := none
  takesDash : Bool := false

/-- The options of a command, and whether it can be asked for the version. -/
structure Level where
  options : List OptionSpec
  hasVersion : Bool := false

inductive Stop where
  | usage
  | version
  | help
  deriving DecidableEq, Repr

abbrev Given := List (String × Argument)

namespace Level

/-- Notes an option. None is given twice. -/
def note (given : Given) (name : String) (argument : Argument) : Except Stop Given :=
  if given.any (·.1 == name) then .error .usage else .ok (given ++ [(name, argument)])

def noteValue (given : Given) (name : String) (kind : ValueKind) (text : String) :
    Except Stop Given :=
  match kind.read? text with
  | some argument => note given name argument
  | none => .error .usage

/-- Whether an argument is taken for an option: a dash with something behind it. -/
def isOption (argument : String) : Bool :=
  match argument.toList with
  | '-' :: _ :: _ => true
  | _ => false

/-- The name behind the dashes, and the value behind an equals sign. -/
def split (argument : List Char) : String × Option String :=
  let name := String.ofList (argument.takeWhile (· ≠ '='))
  match argument.dropWhile (· ≠ '=') with
  | '=' :: value => (name, some (String.ofList value))
  | _ => (name, none)

/-- What an argument behind one dash asks for. -/
def short (level : Level) : List Char → Stop
  | 'h' :: _ => .help
  | 'V' :: _ => if level.hasVersion then .version else .usage
  | _ => .usage

/-- Reads options up to the first word. Two dashes alone end the options, and nothing may follow
them. -/
def read (level : Level) (given : Given) : List String → Except Stop (Given × List String)
  | [] => .ok (given, [])
  | argument :: rest =>
      match argument.toList with
      | ['-', '-'] => if rest.isEmpty then .ok (given, []) else .error .usage
      | '-' :: '-' :: chars =>
          let (name, value) := split chars
          match level.options.find? (·.name == name), value with
          | some ⟨_, none, _⟩, some _ => .error .usage
          | some ⟨_, none, _⟩, none => do read level (← note given name .switch) rest
          | some ⟨_, some kind, _⟩, some value => do
              read level (← noteValue given name kind value) rest
          | some ⟨_, some kind, takesDash⟩, none =>
              match rest with
              | [] => .error .usage
              | value :: rest =>
                  if isOption value && !takesDash then .error .usage
                  else do read level (← noteValue given name kind value) rest
          | none, none =>
              if name == "help" then .error .help
              else if name == "version" && level.hasVersion then .error .version
              else .error .usage
          | none, some _ => .error .usage
      | '-' :: c :: chars => .error (level.short (c :: chars))
      | _ => .ok (given, argument :: rest)

end Level

namespace Given

def text? (given : Given) (name : String) : Option String :=
  match given.lookup name with
  | some (.text value) => some value
  | _ => none

def count? (given : Given) (name : String) : Option Nat :=
  match given.lookup name with
  | some (.count value) => some value
  | _ => none

def isSet (given : Given) (name : String) : Bool := (given.lookup name).isSome

end Given
end TopicBridge.CommandLine
