import TopicBridge.CommandLine.Option
import TopicBridge.Output
import TopicBridge.Parameter

/-! The commands of the program and their options. Parameters come from a file, from the
environment and from options; each of these outdoes the ones before it. -/
namespace TopicBridge.CommandLine

structure Source where
  file : Option String
  node : Option String
  overlay : Parameters

/-- `run` bridges until `count` messages are published, or for ever; `mapping` shows the topic
table; `version` shows what program this is. -/
inductive Command where
  | run (source : Source) (count : Option Nat) (readsInput : Bool)
  | mapping (source : Source)
  | version (extended : Bool)

/-- Without a `format` the one that suits the output is taken. -/
structure Invocation where
  command : Command
  format : Option OutputFormat

/-- Options of every command, before or behind its name. -/
def globalOptions : List OptionSpec :=
  [{ name := "format", kind := some (.oneOf ["json", "table", "pretty"]) },
   { name := "log-format", kind := some (.oneOf ["text", "json"]) },
   { name := "log-level", kind := some (.oneOf ["error", "warn", "info", "debug", "trace"]) }]

/-- Options that set a parameter of the same name, with underscores for the dashes inside. -/
def overOptions : List OptionSpec :=
  [{ name := "transport", kind := some .text },
   { name := "device", kind := some .text },
   { name := "serial-protocol", kind := some .text },
   { name := "baudrate", kind := some .integer },
   { name := "recv-port", kind := some .integer },
   { name := "send-port", kind := some .integer },
   { name := "read-poll-ms", kind := some .integer },
   { name := "ring-buffer-size", kind := some .integer },
   { name := "write-sleep-ms", kind := some .integer },
   { name := "dynamic-serial-mapping-ms", kind := some .integer, takesDash := true },
   { name := "max-payload", kind := some .integer }]

def sourceOptions : List OptionSpec :=
  [{ name := "params", kind := some .path }, { name := "node", kind := some .text }] ++
    overOptions

def underscored (name : String) : String := name.map fun c => if c == '-' then '_' else c

/-- The variable of the environment that stands in for an option. -/
def variableName (option : String) : String :=
  "SERIALBRIDGE_" ++ (underscored option).map Char.toUpper

/-- Adds the options that the environment gives and the command line does not. -/
def fillIn (environment : String → Option String) :
    List OptionSpec → Given → Except Stop Given
  | [], given => .ok given
  | ⟨name, kind, _⟩ :: rest, given =>
      if given.isSet name then fillIn environment rest given
      else
        match kind, environment (variableName name) with
        | some kind, some text => do
            fillIn environment rest (← Level.noteValue given name kind text)
        | _, _ => fillIn environment rest given

def parameter? : Argument → Option ParamValue
  | .text value => some (.string value)
  | .integer value => some (.int value)
  | _ => none

def Source.ofGiven (given : Given) : Source where
  file := given.text? "params"
  node := given.text? "node"
  overlay := .ofList <| overOptions.filterMap fun option => do
    return (underscored option.name, ← parameter? (← given.lookup option.name))

/-- The options of one command behind its name. Nothing else may stand there. -/
def behind (options : List OptionSpec) (words : List String) : Except Stop Given := do
  let (given, words) ← Level.read { options := options ++ globalOptions } [] words
  if words.isEmpty then return given else throw .usage

def withSource (environment : String → Option String) (options : List OptionSpec)
    (words : List String) : Except Stop (Source × Given) := do
  let given ← behind (options ++ sourceOptions) words
  let filled ← fillIn environment sourceOptions given
  return (.ofGiven filled, filled)

/-- The format behind the command's name, or else the one before it. -/
def formatOf (before after : Given) : Option OutputFormat :=
  (after.text? "format" <|> before.text? "format").bind OutputFormat.ofName?

/-- Whether the words behind `help` name one thing to explain, or nothing. -/
def isHelpTopic : List String → Bool
  | [] => true
  | [word] => ["run", "mapping", "version", "help"].contains word
  | _ => false

def parse (environment : String → Option String) (arguments : List String) :
    Except Stop Invocation := do
  let (before, words) ←
    Level.read { options := globalOptions, hasVersion := true } [] arguments
  match words with
  | "run" :: words =>
      let own := [{ name := "count", kind := some .count }, { name := "no-stdin" }]
      let (source, given) ← withSource environment own words
      return ⟨.run source (given.count? "count") (!given.isSet "no-stdin"), formatOf before given⟩
  | "mapping" :: words =>
      let (source, given) ← withSource environment [] words
      return ⟨.mapping source, formatOf before given⟩
  | "version" :: words =>
      let given ← behind [{ name := "extended" }] words
      return ⟨.version (given.isSet "extended"), formatOf before given⟩
  | "help" :: words => throw (if isHelpTopic words then .help else .usage)
  | _ => throw .usage

end TopicBridge.CommandLine
