import EventDispatch.Net.SocketAddress

/-!
# Options

**Input.** The words of the command line.

**Rules.** An option is a name and a value, one word each. Names have a short form of one letter. Of an
option that is given twice the last value counts.

**Contents**

* `OptionName`, `OptionName.ofWord?`
* `Options`, `OptionError`, `Options.ofWords`
-/

namespace EventDispatch

/-- The options that there are. -/
inductive OptionName where
  /-- Where the configuration file is. -/
  | config
  /-- Where the operator interface listens. -/
  | listen
deriving DecidableEq, Repr

/-- The option that a word names. -/
def OptionName.ofWord? (word : String) : Option OptionName :=
  if word = "--config" ∨ word = "-c" then some config
  else if word = "--listen" ∨ word = "-l" then some listen
  else none

/-- What the command line asks for. -/
structure Options where
  /-- The path of the configuration file. -/
  config : String
  /-- The address that goes before the one in the configuration file. -/
  listen : Option SocketAddress
deriving DecidableEq, Repr

/-- Why a command line is refused. -/
inductive OptionError where
  /-- A word names no option. -/
  | unknown (word : String)
  /-- The value of an option is missing. -/
  | missingValue (word : String)
  /-- The value is no address. -/
  | badAddress (value : String)
deriving DecidableEq, Repr

/-- The wording of a refusal. -/
def OptionError.message : OptionError → String
  | unknown word => "unexpected argument " ++ word
  | missingValue word => "a value is required for " ++ word
  | badAddress value => "invalid socket address " ++ value

namespace Options

/-- What is asked for by an empty command line. -/
def usual : Options := ⟨"./event-dispatch.toml", none⟩

/-- Takes in the value of an option. -/
def set (o : Options) (name : OptionName) (value : String) : Except OptionError Options :=
  match name with
  | .config => .ok { o with config := value }
  | .listen =>
    match SocketAddress.ofText? value with
    | some address => .ok { o with listen := some address }
    | none => .error (.badAddress value)

/-- Takes in the words of a command line. -/
def take (o : Options) : List String → Except OptionError Options
  | [] => .ok o
  | [word] =>
    match OptionName.ofWord? word with
    | some _ => .error (.missingValue word)
    | none => .error (.unknown word)
  | word :: value :: rest =>
    match OptionName.ofWord? word with
    | none => .error (.unknown word)
    | some name =>
      match o.set name value with
      | .error e => .error e
      | .ok o => take o rest

/-- What the words of a command line ask for. -/
def ofWords (words : List String) : Except OptionError Options := usual.take words

end Options
end EventDispatch
