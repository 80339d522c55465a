import EventDispatch.Config.File
import EventDispatch.Dispatch.Dispatcher
import EventDispatch.Toml.Reader

/-!
# Loading the configuration

**Input.** The bytes of the configuration file, if there is one, and the address given on the command
line, if any.

**Rules.** The address on the command line goes before the one in the file. The settings are checked
after that, in a fixed order; the first that is out of bounds is reported. The paused classes are
brought into order, each once.

**Contents**

* `InvalidSetting`, `ConfigError`
* `Config`, `Config.load`
* `databaseUrl`
-/

namespace EventDispatch

/-- A setting that is out of bounds. -/
inductive InvalidSetting where
  /-- The time between two cycles is none. -/
  | tick
  /-- A retry would shorten the deadline. -/
  | grace
  /-- The number of retries is negative. -/
  | retries
  /-- No worker may run. -/
  | cap
deriving DecidableEq, Repr

/-- The wording of a setting out of bounds. -/
def InvalidSetting.message : InvalidSetting → String
  | tick => "dispatcher.tick_interval_secs must be positive"
  | grace => "dispatcher.error_grace_secs must not be negative"
  | retries => "dispatcher.max_retries must not be negative"
  | cap => "dispatcher.max_concurrent_workers must be at least 1"

/-- Why a configuration is not loaded. -/
inductive ConfigError where
  /-- There is no file. -/
  | missingFile
  /-- The file is no text. -/
  | notText
  /-- The text is no document with settings of the right types. -/
  | notParsed
  /-- A setting is out of bounds. -/
  | invalid (cause : InvalidSetting)
  /-- No database is named. -/
  | noDatabaseUrl
deriving DecidableEq, Repr

/-- The wording of such a failure. -/
def ConfigError.message : ConfigError → String
  | missingFile => "failed to read config file: No such file or directory (os error 2)"
  | notText => "failed to read config file: stream did not contain valid UTF-8"
  | notParsed => "failed to parse config file: TOML parse error"
  | invalid cause => "validation error: " ++ cause.message
  | noDatabaseUrl => "DATABASE_URL environment variable not set"

/-- A configuration that was checked. -/
structure Config where
  /-- Where the operator interface listens. -/
  listen : SocketAddress
  /-- How the dispatcher is tuned. -/
  settings : Settings
  /-- The paused classes, in order and each once. -/
  paused : List EventClass
deriving DecidableEq

/-- The first setting that is out of bounds. -/
def ConfigFile.invalid? (f : ConfigFile) : Option InvalidSetting :=
  if f.tickSeconds = 0 then some .tick
  else if f.graceSeconds < 0 then some .grace
  else if f.maxRetries < 0 then some .retries
  else if f.cap = some 0 then some .cap
  else none

namespace Config

/-- The configuration that settings amount to. -/
def ofFile (f : ConfigFile) : Config :=
  ⟨f.listen, ⟨f.tickSeconds * 1000, ⟨.ofSeconds f.graceSeconds, f.maxRetries⟩, f.cap⟩,
    EventClass.sorted f.paused⟩

/-- The settings in a text. -/
def parse (s : String) : Except ConfigError ConfigFile :=
  match (Toml.parse s).bind ConfigFile.ofFields? with
  | some f => .ok f
  | none => .error .notParsed

/-- The text of a file. -/
def readText (file : Option ByteArray) : Except ConfigError String :=
  match file with
  | none => .error .missingFile
  | some bytes =>
    match String.fromUTF8? bytes with
    | some s => .ok s
    | none => .error .notText

/-- Loads the configuration from a file. -/
def load (file : Option ByteArray) (listen : Option SocketAddress) : Except ConfigError Config := do
  let f ← parse (← readText file)
  let f := { f with listen := listen.getD f.listen }
  match f.invalid? with
  | some cause => throw (.invalid cause)
  | none => pure (ofFile f)

end Config

/-- The database that the environment names. -/
def databaseUrl (value : Option String) : Except ConfigError String :=
  match value with
  | some url => .ok url
  | none => .error .noDatabaseUrl

end EventDispatch
