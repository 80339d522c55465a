import EventDispatch.Event.Kind
import EventDispatch.Net.SocketAddress
import EventDispatch.Toml.Value

/-!
# Settings in a configuration document

**Input.** The fields of a configuration document.

**Rules.** Every section and every setting may be left out, and unknown ones are ignored. A section may
also be written as the list of its settings in order, with more after them; one in place of which a
point in time stands has no settings. A class is named by a text or by the one key of a table over
something empty.

**Contents**

* `ConfigFile`
* `ConfigFile.ofFields?`
-/

namespace EventDispatch

open Toml

/-- The settings of a configuration document, not checked yet. -/
structure ConfigFile where
  /-- Where the operator interface listens. -/
  listen : SocketAddress
  /-- The seconds between two cycles that nothing else starts. -/
  tickSeconds : Nat
  /-- The seconds by which a retry extends a deadline. -/
  graceSeconds : Int
  /-- After how many retries an event fails. -/
  maxRetries : Int
  /-- How many workers may run at a time. -/
  cap : Option Nat
  /-- The paused classes. -/
  paused : List EventClass
deriving DecidableEq

namespace ConfigFile

/-- The settings of a section, which may be written as a list. -/
def sectionFields? (names : List String) : Value → Option Fields
  | .table _ fields => some fields
  | .array items => some (names.zip items)
  | .tables rows => some (names.zip (rows.reverse.map (.table .header)))
  | .moment => some []
  | _ => none

/-- The settings of a section of the document. -/
def section? (root : Fields) (name : String) (settings : List String) : Option Fields :=
  match root.lookup name with
  | none => some []
  | some v => sectionFields? settings v

/-- The value of a setting, or its default if it is left out. -/
def setting? {α : Type} (fields : Fields) (name : String) (read : Value → Option α) (default : α) :
    Option α :=
  match fields.lookup name with
  | none => some default
  | some v => read v

/-- A natural number of 64 bits. -/
def natural? : Value → Option Nat
  | .integer n => if 0 ≤ n then some n.toNat else none
  | _ => none

/-- An integer of 64 bits. -/
def integer? : Value → Option Int
  | .integer n => some n
  | _ => none

/-- An integer of 32 bits. -/
def smallInteger? : Value → Option Int
  | .integer n => if -2147483648 ≤ n ∧ n ≤ 2147483647 then some n else none
  | _ => none

/-- A socket address. -/
def address? : Value → Option SocketAddress
  | .text s => SocketAddress.ofText? s
  | _ => none

/-- Whether there is nothing in a value. -/
def isEmpty : Value → Bool
  | .table _ [] | .array [] | .tables [] => true
  | _ => false

/-- A class. -/
def eventClass? : Value → Option EventClass
  | .text s => EventClass.ofName? s
  | .table _ [(name, v)] => if isEmpty v then EventClass.ofName? name else none
  | _ => none

/-- A list of classes. -/
def eventClasses? : Value → Option (List EventClass)
  | .array items => items.mapM eventClass?
  | .tables rows => rows.reverse.mapM fun row => eventClass? (.table .header row)
  | _ => none

/-- Where the operator interface listens if nothing is set. -/
def usualListen : SocketAddress := ⟨.quad 127 0 0 1, 8080⟩

/-- Reads the settings of a document. -/
def ofFields? (root : Fields) : Option ConfigFile := do
  let server ← section? root "server" ["listen"]
  let dispatcher ← section? root "dispatcher"
    ["tick_interval_secs", "error_grace_secs", "max_retries", "max_concurrent_workers"]
  let maintenance ← section? root "maintenance" ["paused_classes"]
  pure
    { listen := ← setting? server "listen" address? usualListen
      tickSeconds := ← setting? dispatcher "tick_interval_secs" natural? 10
      graceSeconds := ← setting? dispatcher "error_grace_secs" integer? 180
      maxRetries := ← setting? dispatcher "max_retries" smallInteger? 5
      cap := ← setting? dispatcher "max_concurrent_workers" (fun v => (natural? v).map some) none
      paused := ← setting? maintenance "paused_classes" eventClasses? [] }

end ConfigFile
end EventDispatch
