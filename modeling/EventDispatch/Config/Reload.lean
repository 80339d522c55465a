import EventDispatch.Config.Load
import EventDispatch.Dispatch.Operate

/-!
# Reloading the configuration

**Input.** The configuration file at the time of the signal.

**Rules.** A reload takes over the paused classes and nothing else. One that fails is told and leaves
everything as it is. Every listener answers the signal, one after the other.

**Contents**

* `Service.startReloading`, `Service.stopReloading`: listeners come and go
* `Service.reloadOnce`, `Service.reload`: the answer of one listener, and of all
-/

namespace EventDispatch
namespace Service

/-- One listener more answers the signal. -/
def startReloading (s : Service) : Service := { s with reloaders := s.reloaders + 1 }

/-- One listener, if there is any, stops to answer the signal. -/
def stopReloading (s : Service) : Service :=
  match s.reloaders with
  | 0 => s
  | n + 1 => { s with reloaders := n }.tell (.debug "Config reload handler shutting down" [])

/-- Takes over the paused classes of a configuration that was loaded. -/
def adopt (s : Service) (c : Config) : Service :=
  (s.setPaused c.paused).tell (.info "Configuration reloaded successfully"
    [("paused_classes", .text (Text.listed (c.paused.map EventClass.label)))])

/-- What one listener does at the signal. -/
def reloadOnce (s : Service) (file : Option ByteArray) (listen : Option SocketAddress) : Service :=
  let told := s.tell (.info "Received SIGHUP, reloading configuration" [])
  match Config.load file listen with
  | .ok c => told.adopt c
  | .error cause => told.tell (.error ("Failed to reload configuration: " ++ cause.message) [])

/-- Answers the signal to reload the configuration. -/
def reload (s : Service) (file : Option ByteArray) (listen : Option SocketAddress) : Service :=
  Nat.repeat (fun s => s.reloadOnce file listen) s.reloaders s

end Service
end EventDispatch
