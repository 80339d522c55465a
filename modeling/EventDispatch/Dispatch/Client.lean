import EventDispatch.Dispatch.Handler

/-!
# Clients and families

**Input.** An event of a known kind.

**Rules.** The known kinds fall into five families. The handler of a family turns an event into one
call of its client: events that remove something pass the owner, all others the decoded payload.
An event whose tag is no kind of the family is refused. Creating and changing a chart are one call.
The family of releases reads the payload before it looks at the kind.

**Contents**

* `ClientCall`, `Method`, `ClientCall.method`
* `Family`, `Family.ofKind`, `Family.route`
* `Client`, `Client.dryRun`, `Client.recorder`, `Family.handler`
-/

namespace EventDispatch

/-- A call of a client. -/
inductive ClientCall where
  /-- Create a team. -/
  | createTeam (team : Team)
  /-- Change a team. -/
  | updateTeam (team : Team)
  /-- Remove the owner's team. -/
  | deleteTeam (owner : String)
  /-- Install or change a notebook server. -/
  | syncJupyter (values : JupyterValues)
  /-- Remove the owner's notebook server. -/
  | deleteJupyter (owner : String)
  /-- Install or change a workflow server. -/
  | syncAirflow (values : AirflowValues)
  /-- Remove the owner's workflow server. -/
  | deleteAirflow (owner : String)
  /-- Create a machine. -/
  | createInstance (machine : ComputeInstance)
  /-- Change the disk of a machine. -/
  | resizeInstance (machine : ComputeInstance)
  /-- Remove the owner's machine. -/
  | deleteInstance (owner : String)
  /-- Create a secret manager. -/
  | createSecretManager (manager : UserSecretManager)
  /-- Remove the owner's secret manager. -/
  | deleteSecretManager (owner : String)
  /-- Roll a release out. -/
  | rollout (release : HelmRelease)
  /-- Roll a release back. -/
  | rollback (release : HelmRelease)
  /-- Uninstall a release. -/
  | uninstall (release : HelmRelease)
deriving DecidableEq

/-- The calls without their arguments. -/
inductive Method where
  /-- Create a team. -/
  | createTeam
  /-- Change a team. -/
  | updateTeam
  /-- Remove a team. -/
  | deleteTeam
  /-- Install or change a notebook server. -/
  | syncJupyter
  /-- Remove a notebook server. -/
  | deleteJupyter
  /-- Install or change a workflow server. -/
  | syncAirflow
  /-- Remove a workflow server. -/
  | deleteAirflow
  /-- Create a machine. -/
  | createInstance
  /-- Change the disk of a machine. -/
  | resizeInstance
  /-- Remove a machine. -/
  | deleteInstance
  /-- Create a secret manager. -/
  | createSecretManager
  /-- Remove a secret manager. -/
  | deleteSecretManager
  /-- Roll a release out. -/
  | rollout
  /-- Roll a release back. -/
  | rollback
  /-- Uninstall a release. -/
  | uninstall
deriving DecidableEq, Repr

/-- The name of a call. -/
def Method.name : Method → String
  | createTeam => "create_team"
  | updateTeam => "update_team"
  | deleteTeam => "delete_team"
  | syncJupyter => "sync_jupyter"
  | deleteJupyter => "delete_jupyter"
  | syncAirflow => "sync_airflow"
  | deleteAirflow => "delete_airflow"
  | createInstance => "create_instance"
  | resizeInstance => "resize_instance"
  | deleteInstance => "delete_instance"
  | createSecretManager => "create_secret_manager"
  | deleteSecretManager => "delete_secret_manager"
  | rollout => "rollout"
  | rollback => "rollback"
  | uninstall => "uninstall"

namespace ClientCall

/-- The call without its argument. -/
def method : ClientCall → Method
  | createTeam _ => .createTeam
  | updateTeam _ => .updateTeam
  | deleteTeam _ => .deleteTeam
  | syncJupyter _ => .syncJupyter
  | deleteJupyter _ => .deleteJupyter
  | syncAirflow _ => .syncAirflow
  | deleteAirflow _ => .deleteAirflow
  | createInstance _ => .createInstance
  | resizeInstance _ => .resizeInstance
  | deleteInstance _ => .deleteInstance
  | createSecretManager _ => .createSecretManager
  | deleteSecretManager _ => .deleteSecretManager
  | rollout _ => .rollout
  | rollback _ => .rollback
  | uninstall _ => .uninstall

/-- The argument of a call. -/
def argument : ClientCall → Json
  | createTeam t | updateTeam t => Wire.encode t
  | syncJupyter v => Wire.encode v
  | syncAirflow v => Wire.encode v
  | createInstance m | resizeInstance m => Wire.encode m
  | createSecretManager m => Wire.encode m
  | rollout r | rollback r | uninstall r => Wire.encode r
  | deleteTeam owner | deleteJupyter owner | deleteAirflow owner => .str owner
  | deleteInstance owner | deleteSecretManager owner => .str owner

/-- The call in words. -/
def text (c : ClientCall) : String := c.method.name ++ " " ++ c.argument.compact

end ClientCall

/-- A group of kinds that share a client. -/
inductive Family where
  /-- Teams. -/
  | team
  /-- Notebook and workflow servers. -/
  | chart
  /-- Personal machines. -/
  | compute
  /-- Personal secret managers. -/
  | userSecret
  /-- Releases. -/
  | helm
deriving DecidableEq, Repr

namespace Family

/-- The family that handles a kind. -/
def ofKind : EventKind → Family
  | .createTeam | .updateTeam | .deleteTeam => team
  | .createJupyter | .updateJupyter | .deleteJupyter => chart
  | .createAirflow | .updateAirflow | .deleteAirflow => chart
  | .createCompute | .resizeCompute | .deleteCompute => compute
  | .createUserSecret | .deleteUserSecret => userSecret
  | .rolloutJupyter | .rollbackJupyter | .uninstallJupyter => helm
  | .rolloutAirflow | .rollbackAirflow | .uninstallAirflow => helm

/-- The payload of an event as a value of a type. -/
def payloadOf (α : Type) [Wire α] (e : Event) : Except HandlerError α :=
  match Wire.decode (α := α) e.payload with
  | .ok a => .ok a
  | .error cause => .error (.malformedPayload cause)

/-- The call that a family makes for an event of a kind. -/
def callFor (family : Family) (kind : EventKind) (e : Event) : Except HandlerError ClientCall :=
  match family, kind with
  | team, .createTeam => (payloadOf Team e).map .createTeam
  | team, .updateTeam => (payloadOf Team e).map .updateTeam
  | team, .deleteTeam => .ok (.deleteTeam e.owner)
  | chart, .createJupyter | chart, .updateJupyter => (payloadOf JupyterValues e).map .syncJupyter
  | chart, .deleteJupyter => .ok (.deleteJupyter e.owner)
  | chart, .createAirflow | chart, .updateAirflow => (payloadOf AirflowValues e).map .syncAirflow
  | chart, .deleteAirflow => .ok (.deleteAirflow e.owner)
  | compute, .createCompute => (payloadOf ComputeInstance e).map .createInstance
  | compute, .resizeCompute => (payloadOf ComputeInstance e).map .resizeInstance
  | compute, .deleteCompute => .ok (.deleteInstance e.owner)
  | userSecret, .createUserSecret => (payloadOf UserSecretManager e).map .createSecretManager
  | userSecret, .deleteUserSecret => .ok (.deleteSecretManager e.owner)
  | helm, kind => do
    let release ← payloadOf HelmRelease e
    match kind with
    | .rolloutJupyter | .rolloutAirflow => pure (.rollout release)
    | .rollbackJupyter | .rollbackAirflow => pure (.rollback release)
    | .uninstallJupyter | .uninstallAirflow => pure (.uninstall release)
    | _ => throw (.unsupported e.tag)
  | _, _ => .error (.unsupported e.tag)

/-- The call that a family makes for an event. -/
def route (family : Family) (e : Event) : Except HandlerError ClientCall :=
  match EventKind.ofTag? e.tag with
  | some kind => family.callFor kind e
  | none => .error (.unsupported e.tag)

end Family

/-- What a client does in a call, and the outcome. -/
abbrev Client := ClientCall → Event → List Deed × Outcome

namespace Client

/-- The size of a disk in a record. -/
def sizeText : Option Nat → String
  | none => "None"
  | some n => "Some(" ++ toString n ++ ")"

/-- What a rehearsed call is told as. -/
def narration (id : Uuid) (c : ClientCall) : Trace :=
  let about := fun (what : String) (fields : List (String × String)) =>
    Trace.info ("dry run: " ++ what)
      (("event_id", .event id) :: fields.map fun (k, v) => (k, .text v))
  let release := fun (what : String) (r : HelmRelease) =>
    about what [("release", r.releaseName), ("namespace", r.space)]
  match c with
  | .createTeam t => about "create team" [("team", t.slug)]
  | .updateTeam t => about "update team" [("team", t.slug)]
  | .deleteTeam owner => about "delete team" [("team_id", owner)]
  | .syncJupyter v => about "sync jupyter" [("team_id", v.teamId)]
  | .deleteJupyter owner => about "delete jupyter" [("team_id", owner)]
  | .syncAirflow v => about "sync airflow" [("team_id", v.teamId)]
  | .deleteAirflow owner => about "delete airflow" [("team_id", owner)]
  | .createInstance m => about "create compute instance" [("instance", m.name)]
  | .resizeInstance m =>
    about "resize compute instance" [("instance", m.name), ("disk_size_gb", sizeText m.diskSizeGb)]
  | .deleteInstance owner => about "delete compute instance" [("owner", owner)]
  | .createSecretManager m => about "create secret manager" [("secret", m.name)]
  | .deleteSecretManager owner => about "delete secret manager" [("owner", owner)]
  | .rollout r => release "helm rollout" r
  | .rollback r => release "helm rollback" r
  | .uninstall r => release "helm uninstall" r

/-- A client that touches nothing and reports every call as done. -/
def dryRun : Client := fun c e => ([.narrate (narration e.id c)], .done)

/-- A client that writes each call to the trail of the event and answers as told. -/
def recorder (outcome : Method → Outcome) : Client :=
  fun c _ => ([.log .info c.text], outcome c.method)

end Client

/-- The handler of a family. -/
def Family.handler (family : Family) (client : Client) : Handler where
  play _ e :=
    match family.route e with
    | .ok call => ⟨(client call e).1, .returned (.ok (client call e).2)⟩
    | .error cause => .immediate (.error cause)

end EventDispatch
