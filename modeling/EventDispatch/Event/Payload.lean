import EventDispatch.Json.Wire
import EventDispatch.Event.Kind
import EventDispatch.Event.Status

/-!
# Payloads

**Rule.** Events that create or change something carry what it should be: a team, the values of a
chart, a machine, a secret manager, or a release. Fields that can be left out have defaults. Events
that remove something carry nothing; their owner says what to remove.

**Contents**

* `Team`, `JupyterValues`, `AirflowValues`, `ComputeInstance`, `UserSecretManager`, `ChartKind`,
  `HelmRelease`, each with its JSON form
* `PayloadType`: their names, and `PayloadType.normalize`
* the JSON forms of classes, kinds, statuses and levels
-/

namespace EventDispatch

open Json

/-- A team and its members. -/
structure Team where
  /-- The identifier of the team. -/
  id : String
  /-- The short name of the team. -/
  slug : String
  /-- The members. -/
  users : List String
  /-- The member who answers for the team. -/
  owner : String
  /-- Whether the team's workflows may only reach allowed hosts. -/
  restrictAirflowEgress : Bool
deriving DecidableEq, Repr

namespace Team

/-- The declared fields. -/
def declared : List Field :=
  [.required "id" decodeText, .required "slug" decodeText,
   .optional "users" (decodeList decodeText), .required "owner" decodeText,
   .optional "restrict_airflow_egress" decodeBool]

/-- Reads a team. -/
def decode : Decoder Team := fun v => do
  let r ← Record.read "Team" declared v
  pure ⟨← r.required "id" decodeText, ← r.required "slug" decodeText,
    ← r.orElse "users" (decodeList decodeText) [], ← r.required "owner" decodeText,
    ← r.orElse "restrict_airflow_egress" decodeBool false⟩

/-- Writes a team. -/
def encode (t : Team) : Json :=
  object [("id", str t.id), ("slug", str t.slug), ("users", encodeTexts t.users),
    ("owner", str t.owner), ("restrict_airflow_egress", bool t.restrictAirflowEgress)]

instance : Wire Team := ⟨encode, decode⟩

end Team

/-- The values of a team's notebook server. -/
structure JupyterValues where
  /-- The team it belongs to. -/
  teamId : String
  /-- The most processor time a notebook may use. -/
  cpuLimit : String
  /-- The processor time a notebook is promised. -/
  cpuGuarantee : String
  /-- The most memory a notebook may use. -/
  memoryLimit : String
  /-- The memory a notebook is promised. -/
  memoryGuarantee : String
  /-- The name of the image notebooks run. -/
  imageName : String
  /-- The version of that image. -/
  imageTag : String
  /-- How long a notebook may be idle. -/
  cullTimeout : String
deriving DecidableEq, Repr

namespace JupyterValues

/-- The declared fields. -/
def declared : List Field :=
  ["team_id", "cpu_limit", "cpu_guarantee", "memory_limit", "memory_guarantee", "image_name",
   "image_tag", "cull_timeout"].map fun name => .required name decodeText

/-- Reads the values. -/
def decode : Decoder JupyterValues := fun v => do
  let r ← Record.read "JupyterValues" declared v
  pure ⟨← r.required "team_id" decodeText, ← r.required "cpu_limit" decodeText,
    ← r.required "cpu_guarantee" decodeText, ← r.required "memory_limit" decodeText,
    ← r.required "memory_guarantee" decodeText, ← r.required "image_name" decodeText,
    ← r.required "image_tag" decodeText, ← r.required "cull_timeout" decodeText⟩

/-- Writes the values. -/
def encode (x : JupyterValues) : Json :=
  object [("team_id", str x.teamId), ("cpu_limit", str x.cpuLimit),
    ("cpu_guarantee", str x.cpuGuarantee), ("memory_limit", str x.memoryLimit),
    ("memory_guarantee", str x.memoryGuarantee), ("image_name", str x.imageName),
    ("image_tag", str x.imageTag), ("cull_timeout", str x.cullTimeout)]

instance : Wire JupyterValues := ⟨encode, decode⟩

end JupyterValues

/-- The values of a team's workflow server. -/
structure AirflowValues where
  /-- The team it belongs to. -/
  teamId : String
  /-- The repository with the workflows. -/
  dagRepo : String
  /-- The branch of that repository. -/
  dagRepoBranch : String
  /-- The image to run, if not the usual one. -/
  airflowImage : Option String
  /-- The version of that image. -/
  airflowTag : Option String
  /-- Whether workflows may only reach allowed hosts. -/
  restrictEgress : Bool
  /-- Whether the server's interface is open to the team. -/
  apiAccess : Bool
deriving DecidableEq, Repr

namespace AirflowValues

/-- The declared fields. -/
def declared : List Field :=
  [.required "team_id" decodeText, .required "dag_repo" decodeText,
   .required "dag_repo_branch" decodeText, .optional "airflow_image" (decodeOption decodeText),
   .optional "airflow_tag" (decodeOption decodeText), .optional "restrict_egress" decodeBool,
   .optional "api_access" decodeBool]

/-- Reads the values. -/
def decode : Decoder AirflowValues := fun v => do
  let r ← Record.read "AirflowValues" declared v
  pure ⟨← r.required "team_id" decodeText, ← r.required "dag_repo" decodeText,
    ← r.required "dag_repo_branch" decodeText, ← r.optional "airflow_image" decodeText,
    ← r.optional "airflow_tag" decodeText, ← r.orElse "restrict_egress" decodeBool false,
    ← r.orElse "api_access" decodeBool false⟩

/-- Writes the values. -/
def encode (x : AirflowValues) : Json :=
  object [("team_id", str x.teamId), ("dag_repo", str x.dagRepo),
    ("dag_repo_branch", str x.dagRepoBranch), ("airflow_image", encodeOption str x.airflowImage),
    ("airflow_tag", encodeOption str x.airflowTag), ("restrict_egress", bool x.restrictEgress),
    ("api_access", bool x.apiAccess)]

instance : Wire AirflowValues := ⟨encode, decode⟩

end AirflowValues

/-- A personal machine. -/
structure ComputeInstance where
  /-- Whose machine it is. -/
  owner : String
  /-- Its name. -/
  name : String
  /-- The size of its disk. -/
  diskSizeGb : Option Nat
deriving DecidableEq, Repr

namespace ComputeInstance

/-- The declared fields. -/
def declared : List Field :=
  [.required "owner" decodeText, .required "name" decodeText,
   .optional "disk_size_gb" (decodeOption decodeWord32)]

/-- Reads a machine. -/
def decode : Decoder ComputeInstance := fun v => do
  let r ← Record.read "ComputeInstance" declared v
  pure ⟨← r.required "owner" decodeText, ← r.required "name" decodeText,
    ← r.optional "disk_size_gb" decodeWord32⟩

/-- Writes a machine. -/
def encode (x : ComputeInstance) : Json :=
  object [("owner", str x.owner), ("name", str x.name),
    ("disk_size_gb", encodeOption (fun n : Nat => int n) x.diskSizeGb)]

instance : Wire ComputeInstance := ⟨encode, decode⟩

end ComputeInstance

/-- A personal secret manager. -/
structure UserSecretManager where
  /-- Whose secrets it keeps. -/
  owner : String
  /-- Its name. -/
  name : String
deriving DecidableEq, Repr

namespace UserSecretManager

/-- The declared fields. -/
def declared : List Field := [.required "owner" decodeText, .required "name" decodeText]

/-- Reads a secret manager. -/
def decode : Decoder UserSecretManager := fun v => do
  let r ← Record.read "UserSecretManager" declared v
  pure ⟨← r.required "owner" decodeText, ← r.required "name" decodeText⟩

/-- Writes a secret manager. -/
def encode (x : UserSecretManager) : Json :=
  object [("owner", str x.owner), ("name", str x.name)]

instance : Wire UserSecretManager := ⟨encode, decode⟩

end UserSecretManager

/-- Which chart a release is of. -/
inductive ChartKind where
  /-- The notebook server. -/
  | jupyter
  /-- The workflow server. -/
  | airflow
deriving DecidableEq, Repr, Inhabited

namespace ChartKind

/-- The name of a chart. -/
def name : ChartKind → String
  | jupyter => "jupyter"
  | airflow => "airflow"

/-- The charts under their names. -/
def choices : List (String × ChartKind) := [jupyter, airflow].map fun c => (c.name, c)

instance : Wire ChartKind := ⟨fun c => str c.name, decodeChoice choices⟩

end ChartKind

/-- A release to roll out, roll back or uninstall. -/
structure HelmRelease where
  /-- The team it belongs to. -/
  teamId : String
  /-- The namespace it lives in. -/
  space : String
  /-- Its name. -/
  releaseName : String
  /-- The chart it is of. -/
  chart : ChartKind
  /-- The version of the chart. -/
  chartVersion : Option String
deriving DecidableEq, Repr

namespace HelmRelease

/-- The declared fields. -/
def declared : List Field :=
  [.required "team_id" decodeText, .required "namespace" decodeText,
   .required "release_name" decodeText, .required "chart" (decodeChoice ChartKind.choices),
   .optional "chart_version" (decodeOption decodeText)]

/-- Reads a release. -/
def decode : Decoder HelmRelease := fun v => do
  let r ← Record.read "HelmEventData" declared v
  pure ⟨← r.required "team_id" decodeText, ← r.required "namespace" decodeText,
    ← r.required "release_name" decodeText, ← r.required "chart" (decodeChoice ChartKind.choices),
    ← r.optional "chart_version" decodeText⟩

/-- Writes a release. -/
def encode (x : HelmRelease) : Json :=
  object [("team_id", str x.teamId), ("namespace", str x.space),
    ("release_name", str x.releaseName), ("chart", str x.chart.name),
    ("chart_version", encodeOption str x.chartVersion)]

instance : Wire HelmRelease := ⟨encode, decode⟩

end HelmRelease

instance : Wire EventClass := ⟨fun c => str c.name, decodeChoice EventClass.choices⟩

instance : Wire Status := ⟨fun s => str s.name, decodeChoice Status.choices⟩

instance : Wire LogLevel := ⟨fun l => str l.name, decodeChoice LogLevel.choices⟩

/-- Reads the tag of a known kind. -/
def EventKind.decode : Decoder EventKind := fun v => do
  let tag ← decodeText v
  match ofTag? tag with
  | some k => pure k
  | none => throw (.refused (unknownText tag))

instance : Wire EventKind := ⟨fun k => str k.tag, EventKind.decode⟩

/-- The shapes a payload can be asked to have. -/
inductive PayloadType where
  /-- A team. -/
  | team
  /-- The values of a notebook server. -/
  | jupyterValues
  /-- The values of a workflow server. -/
  | airflowValues
  /-- A personal machine. -/
  | computeInstance
  /-- A personal secret manager. -/
  | userSecretManager
  /-- A release. -/
  | helmRelease
  /-- The name of a chart. -/
  | chartKind
deriving DecidableEq, Repr

namespace PayloadType

/-- The shapes under the names they have in messages. -/
def choices : List (String × PayloadType) :=
  [("Team", team), ("JupyterValues", jupyterValues), ("AirflowValues", airflowValues),
   ("ComputeInstance", computeInstance), ("UserSecretManager", userSecretManager),
   ("HelmEventData", helmRelease), ("ChartKind", chartKind)]

/-- The full form of a payload of the shape. -/
def normalize : PayloadType → Json → Except DecodeError Json
  | team => Wire.normalize Team
  | jupyterValues => Wire.normalize JupyterValues
  | airflowValues => Wire.normalize AirflowValues
  | computeInstance => Wire.normalize ComputeInstance
  | userSecretManager => Wire.normalize UserSecretManager
  | helmRelease => Wire.normalize HelmRelease
  | chartKind => Wire.normalize ChartKind

end PayloadType

end EventDispatch
