import EventDispatch.Event.Tag
import EventDispatch.Time.Duration

/-!
# Classes and kinds of events

**Rule.** Twenty kinds of events are known. Each has a tag, a class with which it can be paused, and
a deadline for the events that are registered without one. Charts take longer than plain calls, so
their kinds have longer deadlines.

**Contents**

* `EventClass`: the five classes, their names and their order
* `EventKind`: the known kinds, `EventKind.tag`, `EventKind.eventClass`, `EventKind.defaultDeadline`
* `EventKind.ofTag?`, `EventClass.ofName?`: reading them back
-/

namespace EventDispatch

/-- A group of events that is paused together. -/
inductive EventClass where
  /-- Teams. -/
  | team
  /-- Notebook servers. -/
  | jupyter
  /-- Workflow servers. -/
  | airflow
  /-- Personal machines. -/
  | compute
  /-- Personal secret managers. -/
  | userSecret
deriving DecidableEq, Repr, Inhabited

namespace EventClass

/-- Every class, in order. -/
def all : List EventClass := [team, jupyter, airflow, compute, userSecret]

/-- The name of a class. -/
def name : EventClass → String
  | team => "team"
  | jupyter => "jupyter"
  | airflow => "airflow"
  | compute => "compute"
  | userSecret => "usersecret"

/-- The spelling of a class in a listing of values. -/
def label : EventClass → String
  | team => "Team"
  | jupyter => "Jupyter"
  | airflow => "Airflow"
  | compute => "Compute"
  | userSecret => "UserSecret"

/-- The classes under their names. -/
def choices : List (String × EventClass) := all.map fun c => (c.name, c)

/-- The class of a name. -/
def ofName? (name : String) : Option EventClass := choices.lookup name

/-- The members of a set of classes, in order and each once. -/
def sorted (classes : List EventClass) : List EventClass := all.filter classes.contains

instance : ToString EventClass := ⟨name⟩

theorem mem_all (c : EventClass) : c ∈ all := by
  cases c <;> decide

@[simp] theorem mem_sorted {c : EventClass} {classes : List EventClass} :
    c ∈ sorted classes ↔ c ∈ classes := by
  simp [sorted, mem_all]

/-- A class is read back from its name. -/
@[simp] theorem ofName?_name (c : EventClass) : ofName? c.name = some c := by
  cases c <;> rfl

/-- The wording for a name of no class. -/
def unknownText (name : String) : String := "unknown event class: " ++ name

end EventClass

/-- A kind of event that the built-in handlers know. -/
inductive EventKind where
  /-- Create a team. -/
  | createTeam
  /-- Change a team. -/
  | updateTeam
  /-- Remove a team. -/
  | deleteTeam
  /-- Install a team's notebook server. -/
  | createJupyter
  /-- Change a team's notebook server. -/
  | updateJupyter
  /-- Remove a team's notebook server. -/
  | deleteJupyter
  /-- Install a team's workflow server. -/
  | createAirflow
  /-- Change a team's workflow server. -/
  | updateAirflow
  /-- Remove a team's workflow server. -/
  | deleteAirflow
  /-- Create a personal machine. -/
  | createCompute
  /-- Change the disk of a personal machine. -/
  | resizeCompute
  /-- Remove a personal machine. -/
  | deleteCompute
  /-- Create a personal secret manager. -/
  | createUserSecret
  /-- Remove a personal secret manager. -/
  | deleteUserSecret
  /-- Roll a notebook release out. -/
  | rolloutJupyter
  /-- Roll a notebook release back. -/
  | rollbackJupyter
  /-- Uninstall a notebook release. -/
  | uninstallJupyter
  /-- Roll a workflow release out. -/
  | rolloutAirflow
  /-- Roll a workflow release back. -/
  | rollbackAirflow
  /-- Uninstall a workflow release. -/
  | uninstallAirflow
deriving DecidableEq, Repr, Inhabited

namespace EventKind

/-- Every kind, in order. -/
def all : List EventKind :=
  [createTeam, updateTeam, deleteTeam, createJupyter, updateJupyter, deleteJupyter,
   createAirflow, updateAirflow, deleteAirflow, createCompute, resizeCompute, deleteCompute,
   createUserSecret, deleteUserSecret, rolloutJupyter, rollbackJupyter, uninstallJupyter,
   rolloutAirflow, rollbackAirflow, uninstallAirflow]

/-- The tag of the events of a kind. -/
def tag : EventKind → Tag
  | createTeam => "create:team"
  | updateTeam => "update:team"
  | deleteTeam => "delete:team"
  | createJupyter => "create:jupyter"
  | updateJupyter => "update:jupyter"
  | deleteJupyter => "delete:jupyter"
  | createAirflow => "create:airflow"
  | updateAirflow => "update:airflow"
  | deleteAirflow => "delete:airflow"
  | createCompute => "create:compute"
  | resizeCompute => "resize:compute"
  | deleteCompute => "delete:compute"
  | createUserSecret => "create:usergsm"
  | deleteUserSecret => "delete:usergsm"
  | rolloutJupyter => "rolloutJupyter:helm"
  | rollbackJupyter => "rollbackJupyter:helm"
  | uninstallJupyter => "uninstallJupyter:helm"
  | rolloutAirflow => "rolloutAirflow:helm"
  | rollbackAirflow => "rollbackAirflow:helm"
  | uninstallAirflow => "uninstallAirflow:helm"

/-- The class with which a kind is paused. A release goes with its chart. -/
def eventClass : EventKind → EventClass
  | createTeam | updateTeam | deleteTeam => .team
  | createJupyter | updateJupyter | deleteJupyter => .jupyter
  | rolloutJupyter | rollbackJupyter | uninstallJupyter => .jupyter
  | createAirflow | updateAirflow | deleteAirflow => .airflow
  | rolloutAirflow | rollbackAirflow | uninstallAirflow => .airflow
  | createCompute | resizeCompute | deleteCompute => .compute
  | createUserSecret | deleteUserSecret => .userSecret

/-- The deadline of events registered without one. -/
def defaultDeadline : EventKind → Duration
  | createAirflow | rolloutAirflow => .ofMinutes 30
  | updateAirflow => .ofMinutes 15
  | rolloutJupyter | uninstallJupyter | uninstallAirflow => .ofMinutes 10
  | _ => .ofMinutes 5

/-- The kind of a tag. -/
def ofTag? (tag : Tag) : Option EventKind := all.find? fun k => k.tag = tag

theorem mem_all (k : EventKind) : k ∈ all := by
  cases k <;> decide

/-- A kind is read back from its tag. -/
@[simp] theorem ofTag?_tag (k : EventKind) : ofTag? k.tag = some k := by
  cases k <;> rfl

/-- The wording for a tag of no kind. -/
def unknownText (tag : Tag) : String := "unknown event type: " ++ tag

end EventKind

end EventDispatch
