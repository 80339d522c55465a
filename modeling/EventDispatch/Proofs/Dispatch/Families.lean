import EventDispatch.Proofs.Dispatch.Routing

/-!
# What families call

**Input.** A registry with a client for every known kind, or with the handler of one family
under any tag, and any event: its tag, its owner and its payload are arbitrary text and JSON.

**Rule.** The action and the resource of a tag name a method (`Tag.methodName`), and the
method says what an event has to hold for it (`Method.callFor`): its owner, if something is
removed, and otherwise a payload of the type of the argument.

**Calls.** What a handler does is known for every client at once.  It makes one call if its
play is that of the call whatever the client does in it (`MakesOnly`): a client that leaves a
mark for each call would show a second one.  It makes none if its play is the same for all
clients (`MakesNone`).

**Results.** The handler of a known kind makes the one call that its tag names, or it makes
none because the payload does not decode (`known_kinds_reach_their_method`).  A family makes
no call for a tag of another kind; all but one refuse the tag, and the family of releases
first refuses a payload that is no release (`foreign_tags_reach_no_client`).
-/

namespace EventDispatch

/-! ## Methods -/

namespace Tag

/-- What stands before the first colon of a tag. -/
def action (tag : Tag) : String := String.ofList (tag.toList.takeWhile (· ≠ ':'))

/-- What methods call a resource. -/
def methodNoun (resource : String) : String :=
  if resource = "compute" then "instance"
  else if resource = "usergsm" then "secret_manager"
  else resource

/-- The name of the method that a tag asks for.  A release is rolled out, rolled back or
uninstalled whichever chart it is of, and a chart is synced whether it is created or changed. -/
def methodName (tag : Tag) : String :=
  if tag.resource = "helm" then String.ofList (tag.action.toList.takeWhile Char.isLower)
  else if tag.resource ∈ ["jupyter", "airflow"] ∧ tag.action ∈ ["create", "update"] then
    "sync_" ++ tag.resource
  else tag.action ++ "_" ++ methodNoun tag.resource

end Tag

/-- The method of a kind. -/
def EventKind.method : EventKind → Method
  | createTeam => .createTeam
  | updateTeam => .updateTeam
  | deleteTeam => .deleteTeam
  | createJupyter | updateJupyter => .syncJupyter
  | deleteJupyter => .deleteJupyter
  | createAirflow | updateAirflow => .syncAirflow
  | deleteAirflow => .deleteAirflow
  | createCompute => .createInstance
  | resizeCompute => .resizeInstance
  | deleteCompute => .deleteInstance
  | createUserSecret => .createSecretManager
  | deleteUserSecret => .deleteSecretManager
  | rolloutJupyter | rolloutAirflow => .rollout
  | rollbackJupyter | rollbackAirflow => .rollback
  | uninstallJupyter | uninstallAirflow => .uninstall

/-- The method of a kind is the one that its tag names. -/
theorem EventKind.name_method (k : EventKind) : k.method.name = Tag.methodName k.tag := by
  cases k <;> decide

/-- The call of a method for an event: its owner is removed from, or its payload is decoded
as the type of the argument. -/
def Method.callFor (m : Method) (e : Event) : Except Json.DecodeError ClientCall :=
  match m with
  | .createTeam => (Wire.decode e.payload).map .createTeam
  | .updateTeam => (Wire.decode e.payload).map .updateTeam
  | .deleteTeam => .ok (.deleteTeam e.owner)
  | .syncJupyter => (Wire.decode e.payload).map .syncJupyter
  | .deleteJupyter => .ok (.deleteJupyter e.owner)
  | .syncAirflow => (Wire.decode e.payload).map .syncAirflow
  | .deleteAirflow => .ok (.deleteAirflow e.owner)
  | .createInstance => (Wire.decode e.payload).map .createInstance
  | .resizeInstance => (Wire.decode e.payload).map .resizeInstance
  | .deleteInstance => .ok (.deleteInstance e.owner)
  | .createSecretManager => (Wire.decode e.payload).map .createSecretManager
  | .deleteSecretManager => .ok (.deleteSecretManager e.owner)
  | .rollout => (Wire.decode e.payload).map .rollout
  | .rollback => (Wire.decode e.payload).map .rollback
  | .uninstall => (Wire.decode e.payload).map .uninstall

theorem Method.method_of_callFor {m : Method} {e : Event} {c : ClientCall}
    (h : m.callFor e = .ok c) : c.method = m := by
  cases m with
  | deleteTeam | deleteJupyter | deleteAirflow | deleteInstance | deleteSecretManager =>
    cases h
    rfl
  | createTeam | updateTeam | syncJupyter | syncAirflow | createInstance | resizeInstance
  | createSecretManager | rollout | rollback | uninstall =>
    obtain ⟨_, -, rfl⟩ := Json.exists_of_map_eq_ok h
    rfl

/-- A kind that removes something takes the owner, whatever the payload is. -/
theorem EventKind.callFor_of_deletes {k : EventKind} (h : Tag.action k.tag = "delete")
    (e : Event) : ∃ c, k.method.callFor e = .ok c ∧ c.argument = .str e.owner := by
  cases k with
  | deleteTeam | deleteJupyter | deleteAirflow | deleteCompute | deleteUserSecret =>
    exact ⟨_, rfl, rfl⟩
  | createTeam | updateTeam | createJupyter | updateJupyter | createAirflow | updateAirflow
  | createCompute | resizeCompute | createUserSecret | rolloutJupyter | rollbackJupyter
  | uninstallJupyter | rolloutAirflow | rollbackAirflow | uninstallAirflow =>
    exact absurd h (by decide)

namespace Family

theorem payloadOf_eq (α : Type) [Wire α] (e : Event) :
    payloadOf α e = (Wire.decode e.payload).mapError .malformedPayload := by
  unfold payloadOf
  split <;> next h => rw [h]; rfl

/-- The family of a kind calls the method of the kind. -/
theorem callFor_ofKind (k : EventKind) (e : Event) :
    (ofKind k).callFor k e = (k.method.callFor e).mapError .malformedPayload := by
  cases k with
  | deleteTeam | deleteJupyter | deleteAirflow | deleteCompute | deleteUserSecret => rfl
  | createTeam | updateTeam =>
    simp only [ofKind, callFor, EventKind.method, Method.callFor, payloadOf_eq]
    cases Wire.decode (α := Team) e.payload <;> rfl
  | createJupyter | updateJupyter =>
    simp only [ofKind, callFor, EventKind.method, Method.callFor, payloadOf_eq]
    cases Wire.decode (α := JupyterValues) e.payload <;> rfl
  | createAirflow | updateAirflow =>
    simp only [ofKind, callFor, EventKind.method, Method.callFor, payloadOf_eq]
    cases Wire.decode (α := AirflowValues) e.payload <;> rfl
  | createCompute | resizeCompute =>
    simp only [ofKind, callFor, EventKind.method, Method.callFor, payloadOf_eq]
    cases Wire.decode (α := ComputeInstance) e.payload <;> rfl
  | createUserSecret =>
    simp only [ofKind, callFor, EventKind.method, Method.callFor, payloadOf_eq]
    cases Wire.decode (α := UserSecretManager) e.payload <;> rfl
  | rolloutJupyter | rollbackJupyter | uninstallJupyter | rolloutAirflow | rollbackAirflow
  | uninstallAirflow =>
    simp only [ofKind, callFor, EventKind.method, Method.callFor, payloadOf_eq]
    cases Wire.decode (α := HelmRelease) e.payload <;> rfl

end Family

/-! ## Calls -/

/-- The play of one call, answered with its outcome. -/
def Client.play (client : Client) (c : ClientCall) (e : Event) : Play :=
  ⟨(client c e).1, .returned (.ok (client c e).2)⟩

/-- For an event, the handler of every client makes one call and returns its outcome. -/
def MakesOnly (handlerOf : Client → Handler) (e : Event) (c : ClientCall) : Prop :=
  ∀ client earlier, (handlerOf client).play earlier e = client.play c e

/-- For an event, the handler of every client makes no call and fails. -/
def MakesNone (handlerOf : Client → Handler) (e : Event) (cause : HandlerError) : Prop :=
  ∀ client earlier, (handlerOf client).play earlier e = .immediate (.error cause)

namespace Family

variable {family : Family} {e : Event}

theorem makesOnly_of_route {c : ClientCall} (h : family.route e = .ok c) :
    MakesOnly family.handler e c := fun client earlier => by
  simp only [handler, h, Client.play]

theorem makesNone_of_route {cause : HandlerError} (h : family.route e = .error cause) :
    MakesNone family.handler e cause := fun client earlier => by
  simp only [handler, h]

end Family

/-! ## Known kinds -/

/-- A tag of no known kind keeps its entry while the known kinds are registered. -/
theorem Registry.find?_registerClient_of_unknown (r : Registry) (client : Client) {tag : Tag}
    (h : EventKind.ofTag? tag = none) : (r.registerClient client).find? tag = r.find? tag := by
  have hne : ∀ k : EventKind, tag ≠ k.tag := fun k heq => by
    rw [heq, EventKind.ofTag?_tag] at h
    cases h
  have hkeep : ∀ (kinds : List EventKind) (r : Registry),
      (kinds.foldl (fun r kind =>
        r.registerKind kind ((Family.ofKind kind).handler client)) r).find? tag = r.find? tag := by
    intro kinds
    induction kinds with
    | nil => exact fun _ => rfl
    | cons kind rest ih =>
      intro r
      refine (ih _).trans ?_
      simp only [registerKind, find?_register, if_neg (hne kind)]
  exact hkeep EventKind.all r

/-- Once a client is registered for every known kind, the handler of a kind makes exactly one
call for an event of the kind, that of the method which the action and the resource of the
tag name: with the owner, if something is removed, and otherwise with the decoded payload.
It returns the outcome of the call.  If the payload does not decode as the argument of the
method, it makes no call and says so.  So it never calls a kind unsupported.  Each kind has
its class, and the other tags keep what they had. -/
theorem Registry.known_kinds_reach_their_method (r : Registry) :
    (∀ k : EventKind, ∃ (handlerOf : Client → Handler) (m : Method),
      (∀ client, (r.registerClient client).find? k.tag =
        some ⟨k.eventClass, handlerOf client⟩) ∧
      m.name = Tag.methodName k.tag ∧
      ∀ e : Event, e.tag = k.tag →
        (∀ c, m.callFor e = .ok c → c.method = m ∧ MakesOnly handlerOf e c) ∧
        (∀ cause, m.callFor e = .error cause →
          MakesNone handlerOf e (.malformedPayload cause)) ∧
        (Tag.action k.tag = "delete" →
          ∃ c, m.callFor e = .ok c ∧ c.argument = .str e.owner) ∧
        ∀ client earlier tag,
          ((handlerOf client).play earlier e).ending ≠ .returned (.error (.unsupported tag))) ∧
    ∀ client tag, EventKind.ofTag? tag = none →
      (r.registerClient client).find? tag = r.find? tag := by
  refine ⟨fun k => ⟨(Family.ofKind k).handler, k.method,
    fun client => r.find?_registerClient client k, k.name_method, fun e htag => ?_⟩,
    fun client tag h => r.find?_registerClient_of_unknown client h⟩
  have hroute : (Family.ofKind k).route e =
      (k.method.callFor e).mapError .malformedPayload := by
    simp only [Family.route, htag, EventKind.ofTag?_tag, Family.callFor_ofKind]
  have hcall : ∀ c, k.method.callFor e = .ok c →
      MakesOnly (Family.ofKind k).handler e c := fun c h =>
    Family.makesOnly_of_route (by rw [hroute, h]; rfl)
  have hnone : ∀ cause, k.method.callFor e = .error cause →
      MakesNone (Family.ofKind k).handler e (.malformedPayload cause) := fun cause h =>
    Family.makesNone_of_route (by rw [hroute, h]; rfl)
  refine ⟨fun c h => ⟨Method.method_of_callFor h, hcall c h⟩, hnone,
    fun hdelete => k.callFor_of_deletes hdelete e, fun client earlier tag => ?_⟩
  cases h : k.method.callFor e with
  | ok c =>
    rw [hcall c h client earlier]
    intro hending
    cases hending
  | error cause =>
    rw [hnone cause h client earlier]
    intro hending
    cases hending

/-! ## Foreign tags -/

namespace Family

/-- The tags of the kinds of a family. -/
def Handles (family : Family) (tag : Tag) : Prop :=
  ∃ k : EventKind, k.tag = tag ∧ ofKind k = family

/-- The family of releases decodes the payload of an event of any known kind before it looks
at the kind: of another family's event it may say that the payload is no release. -/
def Misreads (family : Family) (e : Event) (cause : Json.DecodeError) : Prop :=
  family = helm ∧ (∃ k : EventKind, k.tag = e.tag ∧ ofKind k ≠ helm) ∧
    Wire.decode (α := HelmRelease) e.payload = .error cause

variable {family : Family} {k : EventKind} {e : Event}

theorem callFor_of_foreign (hk : ofKind k ≠ family) (hfamily : family ≠ helm) :
    family.callFor k e = .error (.unsupported e.tag) := by
  cases family with
  | team | chart | compute | userSecret =>
    cases k <;> first | exact absurd rfl hk | rfl
  | helm => exact absurd rfl hfamily

theorem helm_callFor_of_foreign (hk : ofKind k ≠ helm) :
    helm.callFor k e =
      (Wire.decode (α := HelmRelease) e.payload).mapError .malformedPayload >>=
        fun _ => .error (.unsupported e.tag) := by
  simp only [callFor, payloadOf_eq]
  cases k with
  | rolloutJupyter | rollbackJupyter | uninstallJupyter | rolloutAirflow | rollbackAirflow
  | uninstallAirflow => exact absurd rfl hk
  | createTeam | updateTeam | deleteTeam | createJupyter | updateJupyter | deleteJupyter
  | createAirflow | updateAirflow | deleteAirflow | createCompute | resizeCompute
  | deleteCompute | createUserSecret | deleteUserSecret => rfl

/-- What a family answers to a foreign tag. -/
theorem route_of_foreign (h : ¬ family.Handles e.tag) :
    family.route e = .error (.unsupported e.tag) ∨
      ∃ cause, family.Misreads e cause ∧
        family.route e = .error (.malformedPayload cause) := by
  unfold route
  cases hkind : EventKind.ofTag? e.tag with
  | none => exact Or.inl rfl
  | some k =>
    have htag : k.tag = e.tag := by simpa using List.find?_some hkind
    have hk : ofKind k ≠ family := fun heq => h ⟨k, htag, heq⟩
    by_cases hfamily : family = helm
    · subst hfamily
      dsimp only
      rw [helm_callFor_of_foreign hk]
      cases hread : Wire.decode (α := HelmRelease) e.payload with
      | ok release => exact Or.inl rfl
      | error cause => exact Or.inr ⟨cause, ⟨rfl, ⟨k, htag, hk⟩, hread⟩, rfl⟩
    · exact Or.inl (callFor_of_foreign hk hfamily)

/-- What a family answers to a tag of its own. -/
theorem route_of_handles (h : family.Handles e.tag) :
    ∃ k : EventKind, family.route e = (k.method.callFor e).mapError .malformedPayload := by
  obtain ⟨k, htag, rfl⟩ := h
  refine ⟨k, ?_⟩
  simp only [route, ← htag, EventKind.ofTag?_tag, callFor_ofKind]

/-- The handler of a family, registered under any tag, makes no call for an event with a tag
of no kind of the family.  It calls the tag unsupported exactly if the tag is foreign in this
way and the family does not first misread the payload, as only that of releases does. -/
theorem foreign_tags_reach_no_client (family : Family) (r : Registry) (c : EventClass)
    (e : Event) :
    ∃ handlerOf : Client → Handler,
      (∀ client, (r.register e.tag c (family.handler client)).find? e.tag =
        some ⟨c, handlerOf client⟩) ∧
      (∀ client earlier, ((handlerOf client).play earlier e).ending =
          .returned (.error (.unsupported e.tag)) ↔
        ¬ family.Handles e.tag ∧ ∀ cause, ¬ family.Misreads e cause) ∧
      (¬ family.Handles e.tag → MakesNone handlerOf e (.unsupported e.tag) ∨
        ∃ cause, family.Misreads e cause ∧
          MakesNone handlerOf e (.malformedPayload cause)) := by
  have hforeign : ¬ family.Handles e.tag → MakesNone family.handler e (.unsupported e.tag) ∨
      ∃ cause, family.Misreads e cause ∧
        MakesNone family.handler e (.malformedPayload cause) := fun h =>
    (route_of_foreign h).imp makesNone_of_route fun ⟨cause, hmisreads, hroute⟩ =>
      ⟨cause, hmisreads, makesNone_of_route hroute⟩
  refine ⟨family.handler, fun client => ?_, fun client earlier => ⟨fun hanswer => ?_, ?_⟩,
    hforeign⟩
  · rw [Registry.find?_register, if_pos rfl]
  · have hhandles : ¬ family.Handles e.tag := fun h => by
      obtain ⟨k, hroute⟩ := route_of_handles h
      cases hcall : k.method.callFor e with
      | ok call =>
        rw [makesOnly_of_route (by rw [hroute, hcall]; rfl) client earlier] at hanswer
        cases hanswer
      | error cause =>
        rw [makesNone_of_route (by rw [hroute, hcall]; rfl) client earlier] at hanswer
        cases hanswer
    refine ⟨hhandles, fun cause hmisreads => ?_⟩
    obtain ⟨rfl, ⟨k, htag, hk⟩, hread⟩ := hmisreads
    have hroute : helm.route e = .error (.malformedPayload cause) := by
      simp only [route, ← htag, EventKind.ofTag?_tag, helm_callFor_of_foreign hk, hread]
      rfl
    rw [makesNone_of_route hroute client earlier] at hanswer
    cases hanswer
  · rintro ⟨hhandles, hreads⟩
    rcases hforeign hhandles with hnone | ⟨cause, hmisreads, -⟩
    · rw [hnone client earlier]
      rfl
    · exact absurd hmisreads (hreads cause)

/-- A removal that carries nothing. -/
def foreignRemoval : Event :=
  NewEvent.recorded ⟨"delete:jupyter", "team-a-1234", .null, .ofSeconds 300⟩ (.ofSerial 0) .epoch

/-- The family of releases, registered for a removal of another family, finds fault with the
payload instead of the tag. -/
theorem misread_of_foreignRemoval :
    ¬ helm.Handles foreignRemoval.tag ∧
      ∀ client earlier, (helm.handler client).play earlier foreignRemoval =
        .immediate (.error (.malformedPayload (.wrongType .nothing "struct HelmEventData"))) := by
  refine ⟨?_, fun client earlier => ?_⟩
  · rintro ⟨k, htag, hk⟩
    have hsame : k.tag = EventKind.deleteJupyter.tag := htag
    cases EventKind.tag_injective hsame
    cases hk
  · have hroute : helm.route foreignRemoval =
        .error (.malformedPayload (.wrongType .nothing "struct HelmEventData")) := by
      decide +kernel
    exact makesNone_of_route hroute client earlier

end Family
end EventDispatch
