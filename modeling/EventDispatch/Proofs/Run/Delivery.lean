import EventDispatch.Proofs.Dispatch.Routing
import EventDispatch.Proofs.Run.Lasting
import EventDispatch.Proofs.Run.Origins

/-!
# What reaches the client

**Input.** A service with a client for every known kind, and any run of it: an event is
registered with a value that its kind carries, and later a worker runs it.

**Invariant.** The event that a worker runs is one that the store had, and the store keeps
the tag and the payload of every event (`Started.stored`).

**Results.** Every value is read back from the JSON value that is written for it, and a
value registered for an event is the argument of the call that its handler makes
(`written_values_arrive`).  On the way the payload is a JSON value throughout; it is not
printed as text.
-/

namespace EventDispatch
namespace Service

variable {s₀ s s' t begun : Service} {x : Event} {w : Worker}

/-- What a cycle saw and claimed is in the store, as something later. -/
theorem Started.stored (hids : s₀.dispatcher.store.DistinctIds)
    (h : Started givesFresh s₀ begun x w s) :
    ∃ e ∈ s.dispatcher.store.events, x.Later e := by
  obtain ⟨listing, claiming, claimed, hbegun, hsees, hgoes, hclaims, -, hreach⟩ := h
  have hlisting : Reaches givesFresh s₀ listing := .move .loop hbegun rfl hsees.lists
  have hclaiming : Reaches givesFresh listing claiming :=
    hgoes.mono fun _ _ hgoesOn => (Bool.and_eq_true_iff.1 hgoesOn).1
  have hsince : Reaches givesFresh listing s :=
    (Reaches.move .loop hclaiming rfl hclaims).trans hreach
  have hfresh : ∀ s m, givesFresh s m = true → s.givesFresh m = true := fun _ _ h => h
  have hids' := (later_of_reaches hfresh hids hlisting).2
  exact (later_of_reaches hfresh hids' hsince).1.exists_mem hsees.stored

variable {registry : Registry} {client : Client} {settings : Settings} {access : Access}
  {election : Election} {now : Instant} {k : EventKind} {c : ClientCall} {owner : String}
  {deadline : Duration} {id : Uuid}

/-- A worker of an event that was registered with the argument of a call makes that call. -/
theorem play_of_registerEvent
    (h : Reaches givesFresh
      (.ofDispatcher (.initial (registry.registerClient client) settings access election now)) s)
    (hm : s.givesFresh (.register k.tag owner deadline (.ok c.argument)) = true)
    (hcarries : k.Carries c) (hfits : c.Fits)
    (hid : s.registerEvent k.tag owner deadline (.ok c.argument) = (.ok id, s'))
    (hreach : Reaches givesFresh s' t) (hw : w ∈ t.dispatcher.workers) (hevent : w.event.id = id)
    (earlier : Nat) :
    w.handler.play earlier w.event =
      ⟨(client c w.event).1, .returned (.ok (client c w.event).2)⟩ := by
  have hfresh : ∀ s m, givesFresh s m = true → s.givesFresh m = true := fun _ _ h => h
  have hafter : s.after? (.register k.tag owner deadline (.ok c.argument)) = some s' := by
    simp only [after?, hid]
  have hregistered := Reaches.move _ h hm hafter
  have hids := distinctIds_of_reaches hfresh (hregistered.trans hreach)
  obtain ⟨begun, seen, entry, hstarted, hentry, hhandler, hseen⟩ :=
    (traced_of_reaches hfresh rfl rfl (hregistered.trans hreach)).workers w hw
  obtain ⟨e, he, hlater⟩ := hstarted.stored Store.distinctIds_empty
  obtain ⟨value, hvalue, e', he', hid', htag, -, hpayload⟩ :=
    lasts_of_registerEvent hfresh (distinctIds_of_reaches hfresh hregistered) hid hreach
  cases hvalue
  -- what the worker runs and what was registered have one identifier, so they are one event
  have hsame : e = e' := by
    refine hids.eq_of_id_eq he he' ?_
    rw [hlater.id, hid', ← hevent, hseen]
  subst hsame
  have hseenTag : seen.tag = k.tag := hlater.tag.symm.trans htag
  have hfound : (registry.registerClient client).find? seen.tag = some entry := hentry
  rw [hseenTag, Registry.find?_registerClient] at hfound
  cases hfound
  rw [hhandler]
  refine hcarries.play hfits ?_ ?_ client earlier
  · rw [hseen]
    exact hseenTag
  · rw [hseen]
    exact hlater.payload.symm.trans hpayload

/-- Every value of a payload and of a message is read back from its JSON value, also from one
with further keys.  So a value registered for an event of a kind that carries it is what the
client is called with, whenever a worker runs the event. -/
theorem written_values_arrive :
    (Wire.Survives Team (Team.declared.map Json.Field.name) fun _ => True) ∧
    (Wire.Survives JupyterValues (JupyterValues.declared.map Json.Field.name) fun _ => True) ∧
    (Wire.Survives AirflowValues (AirflowValues.declared.map Json.Field.name) fun _ => True) ∧
    Wire.Survives ComputeInstance (ComputeInstance.declared.map Json.Field.name)
      ComputeInstance.Fits ∧
    (Wire.Survives UserSecretManager (UserSecretManager.declared.map Json.Field.name)
      fun _ => True) ∧
    (Wire.Survives HelmRelease (HelmRelease.declared.map Json.Field.name) fun _ => True) ∧
    Wire.Survives EventSummary EventSummary.keys EventSummary.Fits ∧
    Wire.Survives TrailEntry (TrailEntry.declared.map Json.Field.name) TrailEntry.Fits ∧
    Wire.Survives EventHistory EventHistory.keys EventHistory.Fits ∧
    (∀ x : EventHistory, x.Fits → ∀ rows wide,
      List.Forall₂ (fun row form => Json.Widens (TrailEntry.declared.map Json.Field.name)
        (Wire.encode row) form) x.trail rows →
      Json.Widens EventHistory.keys
        (Json.object (x.summary.fields ++ [("logs", .arr rows)])) wide →
      Wire.decode wide = .ok x) ∧
    Wire.Survives RegisterRequest (RegisterRequest.declared.map Json.Field.name)
      RegisterRequest.Fits ∧
    (Wire.Survives RegisterReply ["id"] fun _ => True) ∧
    (Wire.Survives PauseReply ["changed", "paused_classes"] fun _ => True) ∧
    Wire.Survives ResetReply ["reset"] ResetReply.Fits ∧
    ∀ (registry : Registry) (client : Client) (settings : Settings) (access : Access)
      (election : Election) (now : Instant) (s s' t : Service) (k : EventKind) (c : ClientCall)
      (owner : String) (deadline : Duration) (id : Uuid),
      Reaches givesFresh
        (.ofDispatcher (.initial (registry.registerClient client) settings access election now))
        s →
      s.givesFresh (.register k.tag owner deadline (.ok c.argument)) = true →
      k.Carries c → c.Fits →
      s.registerEvent k.tag owner deadline (.ok c.argument) = (.ok id, s') →
      Reaches givesFresh s' t →
      ∀ w ∈ t.dispatcher.workers, w.event.id = id → ∀ earlier,
        w.handler.play earlier w.event =
          ⟨(client c w.event).1, .returned (.ok (client c w.event).2)⟩ :=
  ⟨Team.survives, JupyterValues.survives, AirflowValues.survives, ComputeInstance.survives,
    UserSecretManager.survives, HelmRelease.survives, EventSummary.survives,
    TrailEntry.survives, EventHistory.survives,
    fun _ hx _ _ hrows hwide => EventHistory.decode_of_rows hx hrows hwide,
    RegisterRequest.survives, RegisterReply.survives, PauseReply.survives, ResetReply.survives,
    fun _ _ _ _ _ _ _ _ _ _ _ _ _ _ h hm hcarries hfits hid hreach _ hw hevent =>
      play_of_registerEvent h hm hcarries hfits hid hreach hw hevent⟩

/-- A machine with the largest disk there is a word for. -/
def deliveredMachine : ComputeInstance := ⟨"kari", "vm", some 4294967295⟩

/-- A client for every known kind writes its calls down. -/
def deliveryStart : Service :=
  .ofDispatcher (.initial (Registry.empty.registerClient (.recorder fun _ => .done))
    ⟨1000, ⟨.ofSeconds 180, 5⟩, none⟩ .unhindered .always .epoch)

/-- The answer to the registration of the machine, and the service after it. -/
def deliveryCall (s : Service) : Except RegisterError Uuid × Service :=
  s.registerEvent EventKind.resizeCompute.tag "o" (.ofSeconds 300)
    (.ok (ClientCall.resizeInstance deliveredMachine).argument)

theorem written_values_arrive_of_deliveredMachine :
    Wire.decode ((Wire.encode deliveredMachine).adding [("labels", .obj [])]) =
      .ok deliveredMachine ∧
    ∃ s t w, Reaches givesFresh deliveryStart s ∧ s.deliveryCall.1 = .ok (.ofSerial 0) ∧
      Reaches givesFresh s.deliveryCall.2 t ∧ w ∈ t.dispatcher.workers ∧
      w.event.id = .ofSerial 0 ∧
      ∀ earlier, w.handler.play earlier w.event =
        ⟨[.log .info (ClientCall.resizeInstance deliveredMachine).text],
          .returned (.ok .done)⟩ := by
  obtain ⟨-, -, -, hmachine, -, -, -, -, -, -, -, -, -, -, hdelivers⟩ := written_values_arrive
  have hfits : deliveredMachine.Fits := fun n hn => by
    cases hn
    exact le_rfl
  refine ⟨hmachine deliveredMachine hfits _ ⟨_, by decide, rfl⟩, ?_⟩
  have hrun : (deliveryStart.follow? givesFresh [.start]).map (fun s =>
      (s.givesFresh (.register EventKind.resizeCompute.tag "o" (.ofSeconds 300)
        (.ok (ClientCall.resizeInstance deliveredMachine).argument)),
        s.deliveryCall.1.toOption,
        (s.deliveryCall.2.follow? givesFresh (List.replicate 5 .loop)).map
          fun t => t.dispatcher.workers.map (·.event.id))) =
      some (true, some (.ofSerial 0), some [.ofSerial 0]) := by
    decide +kernel
  obtain ⟨s, hs, hview⟩ := Option.map_eq_some_iff.1 hrun
  obtain ⟨hfresh, hview⟩ := Prod.mk.inj hview
  obtain ⟨hid, hview⟩ := Prod.mk.inj hview
  obtain ⟨t, ht, hworkers⟩ := Option.map_eq_some_iff.1 hview
  have hanswer : s.deliveryCall.1 = .ok (.ofSerial 0) := by
    generalize s.deliveryCall.1 = answer at hid
    cases answer with
    | error cause => cases hid
    | ok id => exact congrArg Except.ok (Option.some.inj hid)
  obtain ⟨w, hw, hevent⟩ := List.mem_map.1 (hworkers ▸ List.mem_cons_self)
  have hreach : Reaches givesFresh deliveryStart s := Reaches.refl.follow? hs
  have hlater : Reaches givesFresh s.deliveryCall.2 t := Reaches.refl.follow? ht
  exact ⟨s, t, w, hreach, hanswer, hlater, hw, hevent,
    hdelivers _ _ _ _ _ _ s _ t .resizeCompute (.resizeInstance deliveredMachine) _ _ _ hreach
      hfresh (.resizeCompute deliveredMachine) hfits (Prod.ext hanswer rfl) hlater w hw hevent⟩

end Service
end EventDispatch
