import EventDispatch.Proofs.Run.Fates
import EventDispatch.Proofs.Run.Starting

/-!
# Interleavings of one cycle

**Input.** A dispatcher that has just listed the events of a cycle, with its store within
reach and nobody else's calls to come.

**Algorithm.** The claims of the cycle and the steps of the workers that it starts follow
each other in any order, while time passes as it likes.  A handler that is ever out of
time is so after the same actions in every order (`Service.interleaves`).

**Invariant.** Each event has a fate, fixed by the listing: the account that its worker
leaves, or the one that it has if it gets none.  A worker and what is ahead of it lead to
the fate of its event, a listed event leads to it once it is claimed, and every other
event is where it is to be (`Dispatcher.Destined`).

**Results.** Every step keeps this (`Destined.startOne`, `Destined.work`,
`Destined.drop`), so that any two interleavings come to the same end (`workers_commute`).
-/

namespace EventDispatch

namespace Store

variable {s s' : Store} {id : Uuid} {f : Event → Event}

/-- A change of one event that is not listed leaves nothing in the way of those that are. -/
theorem Clear.of_revises {r : Registry} {listed : List Event} (h : s.Clear r listed)
    (hrevises : s.Revises s' id f) (hother : ∀ x ∈ listed, x.id ≠ id)
    (hruns : ∀ e, (f e).status = .processing → e.status = .processing) : s'.Clear r listed where
  ids := hrevises.distinctIds h.ids
  stored x hx := by
    obtain ⟨hstored, hready⟩ := h.stored x hx
    rw [hrevises.events]
    exact ⟨List.mem_map.2 ⟨x, hstored, hrevises.other x (hother x hx)⟩, hready⟩
  once := h.once
  apart := h.apart
  idle x hx hknown y hy hrun := by
    rw [hrevises.events] at hy
    obtain ⟨z, hz, rfl⟩ := List.mem_map.1 hy
    obtain ⟨-, htag, howner⟩ := hrevises.same z
    rw [Event.key, Event.resource, htag, howner]
    exact h.idle x hx hknown z hz (hruns z hrun)

theorem Posts.processing_of_revised {change : Account → Account} (h : s.Posts s' id f change)
    (hruns : ∀ x, (change x).status = .processing → x.status = .processing) (e : Event)
    (hrun : (f e).status = .processing) : e.status = .processing := by
  by_cases hid : e.id = id
  · have haccount : (f e).status = (change (s.accountOf e)).status :=
      congrArg Account.status (h.account e hid)
    exact hruns (s.accountOf e) (haccount ▸ hrun)
  · rwa [h.revises.other e hid] at hrun

end Store

namespace Dispatcher

/-- What the claim of an event and its worker make of its account. -/
def fateOfClaimed (d : Dispatcher) (earlier : Uuid → Nat) (cuts : Uuid → Option Nat) (x : Event)
    (h : Handler) : Account :=
  postAll d.settings.policy.grace { d.store.accountOf x with status := .processing }
    ((Worker.spawned 0 { x with status := .processing } h).ahead d.settings.policy (earlier x.id)
      (cuts x.id))

theorem fateOfClaimed_congr {d d' : Dispatcher} {earlier : Uuid → Nat} {cuts : Uuid → Option Nat}
    {x : Event} {h : Handler} (hsettings : d'.settings = d.settings)
    (hrows : d'.store.rowsOf x.id = d.store.rowsOf x.id) :
    d'.fateOfClaimed earlier cuts x h = d.fateOfClaimed earlier cuts x h := by
  unfold fateOfClaimed Store.accountOf
  rw [hsettings, hrows]

/-- The worker leads its event to its fate. -/
structure Leads (d : Dispatcher) (fate : Uuid → Account) (earlier : Uuid → Nat)
    (cuts : Uuid → Option Nat) (w : Worker) (e : Event) : Prop where
  id : e.id = w.event.id
  fate : postAll d.settings.policy.grace (d.store.accountOf e)
    (w.ahead d.settings.policy (earlier w.event.id) (cuts w.event.id)) = fate e.id
  calls : w.awaitsCall = true → d.callsFor w.event.id = earlier w.event.id

theorem Leads.congr {d d' : Dispatcher} {fate : Uuid → Account} {earlier : Uuid → Nat}
    {cuts : Uuid → Option Nat} {w : Worker} {e : Event} (h : d.Leads fate earlier cuts w e)
    (hsettings : d'.settings = d.settings)
    (hrows : d'.store.rowsOf e.id = d.store.rowsOf e.id)
    (hcalls : d'.callsFor w.event.id = d.callsFor w.event.id) :
    d'.Leads fate earlier cuts w e where
  id := h.id
  fate := by
    rw [hsettings, Store.accountOf, hrows]
    exact h.fate
  calls hawaits := hcalls.trans (h.calls hawaits)

/-- Whatever is yet to happen leads each event to its fate. -/
structure Destined (fate : Uuid → Account) (earlier : Uuid → Nat) (cuts : Uuid → Option Nat)
    (frame : List Event) (d : Dispatcher) (candidates : List Event) : Prop where
  access : d.access = .unhindered
  clear : d.store.Clear d.registry candidates
  frame : d.store.events.map Event.unmoved = frame
  staffed : (d.core candidates []).Staffed (d.Leads fate earlier cuts)
  listed : ∀ x ∈ candidates, ∀ entry, d.registry.find? x.tag = some entry →
    d.fateOfClaimed earlier cuts x entry.handler = fate x.id ∧ d.callsFor x.id = earlier x.id
  idle : ∀ e ∈ d.store.events, (∀ w ∈ d.workers, w.event.id ≠ e.id) →
    (∀ x ∈ candidates, x.id = e.id → d.registry.contains x.tag = false) →
      d.store.accountOf e = fate e.id

namespace Destined

variable {fate : Uuid → Account} {earlier : Uuid → Nat} {cuts : Uuid → Option Nat}
  {frame : List Event} {d d' : Dispatcher} {candidates : List Event} {e : Event}
  {rest : List Event}

/-- Neither the clocks nor the gates nor the journal matter. -/
theorem congr (h : d.Destined fate earlier cuts frame candidates)
    (haccess : d'.access = d.access) (hregistry : d'.registry = d.registry)
    (hsettings : d'.settings = d.settings) (hstore : d'.store = d.store)
    (hworkers : d'.workers = d.workers) (hstarted : d'.started = d.started)
    (hcalls : d'.calls = d.calls) : d'.Destined fate earlier cuts frame candidates := by
  cases d
  cases d'
  dsimp only at *
  subst haccess hregistry hsettings hstore hworkers hstarted hcalls
  refine ⟨h.access, h.clear, h.frame, ⟨h.staffed.serials, h.staffed.numbered, h.staffed.apart,
    fun w hw => ?_, h.staffed.once, h.staffed.free⟩, h.listed, h.idle⟩
  obtain ⟨e, he, hid, hleads⟩ := h.staffed.fitted w hw
  exact ⟨e, he, hid, hleads.congr rfl rfl rfl⟩

/-- A listed event of a tag that is not registered is where it is to be. -/
theorem passOver (h : d.Destined fate earlier cuts frame (e :: rest))
    (hunknown : d.registry.contains e.tag = false) :
    d.Destined fate earlier cuts frame rest := by
  refine ⟨h.access, h.clear.tail, h.frame, h.staffed.passOver rfl,
    fun x hx => h.listed x (List.mem_cons_of_mem e hx), fun x hx hfree hrest => ?_⟩
  refine h.idle x hx hfree fun y hy hid => ?_
  rcases List.mem_cons.1 hy with rfl | hy
  · exact hunknown
  · exact hrest y hy hid

/-- Once it is claimed, a listed event is led on by its worker. -/
theorem claim (h : d.Destined fate earlier cuts frame (e :: rest)) {entry : Entry}
    (hentry : d.registry.find? e.tag = some entry) (journal : List Trace) :
    ({ d with
      store := d.store.revise e.id fun x => { x with status := .processing, updated := d.now }
      workers := d.workers ++
        [.spawned d.started { e with status := .processing } entry.handler]
      started := d.started + 1
      journal } : Dispatcher).Destined fate earlier cuts frame rest := by
  have hknown : d.registry.contains e.tag = true := by simp [Registry.contains, hentry]
  obtain ⟨hfate, hcalls⟩ := h.listed e List.mem_cons_self entry hentry
  refine ⟨h.access, h.clear.revise hknown d.now, ?_, ?_,
    fun x hx => h.listed x (List.mem_cons_of_mem e hx), fun x hx hfree hrest => ?_⟩
  · rw [← h.frame]
    simp only [Store.revise, List.map_map]
    refine List.map_congr_left fun x _ => ?_
    simp only [Function.comp_apply]
    split <;> rfl
  · have hleads : d.Leads fate earlier cuts
        (.spawned d.started { e with status := .processing } entry.handler)
        { e with status := .processing, updated := d.now } := ⟨rfl, hfate, fun _ => hcalls⟩
    have hclaim := h.staffed.claim rfl (h.clear.claim?_eq_some hknown d.now) hleads
    refine hclaim.of_store (f := fun x => x) (fun _ hx => hx) (fun _ => rfl)
      (fun w _ x _ _ hleads => hleads.congr rfl rfl rfl) fun _ _ _ => rfl
  · obtain ⟨y, hy, rfl⟩ := List.mem_map.1 hx
    by_cases hid : y.id = e.id
    · -- The event that was claimed has a worker now.
      refine absurd ?_ (hfree _ (List.mem_append_right _ List.mem_cons_self))
      rw [if_pos hid]
      exact hid.symm
    · rw [if_neg hid] at hfree hrest ⊢
      refine h.idle y hy (fun w hw => hfree w (List.mem_append_left _ hw)) fun x hx hxid => ?_
      rcases List.mem_cons.1 hx with rfl | hx
      · exact absurd hxid.symm hid
      · exact hrest x hx hxid

/-- A claim is granted exactly to the listed events of registered tags, and all events stay on
their way. -/
theorem startOne (h : d.Destined fate earlier cuts frame (e :: rest)) :
    (d.startOne e).1 = d.registry.contains e.tag ∧
      (d.startOne e).2.Destined fate earlier cuts frame rest := by
  cases hentry : d.registry.find? e.tag with
  | none =>
    have hunknown : d.registry.contains e.tag = false := by simp [Registry.contains, hentry]
    obtain ⟨trace, hone⟩ : ∃ trace, d.startOne e = (false, d.tell trace) := by
      simp only [Dispatcher.startOne, hentry]
      exact ⟨_, rfl⟩
    rw [hone, hunknown]
    exact ⟨rfl, (h.passOver hunknown).congr rfl rfl rfl rfl rfl rfl rfl⟩
  | some entry =>
    have hknown : d.registry.contains e.tag = true := by simp [Registry.contains, hentry]
    obtain ⟨journal, hone⟩ := startOne_of_clear h.access h.clear hentry
    rw [hone, hknown]
    exact ⟨rfl, h.claim hentry journal⟩

/-- A worker that ends has led its event to its fate. -/
theorem drop (h : d.Destined fate earlier cuts frame candidates) {w : Worker}
    (hw : w ∈ d.workers) (hstage : w.stage = .closing []) :
    (d.dropWorker w.serial).Destined fate earlier cuts frame candidates := by
  refine ⟨h.access, h.clear, h.frame, ?_, h.listed, fun e he hfree hrest => ?_⟩
  · refine (h.staffed.drop fun v => v.serial ≠ w.serial).of_store (f := fun e => e)
      (fun _ he => he) (fun _ => rfl) (fun v _ e _ _ hleads => hleads.congr rfl rfl rfl)
      fun _ _ _ => rfl
  · by_cases hid : w.event.id = e.id
    · obtain ⟨x, hx, hxid, hleads⟩ := h.staffed.fitted w hw
      have hsame : x = e := h.clear.ids.eq_of_id_eq hx he (hxid.trans hid)
      subst hsame
      have hfate := hleads.fate
      rw [Worker.ahead, hstage] at hfate
      exact hfate
    · refine h.idle e he (fun v hv hvid => ?_) hrest
      by_cases hserial : v.serial = w.serial
      · rw [h.staffed.eq_of_serial hv hw hserial] at hvid
        exact hid hvid
      · exact hfree v (List.mem_filter.2 ⟨hv, by simpa using hserial⟩) hvid

/-- A worker that goes on leads its event to the same fate, and touches nothing else. -/
theorem work (h : d.Destined fate earlier cuts frame candidates) {w : Worker} {stage : Stage}
    (hw : w ∈ d.workers) (hcut : w.keepsCut d.uptime (cuts w.event.id) = true)
    {d₁ : Dispatcher} (hstep : d.workerStep w = some (d₁, some stage)) :
    (d₁.putWorker { w with stage }).Destined fate earlier cuts frame candidates := by
  obtain ⟨own, -, -, hleads⟩ := h.staffed.fitted w hw
  obtain ⟨f, change, hposts, hahead, hruns⟩ :=
    (advances_of_workerStep hstep hcut hleads.calls).posts h.access h.clear.ids
  have hcore := core_putWorker hstep candidates []
  have hsettings : d₁.settings = d.settings := congrArg Core.settings hcore
  have hregistry : d₁.registry = d.registry := congrArg Core.registry hcore
  have hworkers : (d₁.putWorker { w with stage }).workers = d.workers.map (Core.staged w stage) :=
    congrArg Core.workers hcore
  have hstays : ∀ x ∈ candidates, x.id ≠ w.event.id := fun x hx =>
    Ne.symm ((h.staffed.free x hx).2.2 w hw)
  refine ⟨(calls_of_workerStep hstep).1.trans h.access, ?_, ?_, ?_, ?_, ?_⟩
  · change d₁.store.Clear d₁.registry candidates
    rw [hregistry]
    exact h.clear.of_revises hposts.revises hstays (hposts.processing_of_revised hruns)
  · change d₁.store.events.map Event.unmoved = frame
    rw [hposts.revises.events, List.map_map, ← h.frame]
    exact List.map_congr_left fun e _ => hposts.unmoved e
  · rw [hcore]
    refine h.staffed.work hw hposts.revises (fun e _ hid hold => ?_) fun v _ hother e hold => ?_
    · refine ⟨(hposts.revises.same e).1.trans hid, ?_, fun hawaits => ?_⟩
      · change postAll d₁.settings.policy.grace (d₁.store.accountOf (f e))
          (Worker.ahead { w with stage } d₁.settings.policy (earlier w.event.id)
            (cuts w.event.id)) = fate (f e).id
        rw [hsettings, hposts.account e hid, hahead, (hposts.revises.same e).1]
        exact hold.fate
      · obtain ⟨hbefore, hnone⟩ := awaitsCall_of_workerStep hstep hawaits
        change d₁.callsFor w.event.id = earlier w.event.id
        rw [(calls_of_workerStep hstep).2, hnone, ite_self, Nat.add_zero]
        exact hold.calls hbefore
    · refine hold.congr hsettings (hposts.rows e.id (hold.id ▸ hother)) ?_
      change d₁.callsFor v.event.id = d.callsFor v.event.id
      rw [(calls_of_workerStep hstep).2, if_neg hother, Nat.add_zero]
  · intro x hx entry hentry
    obtain ⟨hfate, hcalls⟩ := h.listed x hx entry (hregistry ▸ hentry)
    have hother := hstays x hx
    refine ⟨(fateOfClaimed_congr hsettings (hposts.rows x.id hother)).trans hfate, ?_⟩
    · change d₁.callsFor x.id = earlier x.id
      rw [(calls_of_workerStep hstep).2, if_neg hother, Nat.add_zero]
      exact hcalls
  · intro e he hfree hrest
    change e ∈ d₁.store.events at he
    rw [hposts.revises.events] at he
    obtain ⟨z, hz, rfl⟩ := List.mem_map.1 he
    rw [hworkers] at hfree
    rw [(hposts.revises.same z).1] at hfree hrest
    have hfreeZ : ∀ v ∈ d.workers, v.event.id ≠ z.id := by
      intro v hv
      have hmapped := hfree _ (List.mem_map_of_mem hv)
      rwa [(h.staffed.staged_same hv hw stage).2] at hmapped
    have hother : z.id ≠ w.event.id := Ne.symm (hfreeZ w hw)
    have hfate := h.idle z hz hfreeZ fun x hx hid => hregistry ▸ hrest x hx hid
    rw [hposts.revises.other z hother, ← hfate]
    change d₁.store.accountOf z = d.store.accountOf z
    rw [Store.accountOf, Store.accountOf, hposts.rows z.id hother]

end Destined

/-! ## The fates that a listing fixes -/

/-- What becomes of the event of an identifier, once these events are listed. -/
def fate (d : Dispatcher) (cuts : Uuid → Option Nat) (listed : List Event) (id : Uuid) : Account :=
  match d.store.find? id with
  | none => default
  | some e =>
    match if listed.any fun x => x.id = id then d.registry.find? e.tag else none with
    | none => d.store.accountOf e
    | some entry => d.fateOfClaimed d.callsFor cuts e entry.handler

variable {d : Dispatcher} {cuts : Uuid → Option Nat} {listed : List Event}

theorem destined_of_listed (haccess : d.access = .unhindered) (hworkers : d.workers = [])
    (hclear : d.store.Clear d.registry listed)
    (hfresh : ∀ x ∈ listed, x.status ≠ .processing) :
    d.Destined (d.fate cuts listed) d.callsFor cuts (d.store.events.map Event.unmoved) listed := by
  have hfind : ∀ e ∈ d.store.events, d.store.find? e.id = some e :=
    fun _ he => Store.find?_eq_some_of_mem hclear.ids he
  refine ⟨haccess, hclear, rfl, ?_, fun x hx entry hentry => ⟨?_, rfl⟩, fun e he _ hnone => ?_⟩
  · refine ⟨?_, ?_, ?_, ?_, hclear.once, fun x hx => ⟨(hclear.stored x hx).1, hfresh x hx, ?_⟩⟩
    all_goals simp [core, hworkers]
  · have hany : (listed.any fun y => y.id = x.id) = true :=
      List.any_eq_true.2 ⟨x, hx, by simp⟩
    simp only [fate, hfind x (hclear.stored x hx).1, hany, if_true, hentry]
  · simp only [fate, hfind e he]
    split
    · rfl
    · next entry hentry =>
      split at hentry
      · next hany =>
        obtain ⟨x, hx, hid⟩ := List.any_eq_true.1 hany
        have hsame : x = e :=
          hclear.ids.eq_of_id_eq (hclear.stored x hx).1 he (by simpa using hid)
        have hunknown := hnone x hx (by simpa using hid)
        rw [hsame, Registry.contains, hentry] at hunknown
        cases hunknown
      · cases hentry

theorem workers_of_checkLead {d₀ : Dispatcher} (hids : d₀.store.DistinctIds) {leads : Bool}
    (h : d₀.checkLead = (.ok leads, d)) :
    d.access = d₀.access ∧ d.workers = d₀.workers ∧ d.store.DistinctIds := by
  have haccess := d₀.checkLead_frame.access
  rw [h] at haccess
  have hcore := core_checkLead h [] []
  cases leads with
  | false =>
    have hstore : d.store = d₀.store := congrArg Core.store hcore.2
    exact ⟨haccess, congrArg Core.workers hcore.2, hstore ▸ hids⟩
  | true =>
    have hworkers : d.workers = (d₀.core [] []).lead.workers := congrArg Core.workers hcore.2
    have hstore : d.store = (d₀.core [] []).lead.store := congrArg Core.store hcore.2
    unfold Core.lead at hworkers hstore
    refine ⟨haccess, hworkers.trans ?_, hstore ▸ ?_⟩
    · split <;> rfl
    · split
      · exact hids
      · exact hids.after rfl

/-- What a cycle starts with. -/
theorem destined_of_openCycle {d₀ : Dispatcher} (hids : d₀.store.DistinctIds)
    (haccess : d₀.access = .unhindered) (hworkers : d₀.workers = []) {paused : List EventClass}
    {now : Instant} (h : d₀.openCycle paused now = (.ok listed, d)) :
    d.Destined (d.fate cuts listed) d.callsFor cuts (d.store.events.map Event.unmoved) listed := by
  unfold openCycle at h
  split at h
  · cases h
  · next hlead =>
    cases h
    obtain ⟨hsame, hnone, hstill⟩ := workers_of_checkLead hids hlead
    refine destined_of_listed (hsame.trans haccess) (hnone.trans hworkers) ?_
      fun x hx => nomatch hx
    refine ⟨hstill, fun x hx => ?_, List.Pairwise.nil, List.Pairwise.nil, fun x hx => ?_⟩
    all_goals cases hx
  · next hlead =>
    obtain ⟨hsame, hnone, hstill⟩ := workers_of_checkLead hids hlead
    split at h
    · cases h
    · next hlist =>
      cases h
      rw [Access.events_of_listDispatchable hlist]
      refine destined_of_listed (hsame.trans haccess) (hnone.trans hworkers)
        (Store.clear_dispatchable hstill _ paused now) fun x hx => ?_
      rcases (Store.mem_of_mem_dispatchable hx).2 with ⟨hpending, -⟩ | hnew
      · rw [hpending]
        decide
      · rw [hnew]
        decide

end Dispatcher

namespace Service

/-- The loop claims what it listed, workers go on, handlers end that were told to stop, time
passes, gates are given permits, and nobody else does anything.  Handlers are out of time when they
are to be. -/
def interleaves (cuts : Uuid → Option Nat) (s : Service) : Move → Bool
  | .loop =>
    match s.loop.phase with
    | .claiming _ _ => true
    | _ => false
  | .work serial => s.dispatcher.workers.all fun w =>
      w.serial ≠ serial || w.keepsCut s.dispatcher.uptime (cuts w.event.id)
  | .elapse _ => true
  | .setClock _ => true
  | .release _ _ => true
  | .vanish _ => true
  | _ => false

/-- The event that a move claims, if it does. -/
def claimOf (s : Service) : Move → List Uuid
  | .loop =>
    match s.loop.phase with
    | .claiming (e :: _) _ => if (s.dispatcher.startOne e).1 then [e.id] else []
    | _ => []
  | _ => []

/-- The events that moves claim, one after the other. -/
def claims (s : Service) : List Move → List Uuid
  | [] => []
  | m :: rest => s.claimOf m ++ ((s.after? m).map (claims · rest)).getD []

/-- All listed events were gone through, and all workers have ended. -/
def isOver (s : Service) : Bool := s.candidates.isEmpty && s.dispatcher.workers.isEmpty

/-- The events without their times, each with its rows. -/
def outcome (s : Service) : List (Event × List (LogLevel × String)) :=
  s.dispatcher.store.events.map fun e => (e.undated, s.dispatcher.store.rowsOf e.id)

section Runs

variable {fate : Uuid → Account} {earlier : Uuid → Nat} {cuts : Uuid → Option Nat}
  {frame : List Event} {s s' : Service} {m : Move} {moves : List Move}

/-- Each move keeps every event on the way to its fate, and claims the next of the listed events
that are to be claimed, or none. -/
theorem destined_after? (h : s.dispatcher.Destined fate earlier cuts frame s.candidates)
    (hm : s.interleaves cuts m = true) (hafter : s.after? m = some s') :
    s'.dispatcher.Destined fate earlier cuts frame s'.candidates ∧
      s.claimOf m ++ (s'.dispatcher.registry.served s'.candidates).map Event.id =
        (s.dispatcher.registry.served s.candidates).map Event.id := by
  cases m with
  | loop =>
    simp only [interleaves] at hm
    simp only [after?, loopStep] at hafter
    split at hm
    · next events count hphase =>
      rw [hphase] at hafter
      rw [candidates_of_claiming hphase] at h ⊢
      cases events with
      | nil =>
        cases hafter
        unfold finishCycle
        dsimp only
        split <;>
          exact ⟨h.congr rfl rfl rfl rfl rfl rfl rfl,
            by simp [claimOf, hphase, candidates, enter, Registry.served]⟩
      | cons e rest =>
        cases hafter
        obtain ⟨hclaimed, hrest⟩ := h.startOne
        have hregistry : (s.dispatcher.startOne e).2.registry = s.dispatcher.registry :=
          (Dispatcher.step_startOne s.dispatcher e rest []).registry_eq
        refine ⟨hrest, ?_⟩
        simp only [claimOf, hphase, hclaimed, candidates, enter, hregistry]
        cases hentry : s.dispatcher.registry.find? e.tag with
        | none => simp [Registry.contains, hentry, Registry.served_cons_of_none hentry]
        | some entry => simp [Registry.contains, hentry, Registry.served_cons_of_some hentry]
    · cases hm
  | work serial =>
    obtain ⟨d, hwork, rfl⟩ := Option.map_eq_some_iff.1 hafter
    have hregistry := (Dispatcher.step_workOn hwork [] []).registry_eq
    refine ⟨?_, ?_⟩
    · obtain ⟨w, hw, rfl, ⟨hstage, rfl⟩ | ⟨d₁, stage, hstep, rfl⟩⟩ :=
        Dispatcher.worker_of_workOn? hwork
      · exact h.drop hw hstage
      · refine h.work hw ?_ hstep
        simpa using List.all_eq_true.1 hm w hw
    · exact congrArg (fun r : Registry => (r.served s.candidates).map Event.id) hregistry
  | elapse | setClock | release | vanish =>
    cases hafter
    exact ⟨h.congr rfl rfl rfl rfl rfl rfl rfl, rfl⟩
  | _ => cases hm

theorem destined_of_follow? (h : s.dispatcher.Destined fate earlier cuts frame s.candidates)
    (hrun : s.follow? (interleaves cuts) moves = some s') :
    s'.dispatcher.Destined fate earlier cuts frame s'.candidates ∧
      s.claims moves ++ (s'.dispatcher.registry.served s'.candidates).map Event.id =
        (s.dispatcher.registry.served s.candidates).map Event.id := by
  induction moves generalizing s with
  | nil =>
    cases hrun
    exact ⟨h, rfl⟩
  | cons m rest ih =>
    simp only [follow?] at hrun
    split at hrun
    · next hm =>
      obtain ⟨t, hafter, hrest⟩ := Option.bind_eq_some_iff.1 hrun
      obtain ⟨hnext, hclaim⟩ := destined_after? h hm hafter
      obtain ⟨hend, hclaims⟩ := ih hnext hrest
      refine ⟨hend, ?_⟩
      rw [claims, hafter, Option.map_some, Option.getD_some, List.append_assoc, hclaims, hclaim]
    · cases hrun

/-- Once all is over, every event has come to its fate. -/
theorem outcome_of_destined (h : s.dispatcher.Destined fate earlier cuts frame s.candidates)
    (hover : s.isOver = true) :
    s.outcome = frame.map fun e =>
      ({ e with
          status := (fate e.id).status
          retries := (fate e.id).retries
          deadline := (fate e.id).deadline }, (fate e.id).rows) := by
  simp only [isOver, Bool.and_eq_true, List.isEmpty_iff] at hover
  rw [outcome, ← h.frame, List.map_map]
  refine List.map_congr_left fun e he => ?_
  have hfate : s.dispatcher.store.accountOf e = fate e.id := by
    refine h.idle e he (fun w hw => ?_) fun x hx => ?_
    · rw [hover.2] at hw
      cases hw
    · rw [hover.1] at hx
      cases hx
  simp only [Function.comp_apply]
  rw [Store.undated_eq s.dispatcher.store e, show e.unmoved.id = e.id from rfl, ← hfate]
  rfl

/-- Any two interleavings of the claims of a cycle and the steps of the workers that it starts come
to the same end: the same events are claimed, and every event has the same status, count of
retries, deadline and rows. -/
theorem workers_commute {d₀ : Dispatcher} (hids : d₀.store.DistinctIds)
    (haccess : d₀.access = .unhindered) (hworkers : d₀.workers = []) {paused : List EventClass}
    {now : Instant} {listed : List Event} {count : Nat}
    (hopen : d₀.openCycle paused now = (.ok listed, s.dispatcher))
    (hphase : s.loop.phase = .claiming listed count) {moves₁ moves₂ : List Move}
    {s₁ s₂ : Service} (hrun₁ : s.follow? (interleaves cuts) moves₁ = some s₁)
    (hrun₂ : s.follow? (interleaves cuts) moves₂ = some s₂) (hover₁ : s₁.isOver = true)
    (hover₂ : s₂.isOver = true) :
    s₁.outcome = s₂.outcome ∧ s.claims moves₁ = s.claims moves₂ := by
  have hstart : s.dispatcher.Destined (s.dispatcher.fate cuts listed) s.dispatcher.callsFor cuts
      (s.dispatcher.store.events.map Event.unmoved) listed :=
    Dispatcher.destined_of_openCycle hids haccess hworkers hopen
  rw [← candidates_of_claiming hphase] at hstart
  obtain ⟨hend₁, hclaims₁⟩ := destined_of_follow? hstart hrun₁
  obtain ⟨hend₂, hclaims₂⟩ := destined_of_follow? hstart hrun₂
  refine ⟨(outcome_of_destined hend₁ hover₁).trans (outcome_of_destined hend₂ hover₂).symm, ?_⟩
  simp only [isOver, Bool.and_eq_true, List.isEmpty_iff] at hover₁ hover₂
  simp only [hover₁.1, Registry.served, List.filter_nil, List.map_nil, List.append_nil] at hclaims₁
  simp only [hover₂.1, Registry.served, List.filter_nil, List.map_nil, List.append_nil] at hclaims₂
  exact hclaims₁.trans hclaims₂.symm

end Runs

/-- A handler that logs an error and wants its event run again, and one that is out of time while
it sleeps. -/
def racingRegistry : Registry :=
  ⟨[("create:team", ⟨.team, .ofScripts [⟨[.act (.log .error "broken")], .outcome .retry⟩]⟩),
    ("update:team", ⟨.team, .ofScripts
      [⟨[.act (.log .info "waiting"), .act (.sleep 5000), .act (.log .info "late")],
        .outcome .done⟩]⟩)]⟩

/-- A dispatcher with two events of different keys, one of them with a second to run. -/
def racingDispatcher : Dispatcher :=
  { Dispatcher.initial racingRegistry ⟨1000, ⟨.ofSeconds 60, 3⟩, none⟩ .unhindered .always
      .epoch with
    store := (Store.empty.insert (.ofSerial 0) .epoch
      ⟨"create:team", "a", .null, .ofSeconds 300⟩).insert (.ofSerial 1) .epoch
      ⟨"update:team", "b", .null, .ofSeconds 1⟩ }

/-- The service once the cycle of that dispatcher has listed its events, which are both due. -/
def racingStart : Service :=
  { Service.ofDispatcher (racingDispatcher.openCycle [] .epoch).2 with
    loop := ⟨.claiming racingDispatcher.store.events 0, ⟨0⟩, 0⟩ }

/-- One worker after the other. -/
def oneByOne : List Move :=
  List.flatten [[.loop], List.replicate 10 (.work 0), [.loop], List.replicate 7 (.work 1),
    [.elapse 1000], List.replicate 5 (.work 1)]

/-- The workers in turns, the second one started in the midst of the first. -/
def inTurns : List Move :=
  List.flatten [[.loop, .work 0, .work 0, .loop], List.replicate 7 (.work 1),
    List.replicate 3 (.work 0), [.elapse 1000], List.replicate 3 (.work 1),
    List.replicate 5 (.work 0), List.replicate 2 (.work 1)]

/-- The second handler is out of time with two actions left. -/
def racingCuts (id : Uuid) : Option Nat := if id = .ofSerial 1 then some 2 else none

theorem workers_commute_of_inTurns :
    racingDispatcher.store.DistinctIds ∧ racingDispatcher.access = .unhindered ∧
    racingDispatcher.workers = [] ∧
    ∃ listed s₁ s₂,
      racingDispatcher.openCycle [] .epoch = (.ok listed, racingStart.dispatcher) ∧
      racingStart.loop.phase = .claiming listed 0 ∧
      racingStart.follow? (interleaves racingCuts) oneByOne = some s₁ ∧
      racingStart.follow? (interleaves racingCuts) inTurns = some s₂ ∧
      s₁.isOver = true ∧ s₂.isOver = true ∧
      s₁.dispatcher.store.trail.map LogRow.event ≠ s₂.dispatcher.store.trail.map LogRow.event ∧
      s₁.outcome.map (fun x => (x.1.status, x.1.retries)) = [(.pending, 1), (.pending, 1)] ∧
      s₁.outcome.flatMap (fun x => x.2.map Prod.snd) =
        ["dispatching event create:team", "broken",
          "dispatching event update:team", "waiting", "event timed out after 1s"] ∧
      s₁.outcome = s₂.outcome ∧ racingStart.claims oneByOne = racingStart.claims inTurns := by
  have hids : racingDispatcher.store.DistinctIds := by
    unfold Store.DistinctIds
    decide +kernel
  have hlisted : racingDispatcher.store.dispatchable (racingRegistry.filterFor []) .epoch =
      racingDispatcher.store.events := by cbv
  have hopen : racingDispatcher.openCycle [] .epoch =
      (.ok racingDispatcher.store.events, racingStart.dispatcher) := by
    rw [← hlisted]
    rfl
  have hrun₁ : (racingStart.follow? (interleaves racingCuts) oneByOne).map (fun s =>
      (s.isOver, s.dispatcher.store.trail.map LogRow.event)) =
      some (true, [.ofSerial 0, .ofSerial 0, .ofSerial 1, .ofSerial 1, .ofSerial 1]) := by
    decide +kernel
  have hrun₂ : (racingStart.follow? (interleaves racingCuts) inTurns).map (fun s =>
      (s.isOver, s.dispatcher.store.trail.map LogRow.event)) =
      some (true, [.ofSerial 1, .ofSerial 1, .ofSerial 0, .ofSerial 1, .ofSerial 0]) := by
    decide +kernel
  have hend : (racingStart.follow? (interleaves racingCuts) oneByOne).map (fun s =>
      (s.outcome.map (fun x => (x.1.status, x.1.retries)),
        s.outcome.flatMap fun x => x.2.map Prod.snd)) =
      some ([(.pending, 1), (.pending, 1)],
        ["dispatching event create:team", "broken",
          "dispatching event update:team", "waiting", "event timed out after 1s"]) := by
    decide +kernel
  obtain ⟨s₁, hs₁, hview₁⟩ := Option.map_eq_some_iff.1 hrun₁
  obtain ⟨s₂, hs₂, hview₂⟩ := Option.map_eq_some_iff.1 hrun₂
  obtain ⟨hover₁, htrail₁⟩ := by simpa only [Prod.mk.injEq] using hview₁
  obtain ⟨hover₂, htrail₂⟩ := by simpa only [Prod.mk.injEq] using hview₂
  obtain ⟨hcounts, hrows⟩ := by
    simpa only [hs₁, Option.map_some, Option.some.injEq, Prod.mk.injEq] using hend
  refine ⟨hids, rfl, rfl, racingDispatcher.store.events, s₁, s₂, hopen, rfl, hs₁, hs₂, hover₁,
    hover₂, ?_, hcounts, hrows, workers_commute hids rfl rfl hopen rfl hs₁ hs₂ hover₁ hover₂⟩
  rw [htrail₁, htrail₂]
  decide

end Service
end EventDispatch
