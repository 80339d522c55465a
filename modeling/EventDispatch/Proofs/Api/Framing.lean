import EventDispatch.Api.Serve
import EventDispatch.Proofs.Run.Lasting

/-!
# What a request changes

**Input.** Any request to the operator interface, well-formed or not, and any state of the
service, also one whose store is out of reach.

**Rule.** Four routes change something.  Each says by its status that it did
(`Route.grants`), and `Route.Changes` says what exactly: one event is added, the expired
events are sent back to wait, or one class enters or leaves the set of paused classes.

**Results.** One lemma for each handler says that it either changes what its route says or
leaves events, rows and paused classes alone.  So `serve_changes_only_what_is_granted`: a
request that is not granted changes nothing, whatever is wrong with it and however far it
was read.
-/

namespace EventDispatch

/-! ## What routes change -/

namespace Service

/-- The events, the rows and the paused classes are the same. -/
structure Untouched (s s' : Service) : Prop where
  store : s'.dispatcher.store = s.dispatcher.store
  pauses : s'.pauses = s.pauses

theorem Untouched.refl (s : Service) : s.Untouched s := ⟨rfl, rfl⟩

end Service

/-- A request for a route with a method that it answers. -/
def Request.asks (r : Request) (route : Route) : Bool :=
  Route.ofPath? r.target.path = some route && route.allows r.verb

namespace Route

/-- Whether the status says that the route changed what it is there to change. -/
def grants (route : Route) (status : Nat) : Bool :=
  match route with
  | .events => status = 201
  | .reset | .pause _ | .resume _ => status = 200
  | .health | .ownerEvents _ | .eventLogs _ | .trigger => false

/-- What a route changes: registration adds one new event, the one of the body; a reset
sends those events back to wait whose deadline ran out, and counts them; the switch adds or
removes the class of the path. -/
def Changes (route : Route) (s : Service) (r : Request) (response : Response) (s' : Service) :
    Prop :=
  match route with
  | .events => ∃ request deadline e,
      RegisterRequest.ofBody r.body = .ok request ∧ request.deadline? = some deadline ∧
      e = NewEvent.recorded ⟨request.tag, request.owner, request.payload, deadline⟩ e.id
        s.dispatcher.now ∧
      e.status = .new ∧ e.retries = 0 ∧
      response.body = .json (RegisterReply.encode ⟨e.id⟩) ∧
      s'.dispatcher.store = { s.dispatcher.store with events := s.dispatcher.store.events ++ [e] } ∧
      s'.pauses = s.pauses
  | .reset =>
      response.body = .json (ResetReply.encode ⟨s.dispatcher.store.events.countP fun e =>
        e.status = .processing && Store.hasExpired e s.dispatcher.now⟩) ∧
      s'.dispatcher.store =
        { s.dispatcher.store with
          events := s.dispatcher.store.events.map fun e =>
            if e.status = .processing && Store.hasExpired e s.dispatcher.now then
              { e with status := .pending, updated := s.dispatcher.now }
            else e } ∧
      s'.pauses = s.pauses
  | .pause name => ∃ c, Target.percentDecode? name = some c.name ∧
      s'.dispatcher.store = s.dispatcher.store ∧
      ∀ x, x ∈ s'.pauses.classes ↔ x = c ∨ x ∈ s.pauses.classes
  | .resume name => ∃ c, Target.percentDecode? name = some c.name ∧
      s'.dispatcher.store = s.dispatcher.store ∧
      ∀ x, x ∈ s'.pauses.classes ↔ x ≠ c ∧ x ∈ s.pauses.classes
  | .health | .ownerEvents _ | .eventLogs _ | .trigger => False

theorem lt_of_grants {route : Route} {status : Nat} (h : route.grants status = true) :
    status < 400 := by
  unfold grants at h
  split at h
  · rw [of_decide_eq_true h]
    decide
  · rw [of_decide_eq_true h]
    decide
  · rw [of_decide_eq_true h]
    decide
  · rw [of_decide_eq_true h]
    decide
  all_goals cases h

end Route

namespace Request

variable {r : Request} {route route' : Route}

theorem route_unique (h : r.asks route = true) (h' : r.asks route' = true) : route = route' := by
  have hpath := of_decide_eq_true (Bool.and_eq_true_iff.1 h).1
  have hpath' := of_decide_eq_true (Bool.and_eq_true_iff.1 h').1
  exact Option.some.inj (hpath.symm.trans hpath')

/-- What is granted was not asked for the head alone. -/
theorem verb_ne_head (h : r.asks route = true) {status : Nat}
    (hgrants : route.grants status = true) : r.verb ≠ .head := by
  intro hverb
  have hallows := (Bool.and_eq_true_iff.1 h).2
  rw [hverb] at hallows
  cases route with
  | health | ownerEvents | eventLogs | trigger => cases hgrants
  | events | reset | pause | resume => cases hallows

end Request

/-- A failure is answered with a status that no route grants. -/
theorem ApiError.le_status (e : ApiError) : 400 ≤ e.response.status := by
  cases e <;> simp [response, Response.failure]

theorem EventClass.eq_name_of_ofName? {name : String} {c : EventClass}
    (h : EventClass.ofName? name = some c) : name = c.name := by
  obtain ⟨before, after, heq, -⟩ := List.lookup_eq_some_iff.1 h
  have hmem : (name, c) ∈ EventClass.choices := heq ▸ List.mem_append_right _ List.mem_cons_self
  obtain ⟨x, -, hx⟩ := List.mem_map.1 hmem
  cases hx
  rfl

namespace PauseSwitch

variable (p : PauseSwitch) (c x : EventClass)

theorem mem_pause : x ∈ (p.pause c).2.classes ↔ x = c ∨ x ∈ p.classes := by
  unfold pause isPaused
  split
  · next hpaused =>
    refine ⟨Or.inr, fun h => h.elim (fun hx => ?_) fun hx => hx⟩
    rw [hx]
    simpa using hpaused
  · simp

theorem mem_resume : x ∈ (p.resume c).2.classes ↔ x ≠ c ∧ x ∈ p.classes := by
  unfold resume isPaused
  split
  · simp [and_comm]
  · next hpaused =>
    refine ⟨fun hx => ⟨fun heq => hpaused ?_, hx⟩, And.right⟩
    rw [← heq]
    simpa using hx

end PauseSwitch

/-! ## The handlers -/

namespace Service

variable (s : Service)

/-- What a handler answers is granted, with the changes of its route, or nothing changes. -/
def Abides (route : Route) (r : Request) (answer : Response × Service) : Prop :=
  (route.grants answer.1.status = true → route.Changes s r answer.1 answer.2) ∧
    (route.grants answer.1.status = false → s.Untouched answer.2)

variable {s} {route : Route} {r : Request}

theorem abides_of_untouched {answer : Response × Service} (h : s.Untouched answer.2)
    (hstatus : route.grants answer.1.status = false) : s.Abides route r answer :=
  ⟨fun hgrants => absurd (hstatus.symm.trans hgrants) Bool.false_ne_true, fun _ => h⟩

/-- A refusal changes nothing. -/
theorem abides_refuse (s : Service) (route : Route) (r : Request) {s' : Service}
    (h : s.Untouched s') (e : ApiError) : s.Abides route r (s'.refuse e) := by
  refine abides_of_untouched ⟨h.store, h.pauses⟩ (Bool.eq_false_iff.2 fun hgrants => ?_)
  have hlow := Route.lt_of_grants hgrants
  have hhigh := e.le_status
  change e.response.status < 400 at hlow
  omega

theorem abides_unreadable (s : Service) (route : Route) (r : Request) {status : Nat}
    (h : 400 ≤ status) : s.Abides route r (.unreadable status, s) := by
  refine abides_of_untouched (.refl s) (Bool.eq_false_iff.2 fun hgrants => ?_)
  have hlow : status < 400 := Route.lt_of_grants hgrants
  omega

theorem abides_listOwnerEvents (s : Service) (name : List Char) (r : Request) (owner : String)
    (query : ListQuery) : s.Abides (.ownerEvents name) r (s.listOwnerEvents owner query) := by
  unfold listOwnerEvents
  split
  · exact s.abides_refuse _ r (.refl s) _
  · exact abides_of_untouched (.refl s) rfl

theorem abides_listEventLogs (s : Service) (name : List Char) (r : Request) (id : Uuid)
    (query : ListQuery) : s.Abides (.eventLogs name) r (s.listEventLogs id query) := by
  unfold listEventLogs
  split
  · exact s.abides_refuse _ r (.refl s) _
  · exact s.abides_refuse _ r (.refl s) _
  · split
    · exact s.abides_refuse _ r (.refl s) _
    · exact abides_of_untouched (.refl s) rfl

theorem untouched_trigger (s : Service) (hint : String) : s.Untouched (s.trigger hint).2 := by
  unfold trigger
  split <;> exact ⟨rfl, rfl⟩

theorem abides_triggerFrom (s : Service) (r : Request) : s.Abides .trigger r s.triggerFrom := by
  have htrigger := s.untouched_trigger "operator"
  unfold triggerFrom
  split <;> rename_i heq <;> rw [heq] at htrigger
  · exact abides_of_untouched htrigger rfl
  · exact s.abides_refuse _ r htrigger _

theorem registerEvent_error {s s' : Service} {tag : Tag} {owner : String} {deadline : Duration}
    {payload : Except Json.EncodeError Json} {cause : RegisterError}
    (h : s.registerEvent tag owner deadline payload = (.error cause, s')) : s' = s := by
  unfold registerEvent at h
  split at h
  · cases h
    rfl
  · dsimp only at h
    split at h
    · cases h
      rfl
    · cases h

theorem pauses_registerEvent (s : Service) (tag : Tag) (owner : String) (deadline : Duration)
    (payload : Except Json.EncodeError Json) :
    (s.registerEvent tag owner deadline payload).2.pauses = s.pauses := by
  unfold registerEvent
  split
  · rfl
  · dsimp only
    split
    · rfl
    · exact (untouched_trigger _ tag).pauses

theorem abides_registerFrom (s : Service) {r : Request} {request : RegisterRequest}
    (hbody : RegisterRequest.ofBody r.body = .ok request) :
    s.Abides .events r (s.registerFrom request) := by
  unfold registerFrom
  split
  · exact s.abides_refuse _ r (.refl s) _
  · next deadline hdeadline =>
    have hpauses := s.pauses_registerEvent request.tag request.owner deadline (.ok request.payload)
    split
    · next heq =>
      cases registerEvent_error heq
      exact s.abides_refuse _ r (.refl s) _
    · next id s' heq =>
      rw [heq] at hpauses
      obtain ⟨value, hvalue, -, hstore⟩ := store_of_registerEvent heq
      cases hvalue
      refine ⟨fun _ => ?_, nofun⟩
      exact ⟨request, deadline,
        NewEvent.recorded ⟨request.tag, request.owner, request.payload, deadline⟩ id
          s.dispatcher.now,
        hbody, hdeadline, rfl, rfl, rfl, rfl, hstore, hpauses⟩

/-- A registration adds one event, or it changes nothing. -/
theorem abides_registerBody (s : Service) (r : Request) :
    s.Abides .events r (s.registerBody r.contentType r.body) := by
  unfold registerBody
  split
  · split
    · exact s.abides_unreadable _ r (by decide)
    · split
      · exact s.abides_unreadable _ r (by decide)
      · exact s.abides_unreadable _ r (by decide)
      · next hbody => exact s.abides_registerFrom hbody
  · exact s.abides_unreadable _ r (by decide)

/-- A reset sends the expired events back to wait and counts them, or it changes nothing. -/
theorem abides_resetFrom (s : Service) (r : Request) : s.Abides .reset r s.resetFrom := by
  unfold resetFrom
  split
  · next cause s' heq =>
    unfold resetStale at heq
    dsimp only at heq
    split at heq
    · cases heq
      exact s.abides_refuse _ r (.refl s) _
    · cases heq
  · next count s' heq =>
    unfold resetStale at heq
    dsimp only at heq
    split at heq
    · cases heq
    · next hreset =>
      have hanswer := Except.ok.inj (Access.eq_ok_of_bind hreset)
      cases hanswer
      cases heq
      refine ⟨fun _ => ⟨rfl, ?_, ?_⟩, nofun⟩
      · exact (untouched_trigger _ "reset").store
      · exact (untouched_trigger _ "reset").pauses

/-- The switch changes the class that it is given, or it changes nothing. -/
theorem abides_switchClass (s : Service) {raw : List Char} {name : String}
    (hname : Target.percentDecode? raw = some name) {r : Request}
    {switch : EventClass → Bool × Service}
    (hroute : ∀ c : EventClass, Target.percentDecode? raw = some c.name →
      route.Changes s r ⟨200, .json (PauseReply.encode ⟨(switch c).1, (switch c).2.pauses.classes⟩)⟩
        (switch c).2)
    (hgrants : route.grants 200 = true) : s.Abides route r (s.switchClass name switch) := by
  unfold switchClass
  split
  · exact s.abides_refuse _ r (.refl s) _
  · next c hclass =>
    refine ⟨fun _ => hroute c (hname.trans ?_), fun hdenied => ?_⟩
    · rw [EventClass.eq_name_of_ofName? hclass]
    · exact absurd (hdenied.symm.trans hgrants) Bool.false_ne_true

theorem changes_pauseClass (s : Service) (r : Request) (response : Response) {raw : List Char}
    {c : EventClass} (hraw : Target.percentDecode? raw = some c.name) :
    Route.Changes (.pause raw) s r response (s.pauseClass c).2 := by
  have hmem := fun x => s.pauses.mem_pause c x
  unfold pauseClass
  split <;> rename_i heq <;> rw [heq] at hmem <;> exact ⟨c, hraw, rfl, hmem⟩

theorem changes_resumeClass (s : Service) (r : Request) (response : Response) {raw : List Char}
    {c : EventClass} (hraw : Target.percentDecode? raw = some c.name) :
    Route.Changes (.resume raw) s r response (s.resumeClass c).2 := by
  have hmem := fun x => s.pauses.mem_resume c x
  unfold resumeClass
  split <;> rename_i heq <;> rw [heq] at hmem <;> exact ⟨c, hraw, rfl, hmem⟩

/-! ## Requests -/

/-- Each route abides by what it says. -/
theorem abides_answer (s : Service) (route : Route) (r : Request) :
    s.Abides route r (s.answer route r) := by
  have hunreadable : s.Abides route r (.unreadable 400, s) :=
    s.abides_unreadable route r (Nat.le_refl 400)
  cases route with
  | health => exact abides_of_untouched (.refl s) rfl
  | ownerEvents owner =>
    simp only [answer]
    split
    · exact s.abides_listOwnerEvents _ r _ _
    · exact hunreadable
  | eventLogs id =>
    simp only [answer]
    split
    · exact s.abides_listEventLogs _ r _ _
    · exact hunreadable
  | events => exact s.abides_registerBody r
  | reset => exact s.abides_resetFrom r
  | trigger => exact s.abides_triggerFrom r
  | pause raw =>
    simp only [answer]
    split
    · next hname => exact s.abides_switchClass hname (fun c => s.changes_pauseClass r _) rfl
    · exact hunreadable
  | resume raw =>
    simp only [answer]
    split
    · next hname => exact s.abides_switchClass hname (fun c => s.changes_resumeClass r _) rfl
    · exact hunreadable

/-- A request is answered by the route that it asks for, without the body if it only asks
for the head, or it is refused for its path or its method. -/
theorem serve_cases (s : Service) (r : Request) :
    (∃ route, r.asks route = true ∧ (s.serve r).1.status = (s.answer route r).1.status ∧
      (s.serve r).2 = (s.answer route r).2 ∧
      (r.verb ≠ .head → s.serve r = s.answer route r)) ∨
    (∀ route, r.asks route = false) ∧ (s.serve r).2 = s := by
  unfold serve Request.asks
  split
  · next hpath => exact Or.inr ⟨fun route => by simp [hpath], rfl⟩
  · next route hpath =>
    split
    · next hallows =>
      refine Or.inl ⟨route, by simp [hpath, hallows], ?_⟩
      split
      · next hverb heq =>
        rw [heq]
        exact ⟨rfl, rfl, fun hnot => absurd hverb hnot⟩
      · next heq _ =>
        rw [heq]
        exact ⟨rfl, rfl, fun _ => rfl⟩
    · next hallows =>
      refine Or.inr ⟨fun other => ?_, rfl⟩
      rw [hpath, Bool.and_eq_false_iff]
      by_cases hsame : route = other
      · subst hsame
        exact Or.inr (Bool.eq_false_iff.2 hallows)
      · exact Or.inl (by simpa using hsame)

/-- A request that asks for more than the head is answered by its route alone. -/
theorem serve_of_asks (s : Service) {r : Request} {route : Route} (h : r.asks route = true)
    (hverb : r.verb ≠ .head) : s.serve r = s.answer route r := by
  rcases s.serve_cases r with ⟨asked, hasked, -, -, hanswer⟩ | ⟨hnone, -⟩
  · cases Request.route_unique h hasked
    exact hanswer hverb
  · rw [hnone] at h
    cases h

/-- A request that its route grants changes what the route says and nothing else.  Any
other request changes neither events nor rows nor paused classes, and so does every request
that is answered with the status of an error. -/
theorem serve_changes_only_what_is_granted (s : Service) (r : Request) :
    (∀ route, r.asks route = true → route.grants (s.serve r).1.status = true →
      route.Changes s r (s.serve r).1 (s.serve r).2) ∧
    ((∀ route, r.asks route = true → route.grants (s.serve r).1.status = false) →
      s.Untouched (s.serve r).2) ∧
    (400 ≤ (s.serve r).1.status → s.Untouched (s.serve r).2) := by
  have hdenied : (∀ route, r.asks route = true → route.grants (s.serve r).1.status = false) →
      s.Untouched (s.serve r).2 := by
    intro hgrants
    rcases s.serve_cases r with ⟨route, hasks, hstatus, hservice, -⟩ | ⟨-, hsame⟩
    · rw [hservice]
      exact (s.abides_answer route r).2 (hstatus ▸ hgrants route hasks)
    · rw [hsame]
      exact .refl s
  refine ⟨fun route hasks hgrants => ?_, hdenied, fun herror => hdenied fun route _ => ?_⟩
  · rcases s.serve_cases r with ⟨asked, hasked, -, -, hanswer⟩ | ⟨hnone, -⟩
    · obtain rfl : asked = route := Request.route_unique hasked hasks
      have hsame := hanswer (Request.verb_ne_head hasks hgrants)
      rw [hsame] at hgrants ⊢
      exact (s.abides_answer asked r).1 hgrants
    · rw [hnone route] at hasks
      cases hasks
  · refine Bool.eq_false_iff.2 fun hgrants => ?_
    have hlow := Route.lt_of_grants hgrants
    omega

/-- Nothing was done yet. -/
def framingStart : Service :=
  .ofDispatcher
    (.initial .empty ⟨1000, ⟨.ofSeconds 180, 5⟩, none⟩ .unhindered .always .epoch)

/-- A registration with this body. -/
def registering (body : String) : Request :=
  ⟨.post, ⟨"/events".toList, []⟩, some "application/json", body⟩

/-- A body without a deadline, which is that of the kind. -/
def teamBody : String := "\x7b\"event_type\":\"create:team\",\"owner\":\"o\"\x7d"

/-- A body without an owner. -/
def nobodyBody : String := "\x7b\"event_type\":\"create:team\"\x7d"

theorem serve_changes_only_what_is_granted_of_teamBody :
    (framingStart.serve (registering teamBody)).1.status = 201 ∧
      Route.Changes .events framingStart (registering teamBody)
        (framingStart.serve (registering teamBody)).1
        (framingStart.serve (registering teamBody)).2 ∧
      (framingStart.serve (registering nobodyBody)).1.status = 422 ∧
      framingStart.Untouched (framingStart.serve (registering nobodyBody)).2 := by
  have hgranted : (framingStart.serve (registering teamBody)).1.status = 201 := by decide +kernel
  have hdenied : (framingStart.serve (registering nobodyBody)).1.status = 422 := by
    decide +kernel
  have hasks : (registering teamBody).asks .events = true := by decide +kernel
  obtain ⟨hchanges, -, -⟩ :=
    serve_changes_only_what_is_granted framingStart (registering teamBody)
  obtain ⟨-, -, huntouched⟩ :=
    serve_changes_only_what_is_granted framingStart (registering nobodyBody)
  refine ⟨hgranted, hchanges .events hasks ?_, hdenied, huntouched ?_⟩
  · rw [hgranted]
    rfl
  · rw [hdenied]
    decide

end Service
end EventDispatch
