import EventDispatch.Proofs.Api.Framing
import EventDispatch.Proofs.Wire.Records
import Mathlib.Data.List.DropRight

/-!
# Which registrations are accepted

**Input.** Any request for a registration, and any state of a service whose store is within
reach.

**Domain.** The interface decodes a body that is declared as JSON, is short enough to be read
and has the shape of a request (`Request.registration?`).  The fields of the body say what the
request is (`RegisterRequest.Written`): a deadline and a payload may be left out or be null.

**Rule.** A decoded request is valid if something is left of its tag and of its owner without
the white space around them, and if it gives a deadline of at most a day or its tag is that of
a known kind (`RegisterRequest.IsValid`).

**Results.** The checks on the way to the store, made in several places, come to this one
condition: exactly the valid requests are answered with 201, and each of them adds the event
that it describes.  All other requests are refused and leave the store as it is
(`registers_exactly_valid_requests`).
-/

namespace EventDispatch

/-! ## Blank text -/

namespace Text

/-- What is left of a text without the white space at its ends. -/
def trimmed (s : String) : List Char := (s.toList.dropWhile isBlank).rdropWhile isBlank

/-- Nothing is left of a text exactly if it is blank. -/
theorem trimmed_eq_nil_iff (s : String) : trimmed s = [] ↔ allBlank s = true := by
  rw [trimmed, List.rdropWhile_eq_nil_iff, allBlank, List.all_eq_true]
  refine ⟨fun h c hc => ?_, fun h c hc => h c ((List.dropWhile_sublist isBlank).subset hc)⟩
  -- what was dropped in front is white space anyway
  rw [← List.takeWhile_append_dropWhile (p := isBlank) (l := s.toList)] at hc
  rcases List.mem_append.1 hc with hfront | hrest
  · exact List.mem_takeWhile_imp hfront
  · exact h c hrest

end Text

/-! ## Checks -/

theorem EventKind.ofTag?_eq_some_iff {tag : Tag} {k : EventKind} :
    ofTag? tag = some k ↔ k.tag = tag := by
  refine ⟨fun h => by simpa using List.find?_some h, ?_⟩
  rintro rfl
  exact ofTag?_tag k

/-- The deadline of a kind is one that is accepted. -/
theorem EventKind.defaultDeadline_bounds (k : EventKind) :
    0 < k.defaultDeadline.nanos ∧ k.defaultDeadline.nanos ≤ longestDeadline.nanos := by
  cases k <;> decide

/-- A number of seconds is accepted as a deadline from one second to a day. -/
theorem Duration.ofSeconds_bounds (n : Int) :
    (0 < (ofSeconds n).nanos ∧ (ofSeconds n).nanos ≤ longestDeadline.nanos) ↔
      1 ≤ n ∧ n ≤ 86400 := by
  have hlongest : longestDeadline.nanos = 86400000000000 := by decide
  have hleast : least = -9223372036854775808999999999 := rfl
  have hgreatest : greatest = 9223372036854775807999999999 := rfl
  unfold ofSeconds clamp nanosPerSecond
  split
  · split
    · dsimp only
      omega
    · rw [nanos_maximum]
      omega
  · rw [nanos_minimum]
    omega

theorem Duration.nanos_ofSeconds {n : Int} (hpos : 1 ≤ n) (hday : n ≤ 86400) :
    (ofSeconds n).nanos = n * nanosPerSecond := by
  have hleast : least ≤ n * nanosPerSecond := by
    simp only [least, nanosPerSecond]
    omega
  have hgreatest : n * nanosPerSecond ≤ greatest := by
    simp only [greatest, nanosPerSecond]
    omega
  rw [ofSeconds, clamp, dif_pos hleast, dif_pos hgreatest]

theorem NewEvent.validate_eq_ok_iff (e : NewEvent) :
    e.validate = .ok () ↔ Text.trimmed e.tag ≠ [] ∧ Text.trimmed e.owner ≠ [] ∧
      0 < e.deadline.nanos ∧ e.deadline.nanos ≤ longestDeadline.nanos := by
  simp only [ne_eq, Text.trimmed_eq_nil_iff]
  unfold validate
  split
  · simp_all
  · split
    · simp_all
    · split
      · next hdeadline =>
        simp only [reduceCtorEq, false_iff]
        rintro ⟨-, -, hpos, hle⟩
        omega
      · next htag howner hdeadline =>
        simp only [true_iff]
        exact ⟨htag, howner, by omega, by omega⟩

/-! ## Requests -/

namespace RegisterRequest

/-- The request stands in the fields of a body.  It has no deadline if the field is left out
or null, and the payload null if that field is left out. -/
structure Written (request : RegisterRequest) (fields : Json.Record) : Prop where
  tag : Json.lookup "event_type" fields = some (.str request.tag)
  owner : Json.lookup "owner" fields = some (.str request.owner)
  deadline : ∀ n, request.deadlineSeconds = some n ↔
    Json.lookup "deadline_secs" fields = some (.int n)
  noDeadline : request.deadlineSeconds = none ↔
    Json.lookup "deadline_secs" fields = none ∨ Json.lookup "deadline_secs" fields = some .null
  payload : request.payload = (Json.lookup "payload" fields).getD .null

theorem written_of_ofRecord {fields : Json.Record} {request : RegisterRequest}
    (h : ofRecord fields = .ok request) : request.Written fields := by
  obtain ⟨tag, htag, h⟩ := Json.exists_of_bind_eq_ok h
  obtain ⟨owner, howner, h⟩ := Json.exists_of_bind_eq_ok h
  obtain ⟨deadline, hdeadline, h⟩ := Json.exists_of_bind_eq_ok h
  obtain ⟨payload, hpayload, h⟩ := Json.exists_of_bind_eq_ok h
  cases h
  obtain ⟨hgiven, hmissing⟩ := Json.Record.lookup_of_optional hdeadline
  exact ⟨Json.Record.lookup_of_required htag, Json.Record.lookup_of_required howner, hgiven,
    hmissing, Json.Record.lookup_of_orElse hpayload⟩

/-- A request is read from the fields of the body. -/
theorem exists_written_of_ofBody {body : String} {request : RegisterRequest}
    (h : ofBody body = .ok request) :
    ∃ fields, readRecord (Json.tokens body) = .ok (fields, []) ∧ request.Written fields := by
  unfold ofBody at h
  split at h
  · cases h
  · next fields hread =>
    split at h
    · next hrecord =>
      cases h
      exact ⟨fields, hread, written_of_ofRecord hrecord⟩
    · cases h
  · cases h

/-- A request that is accepted. -/
structure IsValid (request : RegisterRequest) : Prop where
  tag : Text.trimmed request.tag ≠ []
  owner : Text.trimmed request.owner ≠ []
  deadline : (∃ n, request.deadlineSeconds = some n ∧ 1 ≤ n ∧ n ≤ 86400) ∨
    request.deadlineSeconds = none ∧ ∃ k : EventKind, k.tag = request.tag

/-- The deadline of the event of a request: the seconds that it gives, or else the deadline of
its kind. -/
def Sets (request : RegisterRequest) (deadline : Duration) : Prop :=
  (∃ n, request.deadlineSeconds = some n ∧ deadline.nanos = n * nanosPerSecond) ∨
    request.deadlineSeconds = none ∧
      ∃ k : EventKind, k.tag = request.tag ∧ deadline = k.defaultDeadline

/-- A request is valid exactly if it has a deadline with which the store accepts it. -/
theorem isValid_iff (request : RegisterRequest) :
    request.IsValid ↔ ∃ deadline, request.deadline? = some deadline ∧
      (NewEvent.mk request.tag request.owner request.payload deadline).validate = .ok () := by
  simp only [NewEvent.validate_eq_ok_iff]
  cases hgiven : request.deadlineSeconds with
  | some n =>
    have hdeadline : request.deadline? = some (.ofSeconds n) := by
      simp only [deadline?, hgiven]
    simp only [hdeadline, Option.some.injEq, exists_eq_left', Duration.ofSeconds_bounds]
    refine ⟨fun h => ⟨h.tag, h.owner, ?_⟩, fun ⟨htag, howner, hrange⟩ =>
      ⟨htag, howner, Or.inl ⟨n, hgiven, hrange⟩⟩⟩
    rcases h.deadline with ⟨m, hm, hrange⟩ | ⟨hnone, -⟩
    · rw [hgiven] at hm
      cases hm
      exact hrange
    · rw [hgiven] at hnone
      cases hnone
  | none =>
    have hdeadline : request.deadline? =
        (EventKind.ofTag? request.tag).map EventKind.defaultDeadline := by
      simp only [deadline?, hgiven]
    rw [hdeadline]
    constructor
    · rintro ⟨htag, howner, ⟨n, hn, -⟩ | ⟨-, k, hk⟩⟩
      · rw [hgiven] at hn
        cases hn
      · refine ⟨k.defaultDeadline, ?_, htag, howner, k.defaultDeadline_bounds⟩
        rw [EventKind.ofTag?_eq_some_iff.2 hk]
        rfl
    · rintro ⟨deadline, hkind, htag, howner, -⟩
      obtain ⟨k, hk, -⟩ := Option.map_eq_some_iff.1 hkind
      exact ⟨htag, howner, Or.inr ⟨hgiven, k, EventKind.ofTag?_eq_some_iff.1 hk⟩⟩

theorem sets_of_deadline? {request : RegisterRequest} {deadline : Duration}
    (hvalid : request.IsValid) (h : request.deadline? = some deadline) :
    request.Sets deadline := by
  unfold deadline? at h
  split at h
  · next n hgiven =>
    cases h
    refine Or.inl ⟨n, hgiven, ?_⟩
    rcases hvalid.deadline with ⟨m, hm, hrange⟩ | ⟨hnone, -⟩
    · rw [hgiven] at hm
      cases hm
      exact Duration.nanos_ofSeconds hrange.1 hrange.2
    · rw [hgiven] at hnone
      cases hnone
  · next hgiven =>
    obtain ⟨k, hk, rfl⟩ := Option.map_eq_some_iff.1 h
    exact Or.inr ⟨hgiven, k, EventKind.ofTag?_eq_some_iff.1 hk, rfl⟩

end RegisterRequest

/-- The request that the interface decodes: the body is declared as JSON, no longer than what
is read of a body, and of the shape of a request. -/
def Request.registration? (r : Request) : Option RegisterRequest :=
  if r.contentType.any MediaType.isJson && r.body.utf8ByteSize ≤ Service.bodyLimit then
    (RegisterRequest.ofBody r.body).toOption
  else none

theorem Request.ofBody_of_registration? {r : Request} {request : RegisterRequest}
    (h : r.registration? = some request) : RegisterRequest.ofBody r.body = .ok request := by
  unfold registration? at h
  split at h
  · cases hbody : RegisterRequest.ofBody r.body with
    | ok read =>
      rw [hbody] at h
      exact congrArg Except.ok (Option.some.inj h)
    | error cause =>
      rw [hbody] at h
      cases h
  · cases h

/-! ## Answers -/

namespace Service

variable {s : Service}

theorem registerEvent_unhindered (h : s.dispatcher.access = .unhindered) {tag : Tag}
    {owner : String} {deadline : Duration} {payload : Json} {cause : Rejection}
    (hinvalid : (NewEvent.mk tag owner payload deadline).validate = .error cause) :
    s.registerEvent tag owner deadline (.ok payload) =
      (.error (.store (.invalidRecord cause)), s) := by
  simp only [registerEvent, h, Access.insert_unhindered, hinvalid]

/-- A valid request is recorded. -/
theorem registerFrom_of_isValid (h : s.dispatcher.access = .unhindered)
    {request : RegisterRequest} (hvalid : request.IsValid) :
    ∃ deadline, request.Sets deadline ∧
      (s.registerFrom request).1 =
        ⟨201, .json (RegisterReply.encode ⟨s.dispatcher.nextId⟩)⟩ ∧
      (s.registerFrom request).2.dispatcher.store =
        s.dispatcher.store.insert s.dispatcher.nextId s.dispatcher.now
          ⟨request.tag, request.owner, request.payload, deadline⟩ := by
  obtain ⟨deadline, hdeadline, hvalidated⟩ := request.isValid_iff.1 hvalid
  refine ⟨deadline, RegisterRequest.sets_of_deadline? hvalid hdeadline, ?_⟩
  cases hcall : s.registerEvent request.tag request.owner deadline (.ok request.payload) with
  | mk answer s' =>
    cases answer with
    | error cause =>
      simp only [registerEvent, h, Access.insert_unhindered, hvalidated] at hcall
      cases hcall
    | ok id =>
      obtain ⟨value, hvalue, rfl, hstore⟩ := store_of_registerEvent hcall
      cases hvalue
      simp only [registerFrom, hdeadline, hcall, hstore, and_self]

/-- Any other request is refused, and the store stays as it is. -/
theorem registerFrom_of_not_isValid (h : s.dispatcher.access = .unhindered)
    {request : RegisterRequest} (hinvalid : ¬ request.IsValid) :
    (s.registerFrom request).1.status = 400 ∧
      (s.registerFrom request).2.dispatcher.store = s.dispatcher.store := by
  unfold registerFrom
  split
  · exact ⟨rfl, rfl⟩
  · next deadline hdeadline =>
    cases hvalidated :
        (NewEvent.mk request.tag request.owner request.payload deadline).validate with
    | ok accepted => exact absurd (request.isValid_iff.2 ⟨deadline, hdeadline, hvalidated⟩) hinvalid
    | error cause =>
      rw [registerEvent_unhindered h hvalidated]
      exact ⟨rfl, rfl⟩

theorem registerBody_of_registration? (s : Service) {r : Request} {request : RegisterRequest}
    (h : r.registration? = some request) :
    s.registerBody r.contentType r.body = s.registerFrom request := by
  have hbody := Request.ofBody_of_registration? h
  unfold Request.registration? at h
  split at h
  · next hread =>
    obtain ⟨hjson, hshort⟩ := Bool.and_eq_true_iff.1 hread
    have hlimit : ¬ bodyLimit < r.body.utf8ByteSize := by
      have := of_decide_eq_true hshort
      omega
    simp only [registerBody, hjson, if_true, if_neg hlimit, hbody]
  · cases h

/-- A body that is not decoded is refused unread. -/
theorem registerBody_of_registration?_eq_none (s : Service) {r : Request}
    (h : r.registration? = none) :
    (s.registerBody r.contentType r.body).1.status ∈ [400, 413, 415, 422] ∧
      (s.registerBody r.contentType r.body).2 = s := by
  unfold registerBody
  split
  · next hjson =>
    split
    · exact ⟨by simp [Response.unreadable], rfl⟩
    · next hlimit =>
      split
      · exact ⟨by simp [Response.unreadable], rfl⟩
      · exact ⟨by simp [Response.unreadable], rfl⟩
      · next request hbody =>
        have hread : (r.contentType.any MediaType.isJson &&
            r.body.utf8ByteSize ≤ bodyLimit) = true := by
          rw [hjson, Bool.true_and, decide_eq_true_iff]
          omega
        rw [Request.registration?, if_pos hread, hbody] at h
        cases h
  · exact ⟨by simp [Response.unreadable], rfl⟩

/-- Only a request that posts is one for a registration. -/
theorem serve_of_asks_events (s : Service) {r : Request} (h : r.asks .events = true) :
    s.serve r = s.registerBody r.contentType r.body := by
  refine s.serve_of_asks h fun hhead => ?_
  have hallows := (Bool.and_eq_true_iff.1 h).2
  rw [hhead] at hallows
  cases hallows

/-- Within reach of the store, the interface answers a request that it decodes with 201
exactly if the request is valid.  Then one event is added: new, with the tag, the owner and
the payload of the request, and with the deadline that the request gives or else that of its
kind.  A decoded request that is not valid is answered with 400, and a body that is not
decoded with 400, 413, 415 or 422; then nothing is stored. -/
theorem registers_exactly_valid_requests (hstore : s.dispatcher.access = .unhindered)
    {r : Request} (hasks : r.asks .events = true) :
    (∀ request, r.registration? = some request →
      (∃ fields, RegisterRequest.readRecord (Json.tokens r.body) = .ok (fields, []) ∧
        request.Written fields) ∧
      ((s.serve r).1.status = 201 ↔ request.IsValid) ∧
      (request.IsValid → ∃ e : Event,
        e.tag = request.tag ∧ e.owner = request.owner ∧ e.payload = request.payload ∧
        request.Sets e.deadline ∧ e.status = .new ∧ e.retries = 0 ∧
        (s.serve r).1.body = .json (RegisterReply.encode ⟨e.id⟩) ∧
        (s.serve r).2.dispatcher.store =
          { s.dispatcher.store with events := s.dispatcher.store.events ++ [e] }) ∧
      (¬ request.IsValid → (s.serve r).1.status = 400 ∧
        (s.serve r).2.dispatcher.store = s.dispatcher.store)) ∧
    (r.registration? = none → (s.serve r).1.status ∈ [400, 413, 415, 422] ∧
      (s.serve r).2.dispatcher.store = s.dispatcher.store) := by
  rw [s.serve_of_asks_events hasks]
  refine ⟨fun request hrequest => ?_, fun hnone => ?_⟩
  · rw [s.registerBody_of_registration? hrequest]
    refine ⟨RegisterRequest.exists_written_of_ofBody (Request.ofBody_of_registration? hrequest),
      ⟨fun hgranted => ?_, fun hvalid => ?_⟩, fun hvalid => ?_,
      fun hinvalid => registerFrom_of_not_isValid hstore hinvalid⟩
    · by_contra hinvalid
      rw [(registerFrom_of_not_isValid hstore hinvalid).1] at hgranted
      cases hgranted
    · obtain ⟨deadline, -, hanswer, -⟩ := registerFrom_of_isValid hstore hvalid
      rw [hanswer]
    · obtain ⟨deadline, hsets, hanswer, hrecorded⟩ := registerFrom_of_isValid hstore hvalid
      exact ⟨NewEvent.recorded ⟨request.tag, request.owner, request.payload, deadline⟩
        s.dispatcher.nextId s.dispatcher.now, rfl, rfl, rfl, hsets, rfl, rfl,
        congrArg Response.body hanswer, hrecorded⟩
  · obtain ⟨hstatus, hsame⟩ := s.registerBody_of_registration?_eq_none hnone
    exact ⟨hstatus, congrArg (fun t : Service => t.dispatcher.store) hsame⟩

/-- A tag of no known kind, with the longest deadline and without a payload. -/
def longBody : String :=
  "\x7b\"event_type\":\"custom:thing\",\"owner\":\" o\",\"deadline_secs\":86400\x7d"

/-- Almost the tag of a known kind, and no deadline. -/
def nearMissBody : String :=
  "\x7b\"event_type\":\"create:team \",\"owner\":\"o\",\"deadline_secs\":null\x7d"

theorem registers_exactly_valid_requests_of_longBody :
    framingStart.dispatcher.access = .unhindered ∧
      (registering longBody).asks .events = true ∧
      (registering nearMissBody).asks .events = true ∧
      (framingStart.serve (registering longBody)).1.status = 201 ∧
      (∃ e : Event, e.tag = "custom:thing" ∧ e.deadline.nanos = 86400 * nanosPerSecond ∧
        (framingStart.serve (registering longBody)).2.dispatcher.store.events = [e]) ∧
      (framingStart.serve (registering nearMissBody)).1.status = 400 ∧
      (framingStart.serve (registering nearMissBody)).2.dispatcher.store.events = [] := by
  have hlong : (registering longBody).asks .events = true := by decide +kernel
  have hnear : (registering nearMissBody).asks .events = true := by decide +kernel
  have hlongView : (registering longBody).registration?.map
      (fun q => (q.tag, q.owner, q.deadlineSeconds)) =
      some ("custom:thing", " o", some 86400) := by decide +kernel
  have hnearView : (registering nearMissBody).registration?.map
      (fun q => (q.tag, q.deadlineSeconds)) = some ("create:team ", none) := by decide +kernel
  obtain ⟨request, hrequest, hview⟩ := Option.map_eq_some_iff.1 hlongView
  obtain ⟨near, hnearRequest, hnearFields⟩ := Option.map_eq_some_iff.1 hnearView
  obtain ⟨⟨htag, howner, hdeadline⟩, hnearTag, hnearDeadline⟩ :
      (request.tag = "custom:thing" ∧ request.owner = " o" ∧
        request.deadlineSeconds = some 86400) ∧
      near.tag = "create:team " ∧ near.deadlineSeconds = none := by
    simpa using And.intro hview hnearFields
  have hvalid : request.IsValid :=
    ⟨by rw [htag]; decide +kernel, by rw [howner]; decide +kernel,
      Or.inl ⟨86400, hdeadline, by decide, by decide⟩⟩
  have hinvalid : ¬ near.IsValid := fun h => by
    rcases h.deadline with ⟨n, hn, -⟩ | ⟨-, k, hk⟩
    · rw [hnearDeadline] at hn
      cases hn
    · rw [hnearTag] at hk
      revert hk
      cases k <;> decide
  obtain ⟨-, hgranted, hadded, -⟩ :=
    (registers_exactly_valid_requests (s := framingStart) rfl hlong).1 request hrequest
  obtain ⟨-, -, -, hrefused⟩ :=
    (registers_exactly_valid_requests (s := framingStart) rfl hnear).1 near hnearRequest
  obtain ⟨e, hetag, -, -, hsets, -, -, -, hrecorded⟩ := hadded hvalid
  refine ⟨rfl, hlong, hnear, hgranted.2 hvalid, ⟨e, hetag.trans htag, ?_, ?_⟩,
    (hrefused hinvalid).1, ?_⟩
  · rcases hsets with ⟨n, hn, hnanos⟩ | ⟨hnone, -⟩
    · rw [hdeadline] at hn
      cases hn
      exact hnanos
    · rw [hdeadline] at hnone
      cases hnone
  · rw [hrecorded]
    rfl
  · rw [(hrefused hinvalid).2]
    rfl

end Service
end EventDispatch
