import EventDispatch.Proofs.Api.Addresses
import EventDispatch.Proofs.Api.Framing
import EventDispatch.Proofs.Store.Listing

/-!
# The events of an owner

**Input.** A request for the events of any owner with any limit of 64 bits, and any state of a
service whose store is within reach.

**Rule.** A listing holds at least one item and at most 200, as many as the limit says in
between.  This bounds the number of events, and the number of rows of each.

**Results.** Whatever the owner and the limit, there is a request that says so
(`Request.lists_listing`, `Target.exists_spells`).  It is answered with the first events of the
owner, those that were changed last, each with the last of its rows, and nothing is changed
(`lists_exactly_the_last_events`).
-/

namespace EventDispatch

/-- The request is for the events of an owner, with a limit. -/
structure Request.Lists (r : Request) (owner : String) (limit : Int) : Prop where
  verb : r.verb = .get
  path : ∃ part, Route.ofPath? r.target.path = some (.ownerEvents part) ∧
    Target.percentDecode? part = some owner
  query : ListQuery.ofQuery? r.target.query = some ⟨limit⟩

/-- The request for the events of the owner that the part of the path spells. -/
def Request.listing (part : List Char) (limit : Int) : Request :=
  ⟨.get, .ofText ("/owners/" ++ String.ofList part ++ "/events?limit=" ++ toString limit), none, ""⟩

theorem Request.target_listing {part : List Char} {owner : String}
    (hpart : Target.Spells part owner) (limit : Int) :
    (listing part limit).target =
      ⟨"/owners/".toList ++ part ++ "/events".toList,
        "limit=".toList ++ (toString limit).toList⟩ := by
  have hplain : ∀ c, c ∉ "/owners/".toList → c ∉ part → c ∉ "/events".toList →
      c ∉ "/owners/".toList ++ part ++ "/events".toList := by
    intro c hfront hmiddle hback
    rw [List.mem_append, List.mem_append]
    exact fun hc => hc.elim (fun hc => hc.elim hfront hmiddle) hback
  refine Target.ofText_of_toList ?_ rfl (hplain '?' (by decide) hpart.question (by decide))
    (hplain '#' (by decide) hpart.hash (by decide)) fun hmem => ?_
  · simp
  · rcases List.mem_append.1 hmem with hmem | hmem
    · revert hmem
      decide
    · exact Text.notMem_toString rfl (by decide) limit hmem

/-- A listing is read as what it asks for. -/
theorem Request.lists_listing {part : List Char} {owner : String}
    (hpart : Target.Spells part owner) {limit : Int} (hleast : leastInt64 ≤ limit)
    (hgreatest : limit ≤ greatestInt64) : (listing part limit).Lists owner limit := by
  have htarget := target_listing hpart limit
  refine ⟨rfl, ⟨part, ?_, hpart.decodes⟩, ?_⟩
  · rw [htarget]
    exact Route.ofPath?_ownerEvents hpart.slash
  · rw [htarget]
    exact ListQuery.ofQuery?_limit hleast hgreatest

theorem clampLimit_eq (limit : Int) : clampLimit limit = min (max limit 1) 200 := by
  unfold clampLimit
  omega

namespace Service

variable {s : Service}

theorem serve_of_lists {r : Request} {owner : String} {limit : Int} (h : r.Lists owner limit) :
    s.serve r = s.listOwnerEvents owner ⟨limit⟩ := by
  obtain ⟨part, hpath, hdecode⟩ := h.path
  have hasks : r.asks (.ownerEvents part) = true := by
    rw [Request.asks, hpath, h.verb]
    simp [Route.allows, Route.isReading]
  rw [s.serve_of_asks hasks (by rw [h.verb]; decide)]
  simp only [answer, hdecode, h.query]

/-- Within reach of the store, a request for the events of an owner is answered with exactly
the first of them, from the one that was changed last, and with the last rows of each of them,
newest first: as many as the limit says, but at least one and at most 200, or all if there are
fewer.  Nothing is listed twice, and the service stays as it is.  There is such a request for
each owner and each limit. -/
theorem lists_exactly_the_last_events (hstore : s.dispatcher.access = .unhindered)
    (owner : String) (limit : Int) (hleast : leastInt64 ≤ limit)
    (hgreatest : limit ≤ greatestInt64) :
    (∃ part, Target.Spells part owner) ∧
    (∀ part, Target.Spells part owner → (Request.listing part limit).Lists owner limit) ∧
    ∀ r : Request, r.Lists owner limit →
      ∃ (window : List (Fin s.dispatcher.store.events.length))
        (rows : Fin s.dispatcher.store.events.length → List (Fin s.dispatcher.store.trail.length)),
        s.dispatcher.store.LastEvents owner (min (max limit 1) 200).toNat window ∧
        window.Nodup ∧
        (∀ i, s.dispatcher.store.LastRows (s.dispatcher.store.events.get i).id
          (min (max limit 1) 200).toNat (rows i) ∧ (rows i).Nodup) ∧
        s.serve r = (⟨200, .json (Json.encodeList EventHistory.encode (window.map fun i =>
          .ofEvent (s.dispatcher.store.events.get i)
            ((rows i).map s.dispatcher.store.trail.get)))⟩, s) := by
  refine ⟨Target.exists_spells owner,
    fun part hpart => Request.lists_listing hpart hleast hgreatest, fun r hr => ?_⟩
  obtain ⟨window, rows, hwindow, hrows, hlisted⟩ :=
    s.dispatcher.store.exists_windows_trailsOf owner (min (max limit 1) 200)
  refine ⟨window, rows, hwindow, hwindow.nodup fun _ _ => Store.Fresher.asymm,
    fun i => ⟨hrows i, (hrows i).nodup fun _ _ => lt_asymm⟩, ?_⟩
  rw [serve_of_lists hr]
  simp only [listOwnerEvents, hstore, clampLimit_eq, Access.logsForOwner_unhindered, hlisted,
    List.map_map]
  rfl

/-- Three events of one owner and one of another.  The first was changed last, the others at one
instant.  Two of them have rows. -/
def listedStore : Store :=
  ⟨[NewEvent.recorded ⟨"create:team", "o/1", .null, .ofSeconds 300⟩ (.ofSerial 0)
      (Instant.epoch.shift 1000000000),
    NewEvent.recorded ⟨"create:team", "p", .null, .ofSeconds 300⟩ (.ofSerial 1) .epoch,
    NewEvent.recorded ⟨"update:team", "o/1", .null, .ofSeconds 300⟩ (.ofSerial 2) .epoch,
    NewEvent.recorded ⟨"delete:team", "o/1", .null, .ofSeconds 300⟩ (.ofSerial 3) .epoch],
   [⟨.ofSerial 4, .ofSerial 3, .info, "first", .epoch⟩,
    ⟨.ofSerial 5, .ofSerial 0, .info, "other", .epoch⟩,
    ⟨.ofSerial 6, .ofSerial 3, .error, "second", .epoch⟩,
    ⟨.ofSerial 7, .ofSerial 3, .info, "third", .epoch⟩]⟩

/-- A service with these events. -/
def listingStart : Service :=
  { framingStart with dispatcher := { framingStart.dispatcher with store := listedStore } }

theorem lists_exactly_the_last_events_of_listedStore :
    listingStart.dispatcher.access = .unhindered ∧
      Target.Spells "o%2F1".toList "o/1" ∧
      (Request.listing "o%2F1".toList 2).Lists "o/1" 2 ∧
      listingStart.serve (Request.listing "o%2F1".toList 2) =
        (⟨200, .json (Json.encodeList EventHistory.encode
          [.ofEvent (listedStore.events.get ⟨0, by decide⟩) [listedStore.trail.get ⟨1, by decide⟩],
           .ofEvent (listedStore.events.get ⟨3, by decide⟩)
            [listedStore.trail.get ⟨3, by decide⟩, listedStore.trail.get ⟨2, by decide⟩]])⟩,
          listingStart) := by
  have hspells : Target.Spells "o%2F1".toList "o/1" :=
    ⟨by decide +kernel, by decide, by decide, by decide⟩
  obtain ⟨-, hlists, hanswer⟩ := lists_exactly_the_last_events (s := listingStart) rfl "o/1" 2
    (by decide) (by decide)
  have hrequest := hlists _ hspells
  obtain ⟨window, rows, hwindow, -, hrows, hserve⟩ := hanswer _ hrequest
  have hevents : window = [⟨0, by decide⟩, ⟨3, by decide⟩] :=
    hwindow.unique ⟨by decide +kernel, by decide +kernel, by decide +kernel, by decide +kernel⟩
  have hfirst : rows ⟨0, by decide⟩ = [⟨1, by decide⟩] :=
    (hrows _).1.unique ⟨by decide +kernel, by decide +kernel, by decide +kernel, by decide +kernel⟩
  have hlast : rows ⟨3, by decide⟩ = [⟨3, by decide⟩, ⟨2, by decide⟩] :=
    (hrows _).1.unique ⟨by decide +kernel, by decide +kernel, by decide +kernel, by decide +kernel⟩
  refine ⟨rfl, hspells, hrequest, ?_⟩
  rw [hserve, hevents, List.map_cons, List.map_cons, List.map_nil, hfirst, hlast]
  rfl

end Service
end EventDispatch
