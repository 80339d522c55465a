import EventDispatch.Proofs.Config.Accepted
import EventDispatch.Proofs.Run.Starting
import EventDispatch.Proofs.Run.Windows

/-!
# Events that wait for ever

**Input.** A run of a dispatcher with an accepted configuration, while the clock stays
before the year 3000.

**Results.** A grace of up to seven thousand years strands no event, as long as the clock
was not set to before the year 1250 either: every pending event comes due, and from then
on a listing finds an event of its key to claim (`no_event_is_stranded`).  Both limits
are needed: with a longer grace the first retry may already be due after the end of the
calendar, and where the clock jumps far ahead after a long wait, a later one may.
-/

namespace EventDispatch

/-- The start of the year 1250. -/
def Instant.startOf1250 : Instant := ⟨-22720953600000000000, by decide, by decide⟩

/-- The last nanosecond of the year 2999. -/
def Instant.endOf2999 : Instant := ⟨32503679999999999999, by decide, by decide⟩

/-- The longest grace with which a first retry is due before the end of the calendar, after a
deadline of a day and with a clock that stays before the year 3000. -/
def longestGrace : Duration := .ofSeconds 220898534399

namespace Event

variable {grace : Duration} {start stop : Instant} {first e : Event}

/-- An event comes due once it has waited, if the calendar reaches that far. -/
theorem exists_dueAt? (hdeadline : 0 ≤ e.deadline.nanos) (hretried : 0 ≤ e.retries)
    (hcalendar : e.updated.nanos + e.delay ≤ Instant.greatest) :
    ∃ due, e.dueAt? = some due ∧ due.nanos = e.updated.nanos + e.delay := by
  have hdelay : 0 ≤ e.delay := Int.mul_nonneg hdeadline hretried
  have hlower := e.updated.lower
  have hfits : Duration.least ≤ e.delay ∧ e.delay ≤ Duration.greatest := by
    simp only [Duration.least, Duration.greatest, Instant.least, Instant.greatest] at *
    omega
  have hwindow : e.window? = some ⟨e.delay, hfits.1, hfits.2⟩ :=
    (window?_eq_some_iff hretried).2 rfl
  refine ⟨⟨e.updated.nanos + e.delay, by omega, hcalendar⟩, ?_, rfl⟩
  rw [dueAt?_eq_bind_window?, hwindow]
  exact Instant.ofNanos?_eq_some_iff.2 rfl

/-- With such a clock and such a grace an event comes due before the end of the calendar. -/
theorem Paced.comesDue (h : Paced grace .startOf1250 .endOf2999 first e)
    (hgrace : 0 ≤ grace.nanos) (hlongest : grace.nanos ≤ longestGrace.nanos) :
    ∃ due, e.dueAt? = some due ∧ due.nanos < Instant.greatest := by
  have hwait := h.delay_le hgrace
  have hupdated := Instant.le_iff.1 h.notAfter
  have hlimits : longestGrace.nanos = 220898534399000000000 ∧
      longestDeadline.nanos = 86400000000000 := by decide
  have hcalendar : e.updated.nanos + e.delay < Instant.greatest := by
    simp only [Instant.greatest, Instant.startOf1250, Instant.endOf2999] at *
    omega
  obtain ⟨due, hdue, hnanos⟩ := exists_dueAt?
    (Int.le_of_lt (h.scheduled.deadline_pos hgrace h.positive)) h.scheduled.retried
    (Int.le_of_lt hcalendar)
  exact ⟨due, hdue, hnanos ▸ hcalendar⟩

theorem isOverdue_of_dueAt?_lt {due now : Instant} (hdue : e.dueAt? = some due)
    (hnow : due < now) : e.isOverdue now = true := by
  unfold dueAt? at hdue
  unfold isOverdue EventDispatch.isOverdue
  rw [hdue]
  exact decide_eq_true hnow

end Event

namespace Store

variable {s : Store} {r : Registry} {paused : List EventClass} {now : Instant} {e : Event}

/-- What is listed under a registered tag can be claimed. -/
theorem claim?_isSome_of_listed (h : s.DistinctIds)
    (he : e ∈ s.dispatchable (r.filterFor paused) now) (hknown : r.contains e.tag = true)
    (clock : Instant) : (s.claim? clock e.id).isSome = true := by
  have hclear := clear_dispatchable h r paused now
  have halone : s.Clear r [e] := by
    refine ⟨h, ?_, List.pairwise_singleton _ _, List.pairwise_singleton _ _, ?_⟩
    · intro x hx
      rw [List.mem_singleton.1 hx]
      exact hclear.stored e he
    · intro x hx
      rw [List.mem_singleton.1 hx]
      exact hclear.idle e he
  rw [halone.claim?_eq_some hknown clock]
  rfl

/-- Under the key of an overdue event that nothing of its key runs, some pending event is
listed and can be claimed. -/
theorem exists_listed_of_overdue (h : s.DistinctIds) (he : e ∈ s.events)
    (hpending : e.status = .pending) (hoverdue : e.isOverdue now = true)
    (hknown : r.contains e.tag = true)
    (hunpaused : (r.filterFor paused).isPaused e.tag = false)
    (hidle : ∀ x ∈ s.events, x.status = .processing → x.key ≠ e.key) :
    ∃ x ∈ s.dispatchable (r.filterFor paused) now, x.key = e.key ∧ x.status = .pending ∧
      (s.claim? now x.id).isSome = true := by
  have hknown' : (r.filterFor paused).isKnown e.tag = true := by
    rw [r.isKnown_filterFor]
    exact hknown
  rcases listed_or_blocked he (Or.inl ⟨hpending, hoverdue⟩) hunpaused hknown' with
    hlisted | ⟨x, hx, hrun, hkey⟩ | ⟨x, hx, hxknown, hkey⟩ | ⟨hnew, -⟩
  · exact ⟨e, hlisted, rfl, hpending, claim?_isSome_of_listed h hlisted hknown now⟩
  · exact absurd hkey (hidle x hx hrun)
  · have hregistered : r.contains x.tag = true := (r.isKnown_filterFor paused x.tag) ▸ hxknown
    refine ⟨x, hx, hkey, ?_, claim?_isSome_of_listed h hx hregistered now⟩
    rcases (mem_of_mem_dispatchable hx).2 with ⟨hready, -⟩ | hnew
    · exact hready
    · exact absurd hkey.symm (key_ne_of_pending hx hxknown hnew he hpending hknown')
  · rw [hpending] at hnew
    cases hnew

end Store

namespace Service

/-- As long as the clock stays between the years 1250 and 3000, an accepted configuration with a
grace of at most `longestGrace` strands no event.  Every pending event comes due at some time,
and from then on it is overdue: a listing that finds nothing of its key being run finds a pending
event of the key that can be claimed. -/
theorem no_event_is_stranded {file : Option ByteArray} {listen : Option SocketAddress}
    {config : Config} (hload : Config.load file listen = .ok config)
    (hgrace : config.settings.policy.grace.nanos ≤ longestGrace.nanos)
    {registry : Registry} {access : Access} {election : Election} {now : Instant}
    {s₀ s : Service} (hbuild : build? registry config.settings access election now = some s₀)
    (hstart : .startOf1250 ≤ now) (hstop : now ≤ .endOf2999)
    (hreach : Reaches (keepsPace .startOf1250 .endOf2999) s₀ s) :
    ∀ e ∈ s.dispatcher.store.events, e.status = .pending →
      ∃ due, e.dueAt? = some due ∧ (∃ later, due < later) ∧
        ∀ later, due < later →
          e.isOverdue later = true ∧
          ∀ paused, s.dispatcher.registry.contains e.tag = true →
            (s.dispatcher.registry.filterFor paused).isPaused e.tag = false →
            (∀ x ∈ s.dispatcher.store.events, x.status = .processing → x.key ≠ e.key) →
              ∃ x ∈ s.dispatcher.store.dispatchable
                  (s.dispatcher.registry.filterFor paused) later,
                x.key = e.key ∧ x.status = .pending ∧
                  (s.dispatcher.store.claim? later x.id).isSome = true := by
  have hnonneg := (Config.accepted_of_load hload).grace_nonneg
  have hpaced := paced_of_reaches (paced_of_build? hbuild hstart hstop) hnonneg hreach
  intro e he hpending
  obtain ⟨first, hone⟩ := hpaced.paced e he
  obtain ⟨due, hdue, hcalendar⟩ := hone.comesDue hnonneg hgrace
  refine ⟨due, hdue, ⟨.last, hcalendar⟩, fun later hlater => ?_⟩
  have hoverdue := Event.isOverdue_of_dueAt?_lt hdue hlater
  refine ⟨hoverdue, fun paused hknown hunpaused hidle => ?_⟩
  exact Store.exists_listed_of_overdue hpaced.ids he hpending hoverdue hknown hunpaused hidle

theorem exists_run {registry : Registry} {settings : Settings} {now : Instant} {moves : List Move}
    {allowed : Service → Move → Bool} {α : Type} {view : Service → α} {value : α}
    (h : ((build? registry settings .unhindered .always now).bind
      (follow? allowed · moves)).map view = some value) :
    ∃ s₀ s, build? registry settings .unhindered .always now = some s₀ ∧ Reaches allowed s₀ s ∧
      view s = value := by
  obtain ⟨s, hrun, hview⟩ := Option.map_eq_some_iff.1 h
  obtain ⟨s₀, hbuild, hfollow⟩ := Option.bind_eq_some_iff.1 hrun
  exact ⟨s₀, s, hbuild, Reaches.refl.follow? hfollow, hview⟩

/-- A handler that always wants its event run again. -/
def returningRegistry : Registry :=
  ⟨[("create:team", ⟨.team, .ofScripts [⟨[], .outcome .retry⟩]⟩)]⟩

/-- An event is registered, a cycle claims it, and its worker sends it back. -/
def onceReturned : List Move :=
  List.flatten [[.register "create:team" "team-a" (.ofSeconds 300) (.ok .null), .start],
    List.replicate 5 .loop, List.replicate 6 (.work 0)]

/-- More than three thousand years later the event is claimed again, and the clock is set to the
end of the year 2999 before it is sent back again. -/
def twiceReturned : List Move :=
  List.flatten [onceReturned,
    [.setClock ⟨-270000000000000000000, by decide, by decide⟩, .trigger "again"],
    List.replicate 5 .loop, List.replicate 5 (.work 1), [.setClock .endOf2999, .work 1]]

/-- Whether some pending event never comes due. -/
def strands (s : Service) : Bool :=
  s.dispatcher.store.events.any fun e => e.status = .pending && e.dueAt?.isNone

theorem no_event_is_stranded_of_onceReturned :
    ∃ config s₀ s, Config.load (some "".toUTF8) none = .ok config ∧
      config.settings.policy.grace.nanos ≤ longestGrace.nanos ∧
      build? returningRegistry config.settings .unhindered .always .epoch = some s₀ ∧
      .startOf1250 ≤ Instant.epoch ∧ .epoch ≤ Instant.endOf2999 ∧
      Reaches (keepsPace .startOf1250 .endOf2999) s₀ s ∧
      s.dispatcher.store.events.map (fun e => (e.status, e.retries)) = [(.pending, 1)] ∧
      ∀ e ∈ s.dispatcher.store.events, e.status = .pending →
        ∃ due, e.dueAt? = some due ∧ (∃ later, due < later) ∧
          ∀ later, due < later →
            e.isOverdue later = true ∧
            ∀ paused, s.dispatcher.registry.contains e.tag = true →
              (s.dispatcher.registry.filterFor paused).isPaused e.tag = false →
              (∀ x ∈ s.dispatcher.store.events, x.status = .processing → x.key ≠ e.key) →
                ∃ x ∈ s.dispatcher.store.dispatchable
                    (s.dispatcher.registry.filterFor paused) later,
                  x.key = e.key ∧ x.status = .pending ∧
                    (s.dispatcher.store.claim? later x.id).isSome = true := by
  obtain ⟨config, hload, hsettings⟩ : ∃ config, Config.load (some "".toUTF8) none = .ok config ∧
      config.settings = ⟨10000, ⟨.ofSeconds 180, 5⟩, none⟩ :=
    Config.exists_of_load (by decide +kernel)
  have hrun : ((build? returningRegistry ⟨10000, ⟨.ofSeconds 180, 5⟩, none⟩ .unhindered .always
      .epoch).bind (follow? (keepsPace .startOf1250 .endOf2999) · onceReturned)).map
      (fun s => s.dispatcher.store.events.map fun e => (e.status, e.retries)) =
      some [(.pending, 1)] := by decide +kernel
  obtain ⟨s₀, s, hbuild, hreach, hview⟩ := exists_run hrun
  rw [← hsettings] at hbuild
  have hgrace : config.settings.policy.grace.nanos ≤ longestGrace.nanos := by
    rw [hsettings]
    decide
  exact ⟨config, s₀, s, hload, hgrace, hbuild, by decide, by decide, hreach, hview,
    no_event_is_stranded hload hgrace hbuild (by decide) (by decide) hreach⟩

/-- With a grace of a trillion seconds the first retry is due after the end of the calendar.
With a grace that is short enough the second one is, if the clock stood in the year -9999 and
was set to the year 2999 meanwhile. -/
theorem strands_of_twiceReturned :
    (∃ config s₀ s, Config.load
        (some "[dispatcher]\nerror_grace_secs = 1000000000000\n".toUTF8) none = .ok config ∧
      build? returningRegistry config.settings .unhindered .always .epoch = some s₀ ∧
      Reaches (keepsPace .startOf1250 .endOf2999) s₀ s ∧ s.strands = true) ∧
    ∃ config s₀ s, Config.load
        (some "[dispatcher]\nerror_grace_secs = 100000000000\n".toUTF8) none = .ok config ∧
      config.settings.policy.grace.nanos ≤ longestGrace.nanos ∧
      build? returningRegistry config.settings .unhindered .always
        .first = some s₀ ∧
      Reaches (keepsPace .first .endOf2999) s₀ s ∧
      s.strands = true := by
  obtain ⟨config, hload, hsettings⟩ : ∃ config, Config.load
      (some "[dispatcher]\nerror_grace_secs = 1000000000000\n".toUTF8) none = .ok config ∧
      config.settings = ⟨10000, ⟨.ofSeconds 1000000000000, 5⟩, none⟩ :=
    Config.exists_of_load (by decide +kernel)
  obtain ⟨config', hload', hsettings'⟩ : ∃ config, Config.load
      (some "[dispatcher]\nerror_grace_secs = 100000000000\n".toUTF8) none = .ok config ∧
      config.settings = ⟨10000, ⟨.ofSeconds 100000000000, 5⟩, none⟩ :=
    Config.exists_of_load (by decide +kernel)
  have hrun : ((build? returningRegistry ⟨10000, ⟨.ofSeconds 1000000000000, 5⟩, none⟩
      .unhindered .always .epoch).bind
      (follow? (keepsPace .startOf1250 .endOf2999) · onceReturned)).map strands = some true := by
    decide +kernel
  have hrun' : ((build? returningRegistry ⟨10000, ⟨.ofSeconds 100000000000, 5⟩, none⟩
      .unhindered .always .first).bind
      (follow? (keepsPace .first .endOf2999) · twiceReturned)).map strands = some true := by
    decide +kernel
  obtain ⟨s₀, s, hbuild, hreach, hstrands⟩ := exists_run hrun
  obtain ⟨s₀', s', hbuild', hreach', hstrands'⟩ := exists_run hrun'
  refine ⟨⟨config, s₀, s, hload, hsettings ▸ hbuild, hreach, hstrands⟩,
    config', s₀', s', hload', ?_, hsettings' ▸ hbuild', hreach', hstrands'⟩
  rw [hsettings']
  decide

end Service
end EventDispatch
