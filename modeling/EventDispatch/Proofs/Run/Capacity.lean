import EventDispatch.Proofs.Run.Wear

/-!
# Configurations that can be run

**Input.** A configuration that was accepted.

**Results.** What stands in the way of running it (`runs_within_capacity`).  A dispatcher
is built from it unless it asks for more workers than permits can be counted, and once
started its loop goes on.  The number of retries of an event fits into 32 bits with a sign
if there is a grace, or if the event has 294 seconds to run: the calendar is too short for
more waits than that.  It also fits if the configuration asks for fewer retries than that
number, and the workers of a cycle end before the next one.

An accepted configuration may ask for more workers, and for that many retries without any
grace; both limits are passed then (`overruns_of_weary`).
-/

namespace EventDispatch

/-- The greatest number of 32 bits with a sign. -/
def greatestCount : Int := 2147483647

/-- The shortest deadline with which the calendar ends before an event that is given no grace
was sent back more often than can be counted. -/
def countableDeadline : Duration := .ofSeconds 294

/-- An event that is sent back once more has waited before, and there is an end to waiting. -/
theorem Event.Paced.retries_le {grace : Duration} {first e : Event}
    (h : Paced grace .first .last first e)
    (hgrace : grace.nanos = 0 ∨ nanosPerSecond ≤ grace.nanos)
    (hlong : grace.nanos ≠ 0 ∨ countableDeadline.nanos ≤ e.deadline.nanos) :
    e.retries ≤ greatestCount := by
  by_contra hmany
  have hcountable : countableDeadline.nanos = 294000000000 := by decide
  simp only [greatestCount] at hmany
  have hpassed := h.passed (by omega)
  generalize hk : e.retries - 1 = k at hpassed
  have hwait : 294000000000 ≤ min Duration.greatest (first.deadline.nanos + k * grace.nanos) := by
    refine Int.le_min.2 ⟨by decide, ?_⟩
    rcases hgrace with hnone | hsecond
    · have hdeadline := h.scheduled.deadline
      rw [hnone, Int.mul_zero, Int.add_zero] at hdeadline ⊢
      omega
    · have hpositive := h.positive
      have hsteps : 294 * nanosPerSecond ≤ k * grace.nanos :=
        Int.mul_le_mul (by omega) hsecond (by decide) (by omega)
      simp only [nanosPerSecond] at hsteps
      omega
  have hlongest : 294000000000 * 2147483647 ≤
      backoff grace first.deadline k :=
    Int.mul_le_mul hwait (by omega) (by decide) (Int.le_trans (by decide) hwait)
  simp only [Instant.first, Instant.last, Instant.least, Instant.greatest] at hpassed
  omega

namespace Service

theorem build?_eq_none_iff {registry : Registry} {settings : Settings} {access : Access}
    {election : Election} {now : Instant} :
    build? registry settings access election now = none ↔
      ∃ cap, settings.cap = some cap ∧ Settings.greatestCap < cap := by
  unfold build? Settings.isSupported
  cases settings.cap with
  | none => simp
  | some cap => simp

theorem isRunning_start {registry : Registry} {settings : Settings} {access : Access}
    {election : Election} {now : Instant} {s₀ : Service} (htick : 0 < settings.tick)
    (hbuild : build? registry settings access election now = some s₀) :
    s₀.start.isRunning = true := by
  have hsome : settings.tick ≠ 0 := Nat.ne_of_gt htick
  unfold build? at hbuild
  split at hbuild
  · cases hbuild
    simp [start, ofDispatcher, Dispatcher.initial, hsome, isRunning]
  · cases hbuild

/-- From an accepted configuration a dispatcher is built unless it asks for more workers than
permits can be counted, and its loop starts.  Whatever happens then, the number of retries of an
event fits into 32 bits if there is a grace or the event has `countableDeadline` to run.  If the
configuration asks for fewer retries than the greatest such number, it also fits as long as the
workers of each cycle end before the next one and nothing that is being run is reset. -/
theorem runs_within_capacity {file : Option ByteArray} {listen : Option SocketAddress}
    {config : Config} (hload : Config.load file listen = .ok config) (registry : Registry)
    (access : Access) (election : Election) (now : Instant) :
    (build? registry config.settings access election now = none ↔
      ∃ cap, config.settings.cap = some cap ∧ Settings.greatestCap < cap) ∧
    ∀ s₀, build? registry config.settings access election now = some s₀ →
      s₀.start.isRunning = true ∧
      (∀ s, Reaches (keepsPace .first .last) s₀ s → ∀ e ∈ s.dispatcher.store.events,
        config.settings.policy.grace.nanos ≠ 0 ∨ countableDeadline.nanos ≤ e.deadline.nanos →
          e.retries ≤ greatestCount) ∧
      (access = .unhindered → config.settings.policy.maxRetries < greatestCount →
        ∀ s, Reaches (isOrderly fun _ => false) s₀ s → ∀ e ∈ s.dispatcher.store.events,
          e.retries ≤ greatestCount) := by
  have haccepted := Config.accepted_of_load hload
  refine ⟨build?_eq_none_iff, fun s₀ hbuild => ⟨isRunning_start haccepted.tick hbuild, ?_, ?_⟩⟩
  · intro s hreach e he hlong
    have hpaced := paced_of_reaches (paced_of_build? hbuild now.lower now.upper)
      haccepted.grace_nonneg hreach
    obtain ⟨first, hone⟩ := hpaced.paced e he
    exact hone.retries_le haccepted.grace hlong
  · rintro rfl hfewer s hreach e he
    unfold build? at hbuild
    split at hbuild
    · cases hbuild
      obtain ⟨-, hbudgeted, hsettings⟩ := budgeted_of_reaches haccepted.retries.1 hreach
      have hbound := (hbudgeted.le he).1
      rw [hsettings] at hbound
      omega
    · cases hbuild

theorem runs_within_capacity_of_onceReturned :
    ∃ config s₀ s, Config.load (some
        "[dispatcher]\nmax_concurrent_workers = 2305843009213693951\n".toUTF8) none = .ok config ∧
      build? returningRegistry config.settings .unhindered .always .epoch = some s₀ ∧
      Reaches (keepsPace .first .last) s₀ s ∧
      s.dispatcher.store.events.map Event.retries = [1] ∧
      (build? returningRegistry config.settings .unhindered .always .epoch = none ↔
        ∃ cap, config.settings.cap = some cap ∧ Settings.greatestCap < cap) ∧
      ∀ s₀, build? returningRegistry config.settings .unhindered .always .epoch = some s₀ →
        s₀.start.isRunning = true ∧
        (∀ s, Reaches (keepsPace .first .last) s₀ s → ∀ e ∈ s.dispatcher.store.events,
          config.settings.policy.grace.nanos ≠ 0 ∨ countableDeadline.nanos ≤ e.deadline.nanos →
            e.retries ≤ greatestCount) ∧
        (Access.unhindered = .unhindered → config.settings.policy.maxRetries < greatestCount →
          ∀ s, Reaches (isOrderly fun _ => false) s₀ s → ∀ e ∈ s.dispatcher.store.events,
            e.retries ≤ greatestCount) := by
  obtain ⟨config, hload, hsettings⟩ : ∃ config, Config.load (some
      "[dispatcher]\nmax_concurrent_workers = 2305843009213693951\n".toUTF8) none = .ok config ∧
      config.settings = ⟨10000, ⟨.ofSeconds 180, 5⟩, some 2305843009213693951⟩ :=
    Config.exists_of_load (by decide +kernel)
  have hrun : ((build? returningRegistry ⟨10000, ⟨.ofSeconds 180, 5⟩, some 2305843009213693951⟩
      .unhindered .always .epoch).bind (follow? (keepsPace .first .last) · onceReturned)).map
      (fun s => s.dispatcher.store.events.map Event.retries) = some [1] := by decide +kernel
  obtain ⟨s₀, s, hbuild, hreach, hview⟩ := exists_run hrun
  rw [← hsettings] at hbuild
  exact ⟨config, s₀, s, hload, hbuild, hreach, hview,
    runs_within_capacity hload returningRegistry .unhindered .always .epoch⟩

/-- The checks let a number of workers pass with which no dispatcher can be built, and a number of
retries with which an event that gets no grace is sent back more often than can be counted. -/
theorem overruns_of_weary :
    (∃ config, Config.load (some
        "[dispatcher]\nmax_concurrent_workers = 9223372036854775807\n".toUTF8) none = .ok config ∧
      build? returningRegistry config.settings .unhindered .always .epoch = none) ∧
    ∃ config s₀ s, Config.load (some
        "[dispatcher]\nerror_grace_secs = 0\nmax_retries = 2147483647\n".toUTF8) none =
          .ok config ∧
      build? wearyRegistry config.settings .unhindered .always .epoch = some s₀ ∧
      Reaches (keepsPace .epoch .endOf2999) s₀ s ∧
      ∃ e ∈ s.dispatcher.store.events, greatestCount < e.retries := by
  obtain ⟨config, hload, hsettings⟩ : ∃ config, Config.load (some
      "[dispatcher]\nmax_concurrent_workers = 9223372036854775807\n".toUTF8) none = .ok config ∧
      config.settings = ⟨10000, ⟨.ofSeconds 180, 5⟩, some 9223372036854775807⟩ :=
    Config.exists_of_load (by decide +kernel)
  obtain ⟨config', hload', hsettings'⟩ : ∃ config, Config.load (some
      "[dispatcher]\nerror_grace_secs = 0\nmax_retries = 2147483647\n".toUTF8) none =
        .ok config ∧ config.settings = wearySettings :=
    Config.exists_of_load (by decide +kernel)
  obtain ⟨s₀, s, hbuild, hreach, hretries⟩ := exists_beyond
  refine ⟨⟨config, hload, ?_⟩, config', s₀, s, hload', hsettings' ▸ hbuild, hreach, ?_⟩
  · rw [build?_eq_none_iff, hsettings]
    exact ⟨9223372036854775807, rfl, by decide⟩
  · obtain ⟨e, he, hcount⟩ : ∃ e ∈ s.dispatcher.store.events, e.retries = 2147483648 := by
      have hmem : (2147483648 : Int) ∈ s.dispatcher.store.events.map Event.retries := by
        rw [hretries]
        exact List.mem_singleton_self _
      exact List.mem_map.1 hmem
    exact ⟨e, he, by rw [hcount]; decide⟩

end Service
end EventDispatch
