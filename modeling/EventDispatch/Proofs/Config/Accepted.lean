import EventDispatch.Config.Load

/-!
# Accepted configurations

**Input.** The bytes of a configuration file that is loaded, and the address on the
command line.

**Results.** What the checks and the types of the settings leave: there is time between
the cycles, the grace is none or at least a second, and the number of retries fits into
32 bits (`accepted_of_load`).  Only the integers that a document can hold bound the grace
and the number of workers from above.
-/

namespace EventDispatch

theorem Duration.nanos_ofSeconds_cases {n : Int} (h : 0 ≤ n) :
    (ofSeconds n).nanos = 0 ∨ nanosPerSecond ≤ (ofSeconds n).nanos := by
  unfold ofSeconds clamp nanosPerSecond
  split
  · split
    · dsimp only
      omega
    · exact Or.inr (by decide)
  · next hlower =>
    simp only [least] at hlower
    omega

namespace ConfigFile

variable {f : ConfigFile}

theorem maxRetries_le_of_ofFields? {root : Toml.Fields} (h : ofFields? root = some f) :
    f.maxRetries ≤ 2147483647 := by
  simp only [ofFields?, Option.bind_eq_bind, Option.bind_eq_some_iff, Option.pure_def,
    Option.some.injEq] at h
  obtain ⟨_, -, _, -, _, -, _, -, _, -, _, -, most, hmost, _, -, _, -, rfl⟩ := h
  unfold setting? at hmost
  split at hmost
  · cases hmost
    exact (by decide : (5 : Int) ≤ 2147483647)
  · unfold smallInteger? at hmost
    split at hmost
    · split at hmost
      · next hrange =>
        cases hmost
        exact hrange.2
      · cases hmost
    · cases hmost

theorem maxRetries_le_of_parse {text : String} (h : Config.parse text = .ok f) :
    f.maxRetries ≤ 2147483647 := by
  unfold Config.parse at h
  split at h
  · next g hread =>
    cases h
    obtain ⟨root, -, hfields⟩ := Option.bind_eq_some_iff.1 hread
    exact maxRetries_le_of_ofFields? hfields
  · cases h

theorem bounds_of_invalid?_eq_none (h : f.invalid? = none) :
    0 < f.tickSeconds ∧ 0 ≤ f.graceSeconds ∧ 0 ≤ f.maxRetries ∧ f.cap ≠ some 0 := by
  unfold invalid? at h
  split at h
  · cases h
  · split at h
    · cases h
    · split at h
      · cases h
      · split at h
        · cases h
        · next htick hgrace hretries hcap =>
          exact ⟨by omega, by omega, by omega, hcap⟩

end ConfigFile

namespace Config

/-- What is known about the settings of an accepted configuration. -/
structure Accepted (config : Config) : Prop where
  tick : 0 < config.settings.tick
  grace : config.settings.policy.grace.nanos = 0 ∨
    nanosPerSecond ≤ config.settings.policy.grace.nanos
  retries : 0 ≤ config.settings.policy.maxRetries ∧
    config.settings.policy.maxRetries ≤ 2147483647
  cap : config.settings.cap ≠ some 0

theorem Accepted.grace_nonneg {config : Config} (h : config.Accepted) :
    0 ≤ config.settings.policy.grace.nanos := by
  have hgrace := h.grace
  simp only [nanosPerSecond] at hgrace
  omega

/-- A configuration that is loaded amounts to settings that passed the checks. -/
theorem file_of_load {file : Option ByteArray} {listen : Option SocketAddress}
    {config : Config} (h : load file listen = .ok config) :
    ∃ text f address, readText file = .ok text ∧ parse text = .ok f ∧
      ({ f with listen := address } : ConfigFile).invalid? = none ∧
      config = ofFile { f with listen := address } := by
  unfold load at h
  cases htext : readText file with
  | error cause =>
    rw [htext] at h
    cases h
  | ok text =>
    cases hparse : parse text with
    | error cause =>
      simp only [htext, bind, Except.bind, hparse] at h
      cases h
    | ok f =>
      simp only [htext, bind, Except.bind, hparse] at h
      split at h
      · cases h
      · next hvalid =>
        cases h
        exact ⟨text, f, listen.getD f.listen, rfl, hparse, hvalid, rfl⟩

theorem accepted_of_load {file : Option ByteArray} {listen : Option SocketAddress}
    {config : Config} (h : load file listen = .ok config) : config.Accepted := by
  obtain ⟨text, f, address, -, hparse, hvalid, rfl⟩ := file_of_load h
  have hmost := ConfigFile.maxRetries_le_of_parse hparse
  obtain ⟨htick, hgrace, hretries, hcap⟩ := ConfigFile.bounds_of_invalid?_eq_none hvalid
  refine ⟨?_, Duration.nanos_ofSeconds_cases hgrace, ⟨hretries, hmost⟩, hcap⟩
  exact Nat.mul_pos htick (by decide)

theorem exists_of_load {file : Option ByteArray} {listen : Option SocketAddress}
    {settings : Settings} (h : (load file listen).toOption.map Config.settings = some settings) :
    ∃ config, load file listen = .ok config ∧ config.settings = settings := by
  cases hload : load file listen with
  | error cause =>
    rw [hload] at h
    cases h
  | ok config =>
    rw [hload] at h
    exact ⟨config, rfl, Option.some.inj h⟩

end Config
end EventDispatch
