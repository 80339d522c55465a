import EventDispatch.Config.Reload
import EventDispatch.Proofs.Api.Framing
import EventDispatch.Proofs.Config.Accepted
import Mathlib.Data.List.Sort

/-!
# Reloading is all or nothing

**Input.** Any run of a service in which moves of every kind, listeners that come and go
and signals to reload take turns, and any file at the time of the next signal: none, bytes
that are no text, a text that is no document, settings of the wrong types or out of bounds,
or a configuration.

**Invariant.** The classes of the switch are in order, each once (`PauseSwitch.Orderly`).
So two switches with the same members are equal, and a switch counts a change exactly if
its members change (`replace_of_same`, `replace_of_differs`).

**Results.** A move does to the switch what its operator asks for and nothing else
(`pauses_after?`).  A reload takes over the classes that the file names, or it leaves the
switch alone; of the rest only the journal grows (`reload_is_all_or_nothing`).
-/

namespace EventDispatch

/-! ## Classes in order -/

namespace EventClass

/-- The order of the classes. -/
def Before (a b : EventClass) : Prop := all.idxOf a < all.idxOf b

instance (a b : EventClass) : Decidable (Before a b) :=
  inferInstanceAs (Decidable (all.idxOf a < all.idxOf b))

instance : Std.Irrefl Before := ⟨fun a => Nat.lt_irrefl (all.idxOf a)⟩

instance : Std.Antisymm Before := ⟨fun _ _ hab hba => absurd hab (Nat.lt_asymm hba)⟩

theorem pairwise_sorted (classes : List EventClass) : (sorted classes).Pairwise Before :=
  List.Pairwise.filter _ (by decide : all.Pairwise Before)

end EventClass

/-! ## The switch -/

namespace PauseSwitch

/-- The classes of a switch are in order, each once. -/
def Orderly (p : PauseSwitch) : Prop := p.classes.Pairwise EventClass.Before

variable {p : PauseSwitch}

theorem orderly_ofClasses (classes : List EventClass) : (ofClasses classes).Orderly :=
  EventClass.pairwise_sorted classes

theorem orderly_replace (h : p.Orderly) (classes : List EventClass) :
    (p.replace classes).Orderly := by
  unfold replace
  split
  · exact h
  · exact EventClass.pairwise_sorted classes

theorem orderly_pause (h : p.Orderly) (c : EventClass) : (p.pause c).2.Orderly := by
  unfold pause
  split
  · exact h
  · exact EventClass.pairwise_sorted (c :: p.classes)

theorem orderly_resume (h : p.Orderly) (c : EventClass) : (p.resume c).2.Orderly := by
  unfold resume
  split
  · exact List.Pairwise.filter _ h
  · exact h

/-- The members that are there already are put in place without a change. -/
theorem replace_of_same (h : p.Orderly) {classes : List EventClass}
    (hsame : ∀ x, x ∈ p.classes ↔ x ∈ classes) : p.replace classes = p := by
  have hsorted : EventClass.sorted classes = p.classes :=
    (EventClass.pairwise_sorted classes).eq_of_mem_iff h fun x => by
      rw [EventClass.mem_sorted, hsame]
  exact if_pos hsorted

/-- Other members are put in place with one change. -/
theorem replace_of_differs {classes : List EventClass}
    (hdiffers : ¬ ∀ x, x ∈ p.classes ↔ x ∈ classes) :
    p.replace classes = ⟨EventClass.sorted classes, p.version + 1⟩ := by
  refine if_neg fun hsorted => hdiffers fun x => ?_
  rw [← hsorted, EventClass.mem_sorted]

theorem replace_replace (h : p.Orderly) (classes : List EventClass) :
    (p.replace classes).replace classes = p.replace classes :=
  replace_of_same (orderly_replace h classes) fun _ => mem_replace

/-- What is left of a switch by one who loads a configuration. -/
def adopt (p : PauseSwitch) : Except ConfigError Config → PauseSwitch
  | .ok c => p.replace c.paused
  | .error _ => p

theorem orderly_adopt (h : p.Orderly) (loaded : Except ConfigError Config) :
    (p.adopt loaded).Orderly := by
  cases loaded with
  | ok c => exact orderly_replace h c.paused
  | error cause => exact h

theorem adopt_adopt (h : p.Orderly) (loaded : Except ConfigError Config) :
    (p.adopt loaded).adopt loaded = p.adopt loaded := by
  cases loaded with
  | ok c => exact replace_replace h c.paused
  | error cause => rfl

/-- Those who load the same configuration one after the other do what the first one does. -/
theorem repeat_adopt (h : p.Orderly) (loaded : Except ConfigError Config) (n : Nat) :
    Nat.repeat (fun p => p.adopt loaded) (n + 1) p = p.adopt loaded := by
  induction n with
  | zero => rfl
  | succ n ih =>
    calc Nat.repeat (fun p => p.adopt loaded) (n + 2) p
        = (Nat.repeat (fun p => p.adopt loaded) (n + 1) p).adopt loaded := rfl
      _ = p.adopt loaded := by rw [ih, adopt_adopt h]

end PauseSwitch

namespace Watcher

/-- A watcher learns of a set put in place if it missed a change before, or if the members
are others. -/
theorem poll_replace {p : PauseSwitch} (h : p.Orderly) {w : Watcher} (hseen : w.seen ≤ p.version)
    (classes : List EventClass) (gone : Bool) :
    (w.poll (p.replace classes) gone).1 = .changed ↔
      w.seen < p.version ∨ ¬ ∀ x, x ∈ p.classes ↔ x ∈ classes := by
  have hchanged : ∀ q : PauseSwitch, (w.poll q gone).1 = .changed ↔ w.seen ≠ q.version := by
    intro q
    cases gone <;> simp [poll, apply_ite]
  rw [hchanged]
  by_cases hsame : ∀ x, x ∈ p.classes ↔ x ∈ classes
  · rw [PauseSwitch.replace_of_same h hsame]
    simp only [hsame, implies_true, not_true_eq_false, or_false]
    omega
  · rw [PauseSwitch.replace_of_differs hsame]
    simp only [hsame, not_false_eq_true, or_true, iff_true]
    omega

end Watcher

/-! ## What a file names -/

namespace Toml.Value

/-- The entries of a list, which may be written as an array of tables. -/
def entries : Value → List Value
  | .array items => items
  | .tables rows => rows.map (.table .header)
  | _ => []

/-- A text or the one key of a table over nothing is the name of the class. -/
def Spells (v : Value) (x : EventClass) : Prop :=
  v = .text x.name ∨
    ∃ origin inner, v = .table origin [(x.name, inner)] ∧ ConfigFile.isEmpty inner = true

end Toml.Value

theorem EventClass.ofName?_eq_some_iff {name : String} {x : EventClass} :
    EventClass.ofName? name = some x ↔ name = x.name := by
  constructor
  · exact EventClass.eq_name_of_ofName?
  · rintro rfl
    exact EventClass.ofName?_name x

namespace ConfigFile

open Toml

theorem eventClass?_eq_some_iff {v : Value} {x : EventClass} :
    eventClass? v = some x ↔ v.Spells x := by
  unfold eventClass? Value.Spells
  split
  · simp [EventClass.ofName?_eq_some_iff]
  · next origin name inner =>
    split
    · next hempty =>
      rw [EventClass.ofName?_eq_some_iff]
      constructor
      · rintro rfl
        exact Or.inr ⟨origin, inner, rfl, hempty⟩
      · rintro (heq | ⟨_, _, heq, -⟩)
        · cases heq
        · cases heq
          rfl
    · next hfull =>
      refine ⟨nofun, ?_⟩
      rintro (heq | ⟨_, _, heq, hempty⟩)
      · cases heq
      · cases heq
        exact absurd hempty hfull
  · next hnotext hnotable =>
    refine ⟨nofun, ?_⟩
    rintro (heq | ⟨origin, inner, heq, -⟩)
    · exact (hnotext _ heq).elim
    · exact (hnotable origin _ inner heq).elim

theorem mem_of_mapM_eq_some {α β : Type} {f : α → Option β} {xs : List α} {ys : List β}
    (h : xs.mapM f = some ys) {y : β} : y ∈ ys ↔ ∃ x ∈ xs, f x = some y := by
  induction xs generalizing ys with
  | nil =>
    cases h
    simp
  | cons x rest ih =>
    simp only [List.mapM_cons, Option.bind_eq_bind, Option.bind_eq_some_iff, Option.pure_def,
      Option.some.injEq] at h
    obtain ⟨y', hy', ys', hys', rfl⟩ := h
    simp [ih hys', hy', eq_comm]

theorem mem_of_eventClasses? {v : Value} {classes : List EventClass}
    (h : eventClasses? v = some classes) {x : EventClass} :
    x ∈ classes ↔ ∃ item ∈ v.entries, item.Spells x := by
  unfold eventClasses? at h
  split at h
  · simp [mem_of_mapM_eq_some h, eventClass?_eq_some_iff, Value.entries]
  · simp [mem_of_mapM_eq_some h, eventClass?_eq_some_iff, Value.entries]
  · cases h

/-- The paused classes of a document are spelled by the entries of one of its lists. -/
def Lists (root : Fields) (x : EventClass) : Prop :=
  ∃ fields v item, section? root "maintenance" ["paused_classes"] = some fields ∧
    fields.lookup "paused_classes" = some v ∧ item ∈ v.entries ∧ item.Spells x

theorem mem_paused_of_ofFields? {root : Fields} {f : ConfigFile} (h : ofFields? root = some f)
    {x : EventClass} : x ∈ f.paused ↔ Lists root x := by
  simp only [ofFields?, Option.bind_eq_bind, Option.bind_eq_some_iff, Option.pure_def,
    Option.some.injEq] at h
  obtain ⟨_, -, _, -, maintenance, hsection, _, -, _, -, _, -, _, -, _, -, paused, hpaused,
    rfl⟩ := h
  unfold setting? at hpaused
  unfold Lists
  rw [hsection]
  split at hpaused
  · next hnone =>
    cases hpaused
    simp [hnone]
  · next v hlookup => simp [hlookup, mem_of_eventClasses? hpaused]

end ConfigFile

namespace Config

/-- A file is text, the text is a document, and the document lists the class. -/
def Names (file : Option ByteArray) (x : EventClass) : Prop :=
  ∃ text root, readText file = .ok text ∧ Toml.parse text = some root ∧ ConfigFile.Lists root x

variable {file : Option ByteArray} {listen : Option SocketAddress} {c : Config}

theorem mem_paused_of_load (h : load file listen = .ok c) {x : EventClass} :
    x ∈ c.paused ↔ Names file x := by
  obtain ⟨text, f, address, htext, hparse, -, rfl⟩ := file_of_load h
  unfold parse at hparse
  split at hparse
  · next g hread =>
    cases hparse
    obtain ⟨root, hroot, hfields⟩ := Option.bind_eq_some_iff.1 hread
    simp [Names, ofFile, htext, hroot, ConfigFile.mem_paused_of_ofFields? hfields]
  · cases hparse

theorem pairwise_paused_of_load (h : load file listen = .ok c) :
    c.paused.Pairwise EventClass.Before := by
  obtain ⟨_, f, _, -, -, -, rfl⟩ := file_of_load h
  exact EventClass.pairwise_sorted f.paused

end Config

/-! ## What a move does to the switch -/

/-- What a move asks the switch to do. -/
def Move.onSwitch : Move → PauseSwitch → PauseSwitch
  | .pause c, p => (p.pause c).2
  | .resume c, p => (p.resume c).2
  | .setPaused classes, p => p.replace classes
  | _, p => p

theorem Move.orderly_onSwitch {p : PauseSwitch} (h : p.Orderly) (m : Move) :
    (m.onSwitch p).Orderly := by
  cases m with
  | pause c => exact PauseSwitch.orderly_pause h c
  | resume c => exact PauseSwitch.orderly_resume h c
  | setPaused classes => exact PauseSwitch.orderly_replace h classes
  | _ => exact h

/-- What happens to a service that listens for the signal to reload. -/
inductive Happening where
  /-- It makes a move. -/
  | moves (m : Move)
  /-- One listener more answers the signal. -/
  | listens
  /-- One listener stops to answer it. -/
  | leaves
  /-- The signal comes. -/
  | signals (file : Option ByteArray) (listen : Option SocketAddress)

namespace Service

variable {s s' : Service} {file : Option ByteArray} {listen : Option SocketAddress}

theorem pauses_wake? (h : s.wake? = some s') : s'.pauses = s.pauses := by
  unfold wake? at h
  split at h
  · cases h
    rfl
  · cases h
    rfl
  · split at h
    · cases h
      rfl
    · split at h
      · cases h
        rfl
      · split at h
        · cases h
          rfl
        · cases h

theorem pauses_beginCycle (s : Service) : s.beginCycle.pauses = s.pauses := by
  unfold beginCycle
  split <;> rfl

theorem pauses_loopStep (h : s.loopStep = some s') : s'.pauses = s.pauses := by
  unfold loopStep at h
  split at h
  · cases h
  · cases h
  · exact pauses_wake? h
  · split at h <;> cases h <;> rfl
  · cases h
    exact s.pauses_beginCycle
  · cases h
    unfold finishCycle
    dsimp only
    split <;> rfl
  · cases h
    rfl

theorem pauses_start (s : Service) : s.start.pauses = s.pauses := by
  unfold start
  split
  · dsimp only
    split <;> rfl
  · rfl

theorem pauses_resetStale (s : Service) : s.resetStale.2.pauses = s.pauses := by
  unfold resetStale
  dsimp only
  split
  · rfl
  · exact (untouched_trigger _ "reset").pauses

/-- The switch does what the move asks it to do. -/
theorem pauses_after? {m : Move} (h : s.after? m = some s') :
    s'.pauses = m.onSwitch s.pauses := by
  cases m with
  | loop => exact pauses_loopStep h
  | work serial =>
    obtain ⟨d, -, rfl⟩ := Option.map_eq_some_iff.1 h
    rfl
  | register tag owner deadline payload =>
    cases h
    exact s.pauses_registerEvent tag owner deadline payload
  | resetStale =>
    cases h
    exact s.pauses_resetStale
  | trigger hint =>
    cases h
    exact (s.untouched_trigger hint).pauses
  | pause c =>
    cases h
    simp only [pauseClass, Move.onSwitch]
    split
    · next heq =>
      rw [heq]
      rfl
    · next heq => rw [heq]
  | resume c =>
    cases h
    simp only [resumeClass, Move.onSwitch]
    split
    · next heq =>
      rw [heq]
      rfl
    · next heq => rw [heq]
  | start =>
    cases h
    exact s.pauses_start
  | setPaused | act | elect | hinder | elapse | setClock | release | vanish | shutdown | abandon =>
    cases h
    rfl

/-! ## Reloading -/

/-- The service with another switch, which was told something more. -/
def amend (s : Service) (pauses : PauseSwitch) (told : List Trace) : Service :=
  { s with pauses, dispatcher := s.dispatcher.tellAll told }

theorem amend_amend (s : Service) (pauses pauses' : PauseSwitch) (told told' : List Trace) :
    (s.amend pauses told).amend pauses' told' = s.amend pauses' (told ++ told') := by
  simp [amend, Dispatcher.tellAll]

theorem reloadOnce_eq (s : Service) (file : Option ByteArray) (listen : Option SocketAddress) :
    ∃ told, s.reloadOnce file listen =
      s.amend (s.pauses.adopt (Config.load file listen)) told := by
  unfold reloadOnce
  cases Config.load file listen with
  | ok c => exact ⟨[_, _], rfl⟩
  | error cause => exact ⟨[_, _], rfl⟩

theorem repeat_reloadOnce_eq (s : Service) (file : Option ByteArray)
    (listen : Option SocketAddress) (n : Nat) :
    ∃ told, Nat.repeat (fun s => s.reloadOnce file listen) n s =
      s.amend (Nat.repeat (fun p => p.adopt (Config.load file listen)) n s.pauses) told := by
  induction n with
  | zero => exact ⟨[], rfl⟩
  | succ n ih =>
    obtain ⟨told, htold⟩ := ih
    obtain ⟨more, hmore⟩ := reloadOnce_eq
      (Nat.repeat (fun s => s.reloadOnce file listen) n s) file listen
    refine ⟨told ++ more, ?_⟩
    rw [Nat.repeat, hmore, htold, amend_amend]
    rfl

/-- One listener is enough, and more of them make no difference. -/
theorem pauses_reload (horderly : s.pauses.Orderly) (file : Option ByteArray)
    (listen : Option SocketAddress) :
    (s.reload file listen).pauses =
      if 0 < s.reloaders then s.pauses.adopt (Config.load file listen) else s.pauses := by
  obtain ⟨told, htold⟩ := s.repeat_reloadOnce_eq file listen s.reloaders
  rw [reload, htold]
  cases s.reloaders with
  | zero => rfl
  | succ n => exact PauseSwitch.repeat_adopt horderly _ n

/-- The service after something that happens to it; none if that is not possible. -/
def meets? (s : Service) : Happening → Option Service
  | .moves m => s.after? m
  | .listens => some s.startReloading
  | .leaves => some s.stopReloading
  | .signals file listen => some (s.reload file listen)

theorem orderly_meets? {happening : Happening} (horderly : s.pauses.Orderly)
    (h : s.meets? happening = some s') : s'.pauses.Orderly := by
  cases happening with
  | moves m =>
    rw [pauses_after? h]
    exact m.orderly_onSwitch horderly
  | listens =>
    cases h
    exact horderly
  | leaves =>
    cases h
    unfold stopReloading
    split <;> exact horderly
  | signals file listen =>
    cases h
    rw [pauses_reload horderly]
    split
    · exact PauseSwitch.orderly_adopt horderly _
    · exact horderly

theorem orderly_of_run {happenings : List Happening} (horderly : s.pauses.Orderly)
    (h : happenings.foldlM meets? s = some s') : s'.pauses.Orderly := by
  induction happenings generalizing s with
  | nil =>
    cases h
    exact horderly
  | cons happening rest ih =>
    obtain ⟨t, hmeets, hrest⟩ := Option.bind_eq_some_iff.1 h
    exact ih (orderly_meets? horderly hmeets) hrest

/-- After any run a reload amends at most the switch, of which it leaves the set and the
count as they are if the file cannot be loaded.  The classes of a file that can be loaded
are in order, each once.  They are put in place, which counts as one change if it is
another set and as none if it is not, and every watcher learns of it accordingly. -/
theorem reload_is_all_or_nothing {d : Dispatcher} {happenings : List Happening} {s : Service}
    (hrun : happenings.foldlM meets? (ofDispatcher d) = some s) (file : Option ByteArray)
    (listen : Option SocketAddress) :
    (∃ pauses told, s.reload file listen = s.amend pauses told) ∧
    (∀ cause, Config.load file listen = .error cause →
      (s.reload file listen).pauses = s.pauses) ∧
    (∀ c, Config.load file listen = .ok c →
      c.paused.Pairwise EventClass.Before ∧ (∀ x, x ∈ c.paused ↔ Config.Names file x) ∧
      (0 < s.reloaders →
        (s.reload file listen).pauses.classes = c.paused ∧
        ((∀ x, x ∈ s.pauses.classes ↔ Config.Names file x) →
          (s.reload file listen).pauses = s.pauses) ∧
        (¬ (∀ x, x ∈ s.pauses.classes ↔ Config.Names file x) →
          (s.reload file listen).pauses.version = s.pauses.version + 1) ∧
        ∀ (w : Watcher) (gone : Bool), w.seen ≤ s.pauses.version →
          ((w.poll (s.reload file listen).pauses gone).1 = .changed ↔
            w.seen < s.pauses.version ∨
              ¬ ∀ x, x ∈ s.pauses.classes ↔ Config.Names file x))) := by
  have horderly : s.pauses.Orderly := orderly_of_run (PauseSwitch.orderly_ofClasses []) hrun
  have hpauses := pauses_reload horderly file listen
  obtain ⟨told, htold⟩ := s.repeat_reloadOnce_eq file listen s.reloaders
  refine ⟨⟨_, told, htold⟩, ?_, ?_⟩
  · intro cause hload
    rw [hpauses, hload]
    exact ite_self _
  · intro c hload
    have hordered := Config.pairwise_paused_of_load hload
    refine ⟨hordered, fun x => Config.mem_paused_of_load hload, fun hlisten => ?_⟩
    have hreplaced : (s.reload file listen).pauses = s.pauses.replace c.paused := by
      rw [hpauses, if_pos hlisten, hload]
      rfl
    simp only [hreplaced, ← Config.mem_paused_of_load hload]
    refine ⟨?_, PauseSwitch.replace_of_same horderly, ?_, ?_⟩
    · exact (PauseSwitch.orderly_replace horderly c.paused).eq_of_mem_iff hordered
        fun x => PauseSwitch.mem_replace
    · intro hdiffers
      rw [PauseSwitch.replace_of_differs hdiffers]
    · exact fun w gone hseen => Watcher.poll_replace horderly hseen c.paused gone

/-- No file, no text, no document, a value of another type, and a setting out of bounds. -/
def unloadable : List (Option ByteArray) :=
  [none, some ⟨#[0xFF]⟩, some "[maintenance".toUTF8,
    some "[maintenance]\npaused_classes = 3\n".toUTF8,
    some "[dispatcher]\ntick_interval_secs = 0\n".toUTF8]

/-- A list of classes out of order and with a repetition. -/
def disordered : ByteArray :=
  "[maintenance]\npaused_classes = [\"airflow\", \"jupyter\", \"airflow\"]\n".toUTF8

/-- A service with a listener. One class stays paused, and another is paused and resumed. -/
def switchedHappenings : List Happening :=
  [.listens, .moves (.pause .compute), .moves (.pause .team), .signals none none,
    .moves (.resume .team)]

theorem reload_is_all_or_nothing_of_switchedHappenings :
    ∃ s, switchedHappenings.foldlM meets? framingStart = some s ∧
      s.pauses = ⟨[.compute], 3⟩ ∧
      (∀ file ∈ unloadable, (s.reload file none).pauses = ⟨[.compute], 3⟩) ∧
      (s.reload (some disordered) none).pauses = ⟨[.jupyter, .airflow], 4⟩ := by
  have hrun : (switchedHappenings.foldlM meets? framingStart).map
      (fun s => (s.pauses, s.reloaders)) = some (⟨[.compute], 3⟩, 1) := by decide +kernel
  have hfail : ∀ file ∈ unloadable, (Config.load file none).isOk = false := by decide +kernel
  have hload : Config.load (some disordered) none =
      .ok ⟨ConfigFile.usualListen, ⟨10000, ⟨.ofSeconds 180, 5⟩, none⟩, [.jupyter, .airflow]⟩ := by
    decide +kernel
  obtain ⟨s, hs, hview⟩ := Option.map_eq_some_iff.1 hrun
  obtain ⟨hpauses, hlisten⟩ := Prod.mk.inj hview
  refine ⟨s, hs, hpauses, ?_, ?_⟩
  · intro file hfile
    obtain ⟨-, hfailed, -⟩ := reload_is_all_or_nothing hs file none
    cases hcause : Config.load file none with
    | error cause => rw [hfailed cause hcause, hpauses]
    | ok c =>
      have := hfail file hfile
      rw [hcause] at this
      cases this
  · obtain ⟨-, -, hloaded⟩ := reload_is_all_or_nothing hs (some disordered) none
    obtain ⟨-, hnames, htakes⟩ := hloaded _ hload
    obtain ⟨hclasses, -, hcounted, -⟩ := htakes (by omega)
    have hversion := hcounted fun hsame => by
      have := (hsame .compute).1 (by rw [hpauses]; exact List.mem_singleton_self _)
      rw [← hnames] at this
      revert this
      decide
    rw [hpauses] at hversion
    calc (s.reload (some disordered) none).pauses
        = ⟨(s.reload (some disordered) none).pauses.classes,
            (s.reload (some disordered) none).pauses.version⟩ := rfl
      _ = ⟨[.jupyter, .airflow], 4⟩ := by rw [hclasses, hversion]

end Service

end EventDispatch
