import EventDispatch.Proofs.Run.Lanes
import Mathlib

/-!
# Events of one key run in turn

**Input.** A run of one dispatcher from an empty store.  Its loop, its workers and
its callers take their steps in any order, the clock is set as one likes, and the
lead comes and goes.  The loop only makes steps while no class is paused.

**Invariant.** On top of the lanes: in each, the turn of the younger event comes
after the end of the older one (`Core.Ordered`).  A listing takes new events by
age, and passes over whoever stands behind an event of its key.

**Results.** `younger_waits_for_older`: the younger event leaves `new` only after
the older one has ended, and at most one event of a key is being run or waits for
another run.
-/

namespace EventDispatch

/-- An event that is being run, or waits to be run again. -/
def Event.IsActive (e : Event) : Prop := e.status = .processing ∨ e.status = .pending

theorem Event.IsActive.ne_new {e : Event} (h : e.IsActive) : e.status ≠ .new := by
  rcases h with h | h <;> simp [h]

theorem Event.IsActive.isTerminal_eq_false {e : Event} (h : e.IsActive) :
    e.status.isTerminal = false := by
  rcases h with h | h <;> simp [h, Status.isTerminal]

namespace Core

/-- In each lane, the turn of the younger event comes after the end of the older one. -/
def Ordered (c : Core) : Prop :=
  c.store.events.Pairwise fun a b =>
    c.registry.SameLane a b → a.created ≤ b.created → c.HasTurn b → a.status.isTerminal = true

/-- A move that lists nothing keeps the order. -/
theorem Ordered.move {c c' : Core} (h : c.Ordered) (hlaned : c.Laned)
    (hregistry : c'.registry = c.registry) (hcandidates : c'.candidates ⊆ c.candidates)
    (hwrites : c.Writes c'.store) : c'.Ordered := by
  unfold Ordered
  rcases hwrites with hsame | ⟨call, hstore, hfresh, hends, hclaim⟩
  · rw [hsame, hregistry]
    refine h.imp fun hab hlane hage hb => hab hlane hage ?_
    exact hb.imp_right (Lists.mono hcandidates)
  · rw [hstore, hregistry]
    refine Store.pairwise_after hlaned.ids h ?_ ?_
    · intro a _ b _ _ hab hlane hage hb
      rw [Registry.sameLane_effectOn] at hlane
      rw [Store.created_effectOn, Store.created_effectOn] at hage
      have hended := hab hlane hage (hasTurn_of_effectOn hcandidates hends hclaim hb)
      exact isTerminal_effectOn c.store call hended
    · intro a _ b hb _ _ hturn
      exact absurd hturn (hlaned.not_hasTurn_of_recorded hcandidates hfresh hb)

/-- A listing keeps the order, if no class is paused. -/
theorem Ordered.list {c c' : Core} (h : c.Ordered) (hlaned : c.Laned)
    (hregistry : c'.registry = c.registry) (hstore : c'.store = c.store) (now : Instant)
    (hlist : c'.candidates = c.store.dispatchable (c.registry.filterFor []) now) :
    c'.Ordered := by
  unfold Ordered
  rw [hstore, hregistry]
  refine List.pairwise_iff_forall_sublist.2 fun {a b} hbehind hlane hage hturn => ?_
  have ha : a ∈ c.store.events := hbehind.subset List.mem_cons_self
  have hb : b ∈ c.store.events := hbehind.subset (List.mem_cons_of_mem a List.mem_cons_self)
  rcases hlaned.left_or_listed hlist hb hturn with hleft | ⟨hnewB, hlisted⟩
  · exact List.pairwise_iff_forall_sublist.1 h hbehind hlane hage (Or.inl hleft)
  · by_cases hnewA : a.status = .new
    · obtain ⟨hkey, hknownA, hknownB⟩ := hlane
      rw [← c.registry.isKnown_filterFor []] at hknownA hknownB
      exact absurd hlisted (Store.not_listed_of_behind hlaned.ids hbehind hage hkey
        hnewA hnewB (c.registry.isPaused_filterFor_nil a.tag) hknownA hknownB)
    · exact isTerminal_of_listed hlane ha hnewA hlisted hnewB

/-- Every move keeps the order, if the loop makes no step while a class is paused. -/
theorem Ordered.step {c c' : Core} {m : Move} (h : c.Ordered) (hlaned : c.Laned)
    (hstep : c.Step m c') (hunpaused : m = .loop → c.paused = []) : c'.Ordered := by
  have hwrites := hstep.writes
  cases hstep with
  | keep | repaused | elected | elapsed | clockSet | recorded | acted | staleReset | leadLost
  | worked | ended =>
    exact h.move hlaned rfl (List.Subset.refl _) hwrites
  | passedOver hcandidates | claimed hcandidates =>
    exact h.move hlaned rfl (hcandidates ▸ List.subset_cons_self _ _) hwrites
  | opened _ _ hlisting =>
    have hlead : c.lead.Ordered :=
      h.move hlaned c.registry_lead (fun _ hx => c.candidates_lead ▸ hx) (writes_lead c)
    rcases hlisting with rfl | rfl
    · exact hlead.move hlaned.lead rfl (List.nil_subset _) (Or.inl rfl)
    · refine hlead.list hlaned.lead rfl rfl c.now ?_
      simp only [c.registry_lead, hunpaused rfl]

end Core

namespace Service

/-- Recorded events get fresh identifiers, and the loop makes no step while a class
is paused. -/
def isUnpaused (s : Service) (m : Move) : Bool :=
  s.givesFresh m &&
    match m with
    | .loop => s.pauses.classes.isEmpty
    | _ => true

section Turns

variable {registry : Registry} {settings : Settings} {access : Access} {election : Election}
  {now : Instant} {s : Service}

theorem ordered_of_reaches
    (h : Reaches isUnpaused (.ofDispatcher (.initial registry settings access election now)) s) :
    s.core.Laned ∧ s.core.Ordered ∧ s.core.registry = registry := by
  refine h.induct (P := fun s => s.core.Laned ∧ s.core.Ordered ∧ s.core.registry = registry) ?_ ?_
  · exact ⟨Core.laned_initial, List.Pairwise.nil, rfl⟩
  · rintro s m s' ⟨hlaned, hordered, hregistry⟩ hm hafter
    obtain ⟨hfresh, hpaused⟩ := Bool.and_eq_true_iff.1 hm
    have hstep := step_of_after? hfresh hafter
    refine ⟨hlaned.step hstep, hordered.step hlaned hstep ?_, ?_⟩
    · rintro rfl
      exact List.isEmpty_iff.1 hpaused
    · exact hstep.registry_eq.trans hregistry

/-- Of two registered events of one key, the one that is younger and was recorded
later leaves `new` only after the older one has ended, and at most one event of a key
is being run or waits for another run. -/
theorem younger_waits_for_older
    (h : Reaches isUnpaused (.ofDispatcher (.initial registry settings access election now)) s) :
    (∀ a b, [a, b].Sublist s.dispatcher.store.events → registry.SameLane a b →
      a.created ≤ b.created →
        (b.status ≠ .new → a.status.isTerminal = true) ∧
        ∀ m s', s.isUnpaused m = true → s.after? m = some s' →
          ∀ b' ∈ s'.dispatcher.store.events, b'.id = b.id → b'.status ≠ .new →
            a.status.isTerminal = true) ∧
    s.dispatcher.store.events.Pairwise fun a b =>
      registry.SameLane a b → ¬ (a.IsActive ∧ b.IsActive) := by
  obtain ⟨hlaned, hordered, hregistry⟩ := ordered_of_reaches h
  refine ⟨fun a b hbehind hlane hage => ?_, ?_⟩
  · have hturn := List.pairwise_iff_forall_sublist.1 hordered hbehind (hregistry ▸ hlane) hage
    refine ⟨fun hleft => hturn (Or.inl hleft), ?_⟩
    intro m s' hm hafter b' hb' hid hleft
    have hb : b ∈ s.core.store.events :=
      hbehind.subset (List.mem_cons_of_mem a List.mem_cons_self)
    have hstep := step_of_after? (Bool.and_eq_true_iff.1 hm).1 hafter
    exact hturn (hstep.hasTurn_of_leaves_new hlaned.ids hb hb' hid hleft)
  · refine List.Pairwise.imp (fun {a b} hab hlane hactive => ?_) hlaned.alone
    have hended := hab (hregistry ▸ hlane) (Or.inl hactive.1.ne_new) (Or.inl hactive.2.ne_new)
    rw [hactive.1.isTerminal_eq_false, hactive.2.isTerminal_eq_false] at hended
    simp at hended

end Turns

/-- A registry of two tags that name one resource. -/
def oneLane : Registry := ⟨[("a:r", ⟨.team, .ofScripts []⟩), ("b:r", ⟨.team, .ofScripts []⟩)]⟩

def oneLaneSettings : Settings := ⟨1000, ⟨.ofSeconds 60, 3⟩, none⟩

/-- Two events of one key are registered; the first is run, and the second one starts
with the next tick. -/
def oneLaneMoves : List Move :=
  [.register "a:r" "o" (.ofSeconds 300) (.ok .null),
    .register "b:r" "o" (.ofSeconds 300) (.ok .null),
    .start, .loop, .loop, .loop, .loop, .loop, .loop,
    .work 0, .work 0, .work 0, .work 0, .work 0, .work 0,
    .elapse 1000, .loop, .loop, .loop]

theorem younger_waits_for_older_of_oneLaneMoves :
    ∃ s, Reaches isUnpaused
        (.ofDispatcher (.initial oneLane oneLaneSettings .unhindered .always .epoch)) s ∧
      s.dispatcher.store.events.map Event.status = [.completed, .processing] ∧
      (∀ a b, [a, b].Sublist s.dispatcher.store.events → oneLane.SameLane a b →
        a.created ≤ b.created →
          (b.status ≠ .new → a.status.isTerminal = true) ∧
          ∀ m s', s.isUnpaused m = true → s.after? m = some s' →
            ∀ b' ∈ s'.dispatcher.store.events, b'.id = b.id → b'.status ≠ .new →
              a.status.isTerminal = true) ∧
      s.dispatcher.store.events.Pairwise fun a b =>
        oneLane.SameLane a b → ¬ (a.IsActive ∧ b.IsActive) := by
  have hrun : (follow? isUnpaused
      (.ofDispatcher (.initial oneLane oneLaneSettings .unhindered .always .epoch))
      oneLaneMoves).map (fun s => s.dispatcher.store.events.map Event.status) =
        some [.completed, .processing] := by cbv
  obtain ⟨s, hs, hstatus⟩ := Option.map_eq_some_iff.1 hrun
  have hreaches : Reaches isUnpaused _ s := Reaches.refl.follow? hs
  exact ⟨s, hreaches, hstatus, younger_waits_for_older hreaches⟩

end Service
end EventDispatch
