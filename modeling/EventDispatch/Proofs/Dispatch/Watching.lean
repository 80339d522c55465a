import EventDispatch.Proofs.Config.Reloading
import Mathlib.Data.Finset.Basic
import Mathlib.Data.Finset.Dedup
import Mathlib.Data.List.Induction

/-!
# What watchers of the switch learn

**Input.** A switch with any classes paused from the start, and any calls on it, one after the
other: classes are paused and resumed, sets are put in place, watchers begin to watch and ask
for changes, and at some point the switch goes, while its watchers stay.

**Rule.** A plain set takes the same calls (`SwitchCall.onSet`).  A call is a change if it
leaves another set.  A watcher has not seen a change if there was one since it began to watch
and since it was last told of one (`Watched.Unseen`).

**Invariant.** The switch has the members of the plain set and counts its changes.  A watcher
is behind the count exactly if it has not seen a change (`Watched.Reflects`).

**Results.** Every call keeps this (`Watched.Reflects.answer?`).  So each answer is the one
that the plain set and the calls before it demand, and every change is told to every watcher
who asks, once (`watchers_learn_of_changes`).
-/

namespace EventDispatch

/-! ## Calls -/

/-- A call on a switch, or of one who watches it. -/
inductive SwitchCall where
  /-- A class is paused. -/
  | pause (c : EventClass)
  /-- A class is resumed. -/
  | resume (c : EventClass)
  /-- Another set is put in place. -/
  | replace (classes : List EventClass)
  /-- Somebody begins to watch. -/
  | subscribe
  /-- The watcher of a number asks for a change. -/
  | ask (watcher : Nat)
  /-- The switch goes. -/
  | drop
deriving DecidableEq

/-- The answer to such a call. -/
inductive SwitchAnswer where
  /-- There is nothing to say. -/
  | done
  /-- Whether a class was paused or resumed by the call. -/
  | flag (changed : Bool)
  /-- The number of the watcher. -/
  | number (watcher : Nat)
  /-- What the watcher learns. -/
  | news (answer : WatchAnswer)
deriving DecidableEq

namespace SwitchCall

/-- What the call makes of a plain set. -/
def onSet : SwitchCall → Finset EventClass → Finset EventClass
  | pause c, paused => insert c paused
  | resume c, paused => paused.erase c
  | replace classes, _ => classes.toFinset
  | subscribe, paused | ask _, paused | drop, paused => paused

/-- The call makes another set of it. -/
def Changes (call : SwitchCall) (paused : Finset EventClass) : Prop := call.onSet paused ≠ paused

instance (call : SwitchCall) (paused : Finset EventClass) : Decidable (call.Changes paused) :=
  inferInstanceAs (Decidable (_ ≠ _))

end SwitchCall

/-- A switch, whether it is gone, and those who watch it. -/
structure Watched where
  switch : PauseSwitch
  gone : Bool
  watchers : List Watcher

namespace Watched

/-- A new switch, which nobody watches yet. -/
def ofClasses (initial : List EventClass) : Watched := ⟨.ofClasses initial, false, []⟩

/-- A result that needs the switch. -/
def unlessGone (x : Watched) (result : SwitchAnswer × Watched) : Option (SwitchAnswer × Watched) :=
  if x.gone then none else some result

/-- The answer to a call, and what it leaves; none if the switch is gone, or if nobody watches
under the number. -/
def answer? (x : Watched) : SwitchCall → Option (SwitchAnswer × Watched)
  | .pause c =>
    x.unlessGone (.flag (x.switch.pause c).1, { x with switch := (x.switch.pause c).2 })
  | .resume c =>
    x.unlessGone (.flag (x.switch.resume c).1, { x with switch := (x.switch.resume c).2 })
  | .replace classes => x.unlessGone (.done, { x with switch := x.switch.replace classes })
  | .subscribe =>
    x.unlessGone (.number x.watchers.length,
      { x with watchers := x.watchers ++ [.subscribe x.switch] })
  | .drop => x.unlessGone (.done, { x with gone := true })
  | .ask i => x.watchers[i]?.map fun w =>
      (.news (w.poll x.switch x.gone).1,
        { x with watchers := x.watchers.set i (w.poll x.switch x.gone).2 })

/-- Calls with their answers, first made first. -/
abbrev History := List (SwitchCall × SwitchAnswer)

/-- Makes calls one after the other, as long as they are possible, and adds them to a history. -/
def run? (x : Watched) (history : History) : List SwitchCall → Option (History × Watched)
  | [] => some (history, x)
  | call :: rest =>
    (x.answer? call).bind fun (answer, x') => run? x' (history ++ [(call, answer)]) rest

/-! ## What a history demands -/

/-- The plain set after the calls of a history. -/
def pausedAfter (paused : Finset EventClass) (history : History) : Finset EventClass :=
  history.foldl (fun paused entry => entry.1.onSet paused) paused

/-- How many calls of a history changed the plain set. -/
def changesIn (paused : Finset EventClass) : History → Nat
  | [] => 0
  | (call, _) :: rest =>
    (if call.Changes paused then 1 else 0) + changesIn (call.onSet paused) rest

/-- How many began to watch. -/
def watchersIn (history : History) : Nat :=
  history.countP fun entry => entry.1 = .subscribe

/-- The switch went. -/
def IsDropped (history : History) : Prop := ∃ answer, (SwitchCall.drop, answer) ∈ history

/-- There was a change since the watcher of a number began to watch and since it was last told
of one. -/
def Unseen (paused : Finset EventClass) (i : Nat) (history : History) : Prop :=
  ∃ before call answer after, history = before ++ (call, answer) :: after ∧
    call.Changes (pausedAfter paused before) ∧ i < watchersIn before ∧
    (.ask i, .news .changed) ∉ after

/-- A call can be made after a history: the switch is there, or the watcher that asks is. -/
def Possible (history : History) : SwitchCall → Prop
  | .ask i => i < watchersIn history
  | _ => ¬ IsDropped history

/-- The answer that a call gets after a history. -/
def Demands (paused : Finset EventClass) (history : History) : SwitchCall → SwitchAnswer → Prop
  | .pause c, .flag changed =>
    changed = true ↔ (SwitchCall.pause c).Changes (pausedAfter paused history)
  | .resume c, .flag changed =>
    changed = true ↔ (SwitchCall.resume c).Changes (pausedAfter paused history)
  | .replace _, .done => True
  | .subscribe, .number i => i = watchersIn history
  | .drop, .done => True
  | .ask i, .news answer =>
    (answer = .changed ↔ Unseen paused i history) ∧
    (answer = .closed ↔ ¬ Unseen paused i history ∧ IsDropped history) ∧
    (answer = .idle ↔ ¬ Unseen paused i history ∧ ¬ IsDropped history)
  | _, _ => False

section Histories

variable {paused : Finset EventClass} {history : History} {call : SwitchCall}
  {answer : SwitchAnswer} {i : Nat}

theorem pausedAfter_concat :
    pausedAfter paused (history ++ [(call, answer)]) =
      call.onSet (pausedAfter paused history) := by
  simp [pausedAfter]

theorem changesIn_concat :
    changesIn paused (history ++ [(call, answer)]) =
      changesIn paused history + if call.Changes (pausedAfter paused history) then 1 else 0 := by
  induction history generalizing paused with
  | nil => exact Nat.add_comm _ _
  | cons entry rest ih =>
    rw [List.cons_append, changesIn, changesIn, ih, Nat.add_assoc]
    rfl

theorem watchersIn_concat :
    watchersIn (history ++ [(call, answer)]) =
      watchersIn history + if call = .subscribe then 1 else 0 := by
  simp [watchersIn, List.countP_append, List.countP_cons]

theorem isDropped_concat :
    IsDropped (history ++ [(call, answer)]) ↔ IsDropped history ∨ call = .drop := by
  simp [IsDropped, exists_or, eq_comm]

/-- A change is not seen if it was just made, or if it was not seen before and not told. -/
theorem unseen_concat :
    Unseen paused i (history ++ [(call, answer)]) ↔
      call.Changes (pausedAfter paused history) ∧ i < watchersIn history ∨
        Unseen paused i history ∧ (call, answer) ≠ (.ask i, .news .changed) := by
  constructor
  · rintro ⟨before, call', answer', after, hsplit, hchanges, hwatches, hnone⟩
    rcases List.eq_nil_or_concat' after with rfl | ⟨after, entry, rfl⟩
    · obtain ⟨rfl, hentry⟩ := List.append_singleton_inj.1 hsplit
      obtain ⟨rfl, -⟩ := Prod.mk.inj hentry
      exact Or.inl ⟨hchanges, hwatches⟩
    · rw [← List.cons_append, ← List.append_assoc] at hsplit
      obtain ⟨rfl, rfl⟩ := List.append_singleton_inj.1 hsplit
      rw [List.mem_append, not_or, List.mem_singleton] at hnone
      exact Or.inr ⟨⟨before, call', answer', after, rfl, hchanges, hwatches, hnone.1⟩,
        Ne.symm hnone.2⟩
  · rintro (⟨hchanges, hwatches⟩ | ⟨⟨before, call', answer', after, rfl, hchanges, hwatches,
      hnone⟩, hne⟩)
    · exact ⟨history, call, answer, [], rfl, hchanges, hwatches, List.not_mem_nil⟩
    · refine ⟨before, call', answer', after ++ [(call, answer)], by simp, hchanges, hwatches, ?_⟩
      rw [List.mem_append, List.mem_singleton]
      rintro (hmem | heq)
      · exact hnone hmem
      · exact hne heq.symm

/-- Whoever has not seen a change watches. -/
theorem Unseen.lt (h : Unseen paused i history) : i < watchersIn history := by
  obtain ⟨before, call, answer, after, rfl, -, hwatches, -⟩ := h
  refine Nat.lt_of_lt_of_le hwatches ?_
  simp [watchersIn, List.countP_append]

end Histories
end Watched

/-! ## The switch and the plain set -/

namespace PauseSwitch

/-- The switch does what the plain set does, and counts it. -/
structure Follows (p p' : PauseSwitch) (call : SwitchCall) : Prop where
  orderly : p'.Orderly
  classes : p'.classes.toFinset = call.onSet p.classes.toFinset
  version : p'.version = p.version + if call.Changes p.classes.toFinset then 1 else 0

variable {p : PauseSwitch}

theorem changes_pause_iff {c : EventClass} :
    (SwitchCall.pause c).Changes p.classes.toFinset ↔ p.isPaused c = false := by
  simp [SwitchCall.Changes, SwitchCall.onSet, isPaused]

theorem changes_resume_iff {c : EventClass} :
    (SwitchCall.resume c).Changes p.classes.toFinset ↔ p.isPaused c = true := by
  simp [SwitchCall.Changes, SwitchCall.onSet, isPaused]

theorem changes_replace_iff {classes : List EventClass} :
    (SwitchCall.replace classes).Changes p.classes.toFinset ↔
      ¬ ∀ x, x ∈ p.classes ↔ x ∈ classes := by
  simp [SwitchCall.Changes, SwitchCall.onSet, Finset.ext_iff, iff_comm]

theorem follows_pause (h : p.Orderly) (c : EventClass) :
    p.Follows (p.pause c).2 (.pause c) ∧
      ((p.pause c).1 = true ↔ (SwitchCall.pause c).Changes p.classes.toFinset) := by
  rw [changes_pause_iff]
  refine ⟨⟨orderly_pause h c, ?_, ?_⟩, ?_⟩
  · unfold pause
    split
    · next hpaused =>
      have hmem : c ∈ p.classes.toFinset := by simpa [isPaused] using hpaused
      exact (Finset.insert_eq_of_mem hmem).symm
    · ext x
      simp [SwitchCall.onSet]
  · simp only [changes_pause_iff]
    unfold pause
    split <;> simp_all
  · unfold pause
    split <;> simp_all

theorem follows_resume (h : p.Orderly) (c : EventClass) :
    p.Follows (p.resume c).2 (.resume c) ∧
      ((p.resume c).1 = true ↔ (SwitchCall.resume c).Changes p.classes.toFinset) := by
  rw [changes_resume_iff]
  refine ⟨⟨orderly_resume h c, ?_, ?_⟩, ?_⟩
  · unfold resume
    split
    · ext x
      simp [SwitchCall.onSet, and_comm]
    · next hidle =>
      have hnone : c ∉ p.classes.toFinset := by simpa [isPaused] using hidle
      exact (Finset.erase_eq_of_notMem hnone).symm
  · simp only [changes_resume_iff]
    unfold resume
    split <;> simp_all
  · unfold resume
    split <;> simp_all

theorem follows_replace (h : p.Orderly) (classes : List EventClass) :
    p.Follows (p.replace classes) (.replace classes) := by
  refine ⟨orderly_replace h classes, ?_, ?_⟩
  · ext x
    simp [SwitchCall.onSet, mem_replace]
  · by_cases hsame : ∀ x, x ∈ p.classes ↔ x ∈ classes
    · rw [replace_of_same h hsame, if_neg fun hchanges => changes_replace_iff.1 hchanges hsame,
        Nat.add_zero]
    · rw [replace_of_differs hsame, if_pos (changes_replace_iff.2 hsame)]

theorem follows_self (h : p.Orderly) {call : SwitchCall}
    (hsame : call.onSet p.classes.toFinset = p.classes.toFinset) : p.Follows p call :=
  ⟨h, hsame.symm, by simp [SwitchCall.Changes, hsame]⟩

end PauseSwitch

/-! ## Runs -/

namespace Watched

/-- The state fits the history: the switch has the plain set and counts its changes, a watcher
is behind the count exactly if it has not seen a change, and every answer was the one that the
history before it demands. -/
structure Reflects (initial : List EventClass) (history : History) (x : Watched) : Prop where
  orderly : x.switch.Orderly
  paused : x.switch.classes.toFinset = pausedAfter initial.toFinset history
  version : x.switch.version = changesIn initial.toFinset history
  gone : x.gone = true ↔ IsDropped history
  watchers : x.watchers.length = watchersIn history
  seen : ∀ i w, x.watchers[i]? = some w → w.seen ≤ x.switch.version ∧
    (w.seen ≠ x.switch.version ↔ Unseen initial.toFinset i history)
  answers : ∀ before call answer, before ++ [(call, answer)] <+: history →
    Demands initial.toFinset before call answer

section Steps

variable {initial : List EventClass} {history : History} {x x' : Watched} {call : SwitchCall}
  {answer : SwitchAnswer}

theorem reflects_ofClasses (initial : List EventClass) :
    Reflects initial [] (ofClasses initial) where
  orderly := PauseSwitch.orderly_ofClasses initial
  paused := by
    ext c
    simp [ofClasses, PauseSwitch.ofClasses, pausedAfter]
  version := rfl
  gone := by simp [ofClasses, IsDropped]
  watchers := rfl
  seen := by simp [ofClasses]
  answers := by simp

theorem Reflects.answers_concat (h : Reflects initial history x)
    (hdemands : Demands initial.toFinset history call answer) {before : History}
    {call' : SwitchCall} {answer' : SwitchAnswer}
    (hpart : before ++ [(call', answer')] <+: history ++ [(call, answer)]) :
    Demands initial.toFinset before call' answer' := by
  rcases List.prefix_concat_iff.1 hpart with heq | hpart
  · obtain ⟨rfl, hentry⟩ := List.append_singleton_inj.1 heq
    obtain ⟨rfl, rfl⟩ := Prod.mk.inj hentry
    exact hdemands
  · exact h.answers before call' answer' hpart

/-- A call on the switch itself; whoever begins to watch has seen what there was. -/
theorem Reflects.onSwitch (h : Reflects initial history x) (hask : ∀ i, call ≠ .ask i)
    (hfollows : x.switch.Follows x'.switch call)
    (hgone : x'.gone = true ↔ x.gone = true ∨ call = .drop)
    (hwatchers : x'.watchers =
      x.watchers ++ if call = .subscribe then [Watcher.subscribe x.switch] else [])
    (hdemands : Demands initial.toFinset history call answer) :
    Reflects initial (history ++ [(call, answer)]) x' := by
  have hversion := hfollows.version
  rw [h.paused] at hversion
  have hold : ∀ i w, x.watchers[i]? = some w → w.seen ≤ x'.switch.version ∧
      (w.seen ≠ x'.switch.version ↔
        Unseen initial.toFinset i (history ++ [(call, answer)])) := by
    intro i w hw
    obtain ⟨hle, hseen⟩ := h.seen i w hw
    have hwatches : i < watchersIn history := by
      rw [← h.watchers]
      exact (List.getElem?_eq_some_iff.1 hw).1
    have hnot : (call, answer) ≠ (.ask i, .news .changed) :=
      fun heq => hask i (congrArg Prod.fst heq)
    rw [unseen_concat, hversion]
    by_cases hchanges : call.Changes (pausedAfter initial.toFinset history)
    · simp only [hchanges, hwatches, if_true, true_and, true_or, iff_true]
      omega
    · simpa [hchanges, hnot] using ⟨hle, hseen⟩
  refine ⟨hfollows.orderly, ?_, ?_, ?_, ?_, fun i w hw => ?_, fun _ _ _ => h.answers_concat hdemands⟩
  · rw [hfollows.classes, h.paused, pausedAfter_concat]
  · rw [hversion, h.version, changesIn_concat]
  · rw [hgone, isDropped_concat, h.gone]
  · rw [hwatchers, List.length_append, h.watchers, watchersIn_concat]
    split <;> rfl
  · rw [hwatchers] at hw
    by_cases hlt : i < x.watchers.length
    · rw [List.getElem?_append_left hlt] at hw
      exact hold i w hw
    · rw [List.getElem?_append_right (Nat.le_of_not_lt hlt)] at hw
      split at hw
      · next hsubscribe =>
        -- the new watcher is the last one, and its call is no change
        subst hsubscribe
        obtain ⟨hlast, hw⟩ := List.getElem?_eq_some_iff.1 hw
        have hi : i = watchersIn history := by
          rw [← h.watchers]
          simp only [List.length_cons, List.length_nil] at hlast
          omega
        have hsame : w.seen = x'.switch.version := by
          rw [hversion, ← hw]
          simp [Watcher.subscribe, SwitchCall.Changes, SwitchCall.onSet]
        have hunseen : ¬ Unseen initial.toFinset i (history ++ [(.subscribe, answer)]) := by
          rw [unseen_concat]
          rintro (⟨hchanges, -⟩ | ⟨hunseen, -⟩)
          · exact hchanges rfl
          · exact Nat.lt_irrefl _ (hi ▸ hunseen.lt)
        exact ⟨hsame.le, by simp [hsame, hunseen]⟩
      · simp at hw

/-- A watcher asks: it is told of a change that it has not seen. -/
theorem Reflects.ask (h : Reflects initial history x) {i : Nat} {w : Watcher}
    (hw : x.watchers[i]? = some w) :
    Reflects initial (history ++ [(.ask i, .news (w.poll x.switch x.gone).1)])
      { x with watchers := x.watchers.set i (w.poll x.switch x.gone).2 } := by
  obtain ⟨hle, hseen⟩ := h.seen i w hw
  have hsame : ∀ paused, ¬ (SwitchCall.ask i).Changes paused := fun _ hchanges => hchanges rfl
  have hdemands : Demands initial.toFinset history (.ask i)
      (.news (w.poll x.switch x.gone).1) := by
    simp only [Demands, ← hseen, ← h.gone]
    unfold Watcher.poll
    split
    · next hbehind => simp [hbehind]
    · next hlevel =>
      split
      · next hgone => simp_all
      · next hthere => simp_all
  have hpolled : (w.poll x.switch x.gone).2.seen = x.switch.version := by
    unfold Watcher.poll
    split
    · rfl
    · next hlevel => split <;> simpa using hlevel
  refine ⟨h.orderly, ?_, ?_, ?_, ?_, fun j v hv => ?_, fun _ _ _ => h.answers_concat hdemands⟩
  · rw [pausedAfter_concat]
    exact h.paused
  · rw [changesIn_concat, if_neg (hsame _)]
    exact h.version
  · rw [isDropped_concat]
    simpa using h.gone
  · rw [watchersIn_concat]
    simpa using h.watchers
  · rw [unseen_concat]
    by_cases hj : j = i
    · subst hj
      obtain ⟨hlt, -⟩ := List.getElem?_eq_some_iff.1 hw
      simp only [List.getElem?_set_self hlt, Option.some.injEq] at hv
      subst hv
      refine ⟨hpolled.le, ?_⟩
      simp only [hpolled, ne_eq, not_true_eq_false, hsame, false_and, false_or, false_iff, not_and,
        not_not, Prod.mk.injEq, true_and, SwitchAnswer.news.injEq]
      exact hdemands.1.2
    · simp only [List.getElem?_set_ne (Ne.symm hj)] at hv
      have hother : (SwitchCall.ask i, SwitchAnswer.news (w.poll x.switch x.gone).1) ≠
          (.ask j, .news .changed) := by
        intro heq
        exact hj (SwitchCall.ask.inj (congrArg Prod.fst heq)).symm
      simpa [hsame, hother] using h.seen j v hv

theorem answer?_of_unlessGone {result : SwitchAnswer × Watched}
    (h : x.unlessGone result = some (answer, x')) : x.gone = false ∧ result = (answer, x') := by
  unfold unlessGone at h
  split at h
  · cases h
  · next hthere => exact ⟨by simpa using hthere, Option.some.inj h⟩

/-- Every call keeps state and history together. -/
theorem Reflects.answer? (h : Reflects initial history x)
    (hanswer : x.answer? call = some (answer, x')) :
    Reflects initial (history ++ [(call, answer)]) x' := by
  cases call with
  | pause c =>
    obtain ⟨hthere, heq⟩ := answer?_of_unlessGone hanswer
    cases heq
    obtain ⟨hfollows, hflag⟩ := PauseSwitch.follows_pause h.orderly c
    rw [h.paused] at hflag
    exact h.onSwitch (fun _ => nofun) hfollows (by simp) (by simp) hflag
  | resume c =>
    obtain ⟨hthere, heq⟩ := answer?_of_unlessGone hanswer
    cases heq
    obtain ⟨hfollows, hflag⟩ := PauseSwitch.follows_resume h.orderly c
    rw [h.paused] at hflag
    exact h.onSwitch (fun _ => nofun) hfollows (by simp) (by simp) hflag
  | replace classes =>
    obtain ⟨hthere, heq⟩ := answer?_of_unlessGone hanswer
    cases heq
    exact h.onSwitch (fun _ => nofun) (PauseSwitch.follows_replace h.orderly classes) (by simp)
      (by simp) trivial
  | subscribe =>
    obtain ⟨hthere, heq⟩ := answer?_of_unlessGone hanswer
    cases heq
    exact h.onSwitch (fun _ => nofun) (PauseSwitch.follows_self h.orderly rfl) (by simp) (by simp)
      h.watchers
  | drop =>
    obtain ⟨hthere, heq⟩ := answer?_of_unlessGone hanswer
    cases heq
    exact h.onSwitch (fun _ => nofun) (PauseSwitch.follows_self h.orderly rfl) (by simp) (by simp)
      trivial
  | ask i =>
    obtain ⟨w, hw, heq⟩ := Option.map_eq_some_iff.1 hanswer
    cases heq
    exact h.ask hw

theorem Reflects.run? {calls : List SwitchCall} {history' : History}
    (h : Reflects initial history x) (hrun : x.run? history calls = some (history', x')) :
    Reflects initial history' x' ∧ history'.map Prod.fst = history.map Prod.fst ++ calls := by
  induction calls generalizing history x with
  | nil =>
    cases hrun
    exact ⟨h, (List.append_nil _).symm⟩
  | cons call rest ih =>
    obtain ⟨⟨answer, t⟩, hanswer, hrest⟩ := Option.bind_eq_some_iff.1 hrun
    obtain ⟨hreflects, hcalls⟩ := ih (h.answer? hanswer) hrest
    refine ⟨hreflects, ?_⟩
    rw [hcalls]
    simp

/-- Only the switch and the watcher that asks need to be there. -/
theorem Reflects.exists_answer (h : Reflects initial history x) :
    (∃ answer x', x.answer? call = some (answer, x')) ↔ Possible history call := by
  have hunless : ∀ result, (∃ answer x', x.unlessGone result = some (answer, x')) ↔
      ¬ IsDropped history := by
    intro result
    rw [← h.gone]
    unfold unlessGone
    split
    · next hgone => simp [hgone]
    · next hthere => simpa [hthere] using ⟨result.1, result.2, rfl⟩
  cases call with
  | ask i =>
    rw [Possible, ← h.watchers]
    simp [Watched.answer?, List.getElem?_eq_some_iff]
  | pause | resume | replace | subscribe | drop => exact hunless _

end Steps

/-! ## Changes that are told -/

section Telling

variable {paused : Finset EventClass} {before between : History} {i : Nat}

/-- A change is told to a watcher when it asks next. -/
theorem told_of_changes {call : SwitchCall} {answer answer' : SwitchAnswer}
    (hdemands : Demands paused (before ++ (call, answer) :: between) (.ask i) answer')
    (hchanges : call.Changes (pausedAfter paused before)) (hwatches : i < watchersIn before)
    (hfirst : ∀ answer, (.ask i, answer) ∉ between) : answer' = .news .changed := by
  have hunseen : Unseen paused i (before ++ (call, answer) :: between) :=
    ⟨before, call, answer, between, rfl, hchanges, hwatches, hfirst (.news .changed)⟩
  cases answer' with
  | news news => exact congrArg SwitchAnswer.news (hdemands.1.2 hunseen)
  | done | flag | number => exact hdemands.elim

/-- A watcher that was told of a change is told of another one only. -/
theorem changes_of_told
    (hdemands : Demands paused (before ++ (.ask i, .news .changed) :: between) (.ask i)
      (.news .changed)) :
    ∃ earlier call answer later, between = earlier ++ (call, answer) :: later ∧
      call.Changes (pausedAfter paused (before ++ (.ask i, .news .changed) :: earlier)) := by
  obtain ⟨start, call, answer, rest, hsplit, hchanges, -, hnone⟩ := hdemands.1.1 rfl
  have hask : (SwitchCall.ask i, SwitchAnswer.news .changed) ≠ (call, answer) := by
    intro heq
    obtain ⟨rfl, -⟩ := Prod.mk.inj heq
    exact hchanges rfl
  rcases List.append_eq_append_iff.1 hsplit with ⟨part, rfl, hbetween⟩ | ⟨part, rfl, hrest⟩
  · cases part with
    | nil => exact absurd (List.cons.inj hbetween).1 hask
    | cons first earlier =>
      obtain ⟨rfl, rfl⟩ := List.cons.inj hbetween
      exact ⟨earlier, call, answer, rest, rfl, hchanges⟩
  · -- what was told before is not after the change
    cases part with
    | nil => exact absurd (List.cons.inj hrest).1.symm hask
    | cons first later =>
      obtain ⟨-, rfl⟩ := List.cons.inj hrest
      exact absurd (List.mem_append_right later List.mem_cons_self) hnone

end Telling

end Watched

namespace Service

/-- The entry point of a service has its switch answer. -/
theorem pauseClass_eq (s : Service) (c : EventClass) :
    (s.pauseClass c).1 = (s.pauses.pause c).1 ∧
      (s.pauseClass c).2.pauses = (s.pauses.pause c).2 := by
  refine ⟨?_, pauses_after? (m := .pause c) rfl⟩
  unfold pauseClass
  split <;> next heq => rw [heq]

theorem resumeClass_eq (s : Service) (c : EventClass) :
    (s.resumeClass c).1 = (s.pauses.resume c).1 ∧
      (s.resumeClass c).2.pauses = (s.pauses.resume c).2 := by
  refine ⟨?_, pauses_after? (m := .resume c) rfl⟩
  unfold resumeClass
  split <;> next heq => rw [heq]

end Service

namespace Watched

/-- After any calls the paused classes are those of a plain set, and the count is that of the
calls that changed it.  Every call is answered as long as the switch is there, and the watcher
that asks also after that.  Whoever pauses or resumes a class is told whether the set changed,
and whoever watches whether it did since it began to watch and since it was last told so.  So a
change is told to every watcher that asks after it, and between two such answers there is
another change.  The entry point of a service has its switch answer. -/
theorem watchers_learn_of_changes {initial : List EventClass} {calls : List SwitchCall}
    {history : History} {x : Watched}
    (hrun : (ofClasses initial).run? [] calls = some (history, x)) :
    history.map Prod.fst = calls ∧
    (∀ c, x.switch.isPaused c = true ↔ c ∈ pausedAfter initial.toFinset history) ∧
    x.switch.version = changesIn initial.toFinset history ∧
    (∀ call, (∃ answer x', x.answer? call = some (answer, x')) ↔ Possible history call) ∧
    (∀ before call answer, before ++ [(call, answer)] <+: history →
      Demands initial.toFinset before call answer) ∧
    (∀ before call answer between i answer',
      before ++ (call, answer) :: between ++ [(.ask i, answer')] <+: history →
      call.Changes (pausedAfter initial.toFinset before) → i < watchersIn before →
      (∀ answer, (.ask i, answer) ∉ between) → answer' = .news .changed) ∧
    (∀ before between i,
      before ++ (.ask i, .news .changed) :: between ++ [(.ask i, .news .changed)] <+: history →
      ∃ earlier call answer later, between = earlier ++ (call, answer) :: later ∧
        call.Changes
          (pausedAfter initial.toFinset (before ++ (.ask i, .news .changed) :: earlier))) ∧
    ∀ s : Service,
      (∀ c, (s.pauseClass c).1 = (s.pauses.pause c).1 ∧
        (s.pauseClass c).2.pauses = (s.pauses.pause c).2) ∧
      (∀ c, (s.resumeClass c).1 = (s.pauses.resume c).1 ∧
        (s.resumeClass c).2.pauses = (s.pauses.resume c).2) ∧
      ∀ classes, (s.setPaused classes).pauses = s.pauses.replace classes := by
  obtain ⟨hreflects, hcalls⟩ := (reflects_ofClasses initial).run? hrun
  refine ⟨hcalls, fun c => ?_, hreflects.version, fun _ => hreflects.exists_answer,
    hreflects.answers, ?_, ?_,
    fun s => ⟨s.pauseClass_eq, s.resumeClass_eq, fun _ => rfl⟩⟩
  · rw [← hreflects.paused]
    simp [PauseSwitch.isPaused]
  · intro before call answer between i answer' hpart hchanges hwatches hfirst
    exact told_of_changes (hreflects.answers _ _ _ hpart) hchanges hwatches hfirst
  · intro before between i hpart
    exact changes_of_told (hreflects.answers _ _ _ hpart)

/-- A class is paused that was paused, another is paused and resumed, a set is put in place that
was there, and one that was not; then the switch goes. -/
def watchedCalls : List SwitchCall :=
  [.subscribe, .pause .airflow, .pause .team, .subscribe, .resume .team, .ask 0, .ask 0,
    .replace [.airflow, .airflow], .ask 1, .ask 1, .replace [.jupyter], .drop, .ask 0, .ask 0,
    .ask 1]

def watchedAnswers : List SwitchAnswer :=
  [.number 0, .flag false, .flag true, .number 1, .flag true, .news .changed, .news .idle, .done,
    .news .changed, .news .idle, .done, .done, .news .changed, .news .closed, .news .changed]

theorem watchers_learn_of_changes_of_watchedCalls :
    ∃ x, (ofClasses [.airflow]).run? [] watchedCalls =
        some (watchedCalls.zip watchedAnswers, x) ∧
      (∀ c, x.switch.isPaused c = true ↔ c = .jupyter) ∧
      x.switch.version = 3 ∧
      (∀ c, x.answer? (.pause c) = none) ∧
      Unseen {.airflow} 1 ((watchedCalls.zip watchedAnswers).take 8) ∧
      ¬ Unseen {.airflow} 0 ((watchedCalls.zip watchedAnswers).take 13) := by
  have hview : ((ofClasses [.airflow]).run? [] watchedCalls).map Prod.fst =
      some (watchedCalls.zip watchedAnswers) := by decide +kernel
  have hset : pausedAfter [EventClass.airflow].toFinset (watchedCalls.zip watchedAnswers) =
      {.jupyter} := by decide +kernel
  have hcount : changesIn [EventClass.airflow].toFinset (watchedCalls.zip watchedAnswers) = 3 := by
    decide +kernel
  obtain ⟨⟨history, x⟩, hrun, hhistory⟩ := Option.map_eq_some_iff.1 hview
  obtain rfl : history = watchedCalls.zip watchedAnswers := hhistory
  obtain ⟨-, hpaused, hversion, hpossible, hanswers, -⟩ := watchers_learn_of_changes hrun
  refine ⟨x, hrun, fun c => ?_, hversion.trans hcount, fun c => ?_, ?_, ?_⟩
  · rw [hpaused, hset, Finset.mem_singleton]
  · rw [Option.eq_none_iff_forall_ne_some]
    rintro ⟨answer, x'⟩ hanswer
    exact (hpossible (.pause c)).1 ⟨answer, x', hanswer⟩ ⟨.done, by decide⟩
  · have hundone := hanswers ((watchedCalls.zip watchedAnswers).take 8) (.ask 1) (.news .changed)
      ⟨(watchedCalls.zip watchedAnswers).drop 9, rfl⟩
    exact hundone.1.1 rfl
  · have hclosed := hanswers ((watchedCalls.zip watchedAnswers).take 13) (.ask 0) (.news .closed)
      ⟨(watchedCalls.zip watchedAnswers).drop 14, rfl⟩
    exact (hclosed.2.1.1 rfl).1

end Watched
end EventDispatch
