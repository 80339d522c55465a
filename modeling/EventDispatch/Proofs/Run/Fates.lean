import EventDispatch.Proofs.Run.Budget

/-!
# What becomes of an event

**Input.** A worker with the stored event that it runs, the number of calls of the
handler for the event before, and how much the handler has left to do when it is out of
time, if it ever is.

**Rule.** The account of an event is its status, its retries, its deadline and the rows
of its trail without their times.  A worker has a list of actions ahead of it, fixed as
it is started, and each action posts to the account of its event.

**Results.** A step of a worker takes one action off those ahead and performs it, or
leaves both alone (`advances_of_workerStep`).  An action changes the account of its own
event as it is to, and no other account (`posts_performUnder`).
-/

namespace EventDispatch

/-! ## Accounts -/

namespace Event

/-- The event with nothing of what calls change. -/
def unmoved (e : Event) : Event :=
  { e with status := .new, deadline := .zero, retries := 0, updated := e.created }

/-- The event without the time of its last change. -/
def undated (e : Event) : Event := { e with updated := e.created }

theorem unmoved_effectOn (s : Store) (e : Event) (call : Store.Call) :
    (call.effectOn s e).unmoved = e.unmoved := by
  cases call <;> simp only [Store.Call.effectOn] <;> split <;> rfl

end Event

/-- What matters of an event in the end. -/
structure Account where
  status : Status
  retries : Int
  deadline : Duration
  rows : List (LogLevel × String)
deriving DecidableEq, Inhabited

namespace Store

/-- The rows of an event, first written first, without their times. -/
def rowsOf (s : Store) (id : Uuid) : List (LogLevel × String) :=
  (s.trail.filter fun row => row.event = id).map fun row => (row.level, row.message)

/-- The account of an event. -/
def accountOf (s : Store) (e : Event) : Account :=
  ⟨e.status, e.retries, e.deadline, s.rowsOf e.id⟩

/-- Each event is changed in its place, and the account of one of them alone. -/
structure Posts (s s' : Store) (id : Uuid) (f : Event → Event) (change : Account → Account) :
    Prop where
  revises : s.Revises s' id f
  unmoved : ∀ e, (f e).unmoved = e.unmoved
  account : ∀ e, e.id = id → s'.accountOf (f e) = change (s.accountOf e)
  rows : ∀ other, other ≠ id → s'.rowsOf other = s.rowsOf other

theorem Posts.refl (s : Store) (id : Uuid) : s.Posts s id (fun e => e) fun x => x where
  revises := .refl s id
  unmoved _ := rfl
  account _ _ := rfl
  rows _ _ := rfl

/-- The event with an account, without the time of its last change. -/
theorem undated_eq (s : Store) (e : Event) :
    e.undated = { e.unmoved with
      status := (s.accountOf e).status
      retries := (s.accountOf e).retries
      deadline := (s.accountOf e).deadline } :=
  rfl

end Store

/-- What an action makes of the account of its event, if the store is within reach. -/
def Action.post (grace : Duration) (x : Account) : Action → Account
  | .append level message => { x with rows := x.rows ++ [(level, message)] }
  | .returnAfterError | .giveBack =>
    if x.status = .processing then
      { x with
        status := .pending
        retries := x.retries + 1
        deadline := x.deadline.saturatingAdd grace }
    else x
  | .markFailed => if x.status.canBecome .failed = true then { x with status := .failed } else x
  | .markCompleted =>
    if x.status.canBecome .completed = true then { x with status := .completed } else x
  | .narrate _ | .sleep _ | .pass _ => x

/-- No action starts to run an event. -/
theorem Action.processing_of_post {grace : Duration} {x : Account} {action : Action}
    (h : (action.post grace x).status = .processing) : x.status = .processing := by
  cases action with
  | narrate | append | sleep | pass => exact h
  | returnAfterError | giveBack | markFailed | markCompleted =>
    simp only [post] at h
    split at h
    · cases h
    · exact h

/-- The account once these actions are performed. -/
def postAll (grace : Duration) (x : Account) (todo : List Action) : Account :=
  todo.foldl (Action.post grace) x

namespace Store

theorem revises_after {s : Store} (h : s.DistinctIds) {call : Call} {id : Uuid}
    (hrecorded : call.recorded = []) (hother : ∀ e, e.id ≠ id → call.effectOn s e = e) :
    s.Revises (s.after call) id (call.effectOn s) where
  events := by rw [events_after h, hrecorded, List.append_nil]
  same e := ⟨id_effectOn s e call, tag_effectOn s e call, owner_effectOn s e call⟩
  other := hother

theorem rowsOf_after (s : Store) (call : Call) (id : Uuid) :
    (s.after call).rowsOf id = s.rowsOf id ++
      (call.written.filter fun row => row.event = id).map fun row => (row.level, row.message) := by
  rw [rowsOf, trail_after, List.filter_append, List.map_append]
  rfl

end Store

namespace Dispatcher

variable {d d' : Dispatcher} {w : Worker} {stage : Stage}

/-- An action posts to the account of its event, and to no other. -/
theorem posts_performUnder (haccess : d.access = .unhindered) (hids : d.store.DistinctIds)
    (p : Policy) (target : Event) (action : Action) :
    ∃ f, d.store.Posts (d.performUnder p target action).store target.id f
      (action.post p.grace) := by
  rw [store_performUnder haccess]
  cases action with
  | narrate | sleep | pass => exact ⟨fun e => e, .refl _ _⟩
  | append level message =>
    refine ⟨fun e => e, ⟨?_, fun _ => rfl, fun e hid => ?_, fun id hid => ?_⟩⟩
    · exact ⟨(List.map_id' _).symm, fun _ => ⟨rfl, rfl, rfl⟩, fun _ _ => rfl⟩
    · simp [Action.call?, Store.accountOf, Store.rowsOf_after, Store.Call.written, hid, Action.post]
    · simp [Action.call?, Store.rowsOf_after, Store.Call.written, Ne.symm hid]
  | returnAfterError | giveBack | markFailed | markCompleted =>
    simp only [Action.call?, Option.map_some, Option.getD_some]
    refine ⟨_, ⟨Store.revises_after hids rfl fun e hid => ?_,
      fun e => Event.unmoved_effectOn _ e _, fun e hid => ?_, fun id hid => ?_⟩⟩
    · simp [Store.Call.effectOn, hid]
    · simp only [Store.Call.effectOn, hid, true_and, Store.accountOf, Action.post]
      split <;> simp [Store.rowsOf_after, Store.Call.written, hid]
    · simp [Store.rowsOf_after, Store.Call.written]

end Dispatcher

/-! ## What lies ahead of a worker -/

/-- What is left of a call, which is cut short once so much is left, if at all. -/
def callActions (p : Policy) (e : Event) (cut : Option Nat) (todo : List Action)
    (ending : Ending) : List Action :=
  match cut with
  | none => todo ++ closingActions p e ending
  | some left =>
    if left ≤ todo.length then todo.take (todo.length - left) ++ timeoutActions p e
    else todo ++ closingActions p e ending

theorem callActions_cons {p : Policy} {e : Event} {cut : Option Nat} {action : Action}
    {rest : List Action} {ending : Ending} (hcut : cut ≠ some (rest.length + 1)) :
    callActions p e cut (action :: rest) ending = action :: callActions p e cut rest ending := by
  cases cut with
  | none => rfl
  | some left =>
    have hother : left ≠ rest.length + 1 := fun heq => hcut (congrArg some heq)
    simp only [callActions, List.length_cons]
    by_cases hleft : left ≤ rest.length
    · have hmore : rest.length + 1 - left = (rest.length - left) + 1 := by omega
      rw [if_pos hleft, if_pos (by omega), hmore, List.take_succ_cons, List.cons_append]
    · rw [if_neg hleft, if_neg (by omega), List.cons_append]

theorem callActions_nil {p : Policy} {e : Event} {cut : Option Nat} {ending : Ending}
    (hcut : cut ≠ some 0) : callActions p e cut [] ending = closingActions p e ending := by
  cases cut with
  | none => rfl
  | some left =>
    have hsome : left ≠ 0 := fun heq => hcut (congrArg some heq)
    simp [callActions, hsome]

theorem callActions_cut (p : Policy) (e : Event) (todo : List Action) (ending : Ending) :
    callActions p e (some todo.length) todo ending = timeoutActions p e := by
  simp [callActions]

namespace Worker

/-- What a worker does from the call of its handler on, after so many calls before. -/
def callAhead (w : Worker) (p : Policy) (earlier : Nat) (cut : Option Nat) : List Action :=
  if w.event.deadline.nanos = 0 then timeoutActions p w.event
  else
    callActions p w.event cut
      ((w.handler.play earlier w.event).deeds.flatMap (Deed.actions w.event))
      (w.handler.play earlier w.event).ending

/-- The actions that a worker has yet to perform. -/
def ahead (w : Worker) (p : Policy) (earlier : Nat) (cut : Option Nat) : List Action :=
  match w.stage with
  | .queued => openingActions w.event ++ w.callAhead p earlier cut
  | .opening todo => todo ++ w.callAhead p earlier cut
  | .handling todo ending _ _ => callActions p w.event cut todo ending
  | .closing todo => todo

/-- The handler is out of time exactly when it has so much left to do. -/
def keepsCut (w : Worker) (uptime : Nat) (cut : Option Nat) : Bool :=
  match w.stage with
  | .handling todo _ pause limit =>
    if limit ≤ uptime then cut = some todo.length
    else pause ≠ .none || cut ≠ some todo.length
  | _ => true

/-- The handler was not called yet. -/
def awaitsCall (w : Worker) : Bool :=
  match w.stage with
  | .queued => true
  | .opening _ => true
  | _ => false

end Worker

namespace Dispatcher

variable {d d' : Dispatcher} {w : Worker} {stage : Stage} {earlier : Nat} {cut : Option Nat}

/-- A worker goes on without an action, or it performs the first of those ahead. -/
inductive Advances (d : Dispatcher) (ahead ahead' : List Action) (e : Event) (store : Store) :
    Prop
  | goesOn : ahead' = ahead → store = d.store → Advances d ahead ahead' e store
  | performs (action : Action) :
      ahead = action :: ahead' →
      store = (d.performUnder d.settings.policy e action).store →
      Advances d ahead ahead' e store

/-- However a worker advances, what is ahead of it comes to the same account. -/
theorem Advances.posts {ahead ahead' : List Action} {e : Event} {store : Store}
    (h : d.Advances ahead ahead' e store) (haccess : d.access = .unhindered)
    (hids : d.store.DistinctIds) :
    ∃ f change, d.store.Posts store e.id f change ∧
      (∀ x, postAll d.settings.policy.grace (change x) ahead' =
        postAll d.settings.policy.grace x ahead) ∧
      ∀ x, (change x).status = .processing → x.status = .processing := by
  cases h with
  | goesOn hahead hstore =>
    subst hahead hstore
    exact ⟨_, _, .refl _ _, fun _ => rfl, fun _ h => h⟩
  | performs action hahead hstore =>
    subst hahead hstore
    obtain ⟨f, hposts⟩ := posts_performUnder haccess hids d.settings.policy e action
    exact ⟨f, _, hposts, fun _ => rfl, fun _ => action.processing_of_post⟩

/-- A step of a handler that keeps its cut. -/
theorem advances_of_handlingStep {todo : List Action} {ending : Ending} {pause : Pause}
    {limit : Nat} (hstage : w.stage = .handling todo ending pause limit)
    (h : d.handlingStep w.event todo ending pause limit = some (d', stage))
    (hcut : w.keepsCut d.uptime cut = true) :
    d.Advances (w.ahead d.settings.policy earlier cut)
      (Worker.ahead { w with stage } d.settings.policy earlier cut) w.event d'.store := by
  simp only [Worker.keepsCut, hstage] at hcut
  simp only [Worker.ahead, hstage]
  unfold handlingStep at h
  split at h
  · next hlimit =>
    cases h
    rw [if_pos hlimit, decide_eq_true_eq] at hcut
    subst hcut
    exact .goesOn (callActions_cut _ _ _ _).symm rfl
  · next hlimit =>
    rw [if_neg hlimit] at hcut
    split at h
    · split at h
      · cases h
        exact .goesOn rfl rfl
      · cases h
    · split at h
      · cases h
        exact .goesOn rfl rfl
      · cases h
    · cases h
      refine .goesOn (callActions_nil ?_).symm rfl
      simpa using hcut
    all_goals
      cases h
      refine .performs _ (callActions_cons ?_) ?_
      · simpa using hcut
      · rfl

/-- A step of a worker takes an action off those ahead and performs it, or leaves both
alone, as long as its handler keeps its cut. -/
theorem advances_of_workerStep (h : d.workerStep w = some (d', some stage))
    (hcut : w.keepsCut d.uptime cut = true)
    (hcalls : w.awaitsCall = true → d.callsFor w.event.id = earlier) :
    d.Advances (w.ahead d.settings.policy earlier cut)
      (Worker.ahead { w with stage } d.settings.policy earlier cut) w.event d'.store := by
  unfold workerStep at h
  split at h
  · next hstage =>
    split at h
    · cases h
      refine .goesOn ?_ rfl
      simp only [Worker.ahead, hstage]
      rfl
    · cases h
  · next hstage =>
    cases h
    have hearlier : d.callsFor w.event.id = earlier := hcalls (by simp [Worker.awaitsCall, hstage])
    unfold beginCall
    split
    · next hzero =>
      refine .goesOn ?_ rfl
      simp [Worker.ahead, Worker.callAhead, hstage, hzero]
    · next hnonzero =>
      refine .goesOn ?_ rfl
      simp [Worker.ahead, Worker.callAhead, hstage, hnonzero, hearlier]
  · next hstage =>
    cases h
    refine .performs _ ?_ rfl
    simp only [Worker.ahead, hstage, List.cons_append]
    rfl
  · next hstage =>
    obtain ⟨⟨d₁, stage₁⟩, hstep, heq⟩ := Option.map_eq_some_iff.1 h
    cases heq
    exact advances_of_handlingStep hstage hstep hcut
  · next hstage =>
    cases h
    refine .performs _ ?_ rfl
    simp only [Worker.ahead, hstage]
  · cases h

/-- Until its handler is called, a step of a worker calls none. -/
theorem awaitsCall_of_workerStep (h : d.workerStep w = some (d', some stage))
    (hawaits : Worker.awaitsCall { w with stage } = true) :
    w.awaitsCall = true ∧ w.nextCalls = 0 := by
  unfold workerStep at h
  split at h
  · next hstage => simp [Worker.awaitsCall, Worker.nextCalls, hstage]
  · cases h
    unfold beginCall at hawaits
    split at hawaits <;> cases hawaits
  · next hstage => simp [Worker.awaitsCall, Worker.nextCalls, hstage]
  · obtain ⟨⟨d₁, stage₁⟩, hstep, heq⟩ := Option.map_eq_some_iff.1 h
    cases heq
    unfold handlingStep at hstep
    repeat' split at hstep
    all_goals cases hstep
    all_goals cases hawaits
  · cases h
    cases hawaits
  · cases h

end Dispatcher
end EventDispatch
