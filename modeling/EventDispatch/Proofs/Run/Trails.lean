import EventDispatch.Proofs.Run.Fates
import EventDispatch.Proofs.Store.Lifecycle
import Mathlib

/-!
# Trails that agree with their events

**Input.** A store within reach, and those who act for an event: each has a list of
actions ahead of it, and each action makes at most one call.

**Rule.** A row of level `fatal` is written before the event is marked failed, and the
first row says that the event is dispatched.  What has to be in the trail before an action
is `Action.Due`; a list of actions is in order if each is due once those before it are
performed (`InOrder`).

**Invariant.** Each event agrees with its rows (`Event.AgreesWith`), and each row belongs
to a stored event (`Store.Audited`).

**Results.** A call that the trail admits keeps this (`Audited.after`).  An action that is
due makes such a call and leaves the rest in order (`attends_performUnder`).  Whatever a
logger writes is in order once the trail has a row (`inOrder_logActions`), and so is what
a worker has left (`inOrder_closingActions`).
-/

namespace EventDispatch

/-- The row with which a trail begins. -/
def openingRow (tag : Tag) : LogLevel × String := (.info, "dispatching event " ++ tag)

/-- What the rows of an event, first written first, show of it. -/
structure Event.AgreesWith (e : Event) (rows : List (LogLevel × String)) : Prop where
  new : e.status = .new → e.retries = 0 ∧ e.updated = e.created ∧ rows = []
  failed : e.status = .failed → ∃ message, (LogLevel.fatal, message) ∈ rows
  opens : ∀ row, rows.head? = some row → row = openingRow e.tag
  run : e.status = .completed ∨ 1 ≤ e.retries → rows ≠ []

/-- An event that is to run or to wait next has the rows that it had. -/
theorem Event.AgreesWith.restand {e : Event} {rows : List (LogLevel × String)}
    (h : e.AgreesWith rows) {status : Status} (hnew : status ≠ .new) (hfailed : status ≠ .failed)
    (hcompleted : status ≠ .completed) (updated : Instant) :
    ({ e with status, updated } : Event).AgreesWith rows where
  new hisNew := absurd hisNew hnew
  failed hisFailed := absurd hisFailed hfailed
  opens := h.opens
  run hrun := h.run (Or.inr (hrun.resolve_left hcompleted))

/-- Another row, first of all the opening one, may be written for an event that is not new. -/
theorem Event.AgreesWith.append {e : Event} {rows : List (LogLevel × String)}
    {row : LogLevel × String} (h : e.AgreesWith rows) (hleft : e.status ≠ .new)
    (hrow : rows ≠ [] ∨ row = openingRow e.tag) : e.AgreesWith (rows ++ [row]) := by
  refine ⟨fun hnew => absurd hnew hleft, fun hfailed => ?_, fun first hfirst => ?_,
    fun _ => List.append_ne_nil_of_right_ne_nil rows (List.cons_ne_nil row [])⟩
  · obtain ⟨message, hmem⟩ := h.failed hfailed
    exact ⟨message, List.mem_append_left _ hmem⟩
  · cases rows with
    | nil =>
      cases hfirst
      exact hrow.resolve_left fun hne => hne rfl
    | cons written rest => exact h.opens first hfirst

/-! ## Actions in order -/

namespace Action

/-- The rows that an action writes. -/
def rows : Action → List (LogLevel × String)
  | .append level message => [(level, message)]
  | _ => []

/-- What has to be in the trail before an action. -/
def Due (tag : Tag) (rows : List (LogLevel × String)) : Action → Prop
  | .append level message => rows ≠ [] ∨ (level, message) = openingRow tag
  | .returnAfterError | .giveBack | .markCompleted => rows ≠ []
  | .markFailed => ∃ message, (LogLevel.fatal, message) ∈ rows
  | .narrate _ | .sleep _ | .pass _ => True

end Action

/-- Each action is due once those before it are performed. -/
def InOrder (tag : Tag) : List (LogLevel × String) → List Action → Prop
  | _, [] => True
  | rows, action :: rest => action.Due tag rows ∧ InOrder tag (rows ++ action.rows) rest

section Order

variable {tag : Tag} {rows rows' : List (LogLevel × String)} {todo rest : List Action}

theorem ne_nil_of_subset {α : Type} {l l' : List α} (h : l ⊆ l') (hne : l ≠ []) : l' ≠ [] := by
  rintro rfl
  exact hne (List.subset_nil.1 h)

theorem Action.Due.mono {action : Action} (h : action.Due tag rows) (hmore : rows ⊆ rows') :
    action.Due tag rows' := by
  cases action with
  | append level message => exact Or.imp_left (ne_nil_of_subset hmore) h
  | returnAfterError | giveBack | markCompleted => exact ne_nil_of_subset hmore h
  | markFailed =>
    obtain ⟨message, hmem⟩ := h
    exact ⟨message, hmore hmem⟩
  | narrate | sleep | pass => trivial

/-- More rows leave actions in order. -/
theorem InOrder.mono (h : InOrder tag rows todo) (hmore : rows ⊆ rows') :
    InOrder tag rows' todo := by
  induction todo generalizing rows rows' with
  | nil => trivial
  | cons action rest ih =>
    obtain ⟨hdue, hrest⟩ := h
    refine ⟨hdue.mono hmore, ih hrest ?_⟩
    exact List.append_subset.2
      ⟨List.Subset.trans hmore (List.subset_append_left _ _), List.subset_append_right _ _⟩

theorem InOrder.append (h : InOrder tag rows todo)
    (hrest : ∀ more, rows ⊆ more → InOrder tag more rest) : InOrder tag rows (todo ++ rest) := by
  induction todo generalizing rows with
  | nil => exact hrest rows (List.Subset.refl rows)
  | cons action todo ih =>
    obtain ⟨hdue, htail⟩ := h
    refine ⟨hdue, ih htail fun more hmore => hrest more ?_⟩
    exact List.Subset.trans (List.subset_append_left _ _) hmore

/-- What a logger writes is in order once there is a row. -/
theorem inOrder_logActions (hrows : rows ≠ []) (e : Event) (level : LogLevel)
    (message : String) : InOrder tag rows (logActions e level message) := by
  have hnarrated : rows ++ [] ≠ [] := by rwa [List.append_nil]
  have hwritten : (level, message) ∈ rows ++ [] ++ [(level, message)] :=
    List.mem_append_right _ List.mem_cons_self
  cases level with
  | info => exact ⟨trivial, Or.inl hnarrated, trivial⟩
  | error => exact ⟨trivial, Or.inl hnarrated, List.ne_nil_of_mem hwritten, trivial⟩
  | fatal => exact ⟨trivial, Or.inl hnarrated, ⟨message, hwritten⟩, trivial⟩

/-- The opening is in order from the start. -/
theorem inOrder_openingActions (e : Event) (rows : List (LogLevel × String)) :
    InOrder e.tag rows (openingActions e) :=
  ⟨trivial, Or.inr rfl, trivial⟩

theorem inOrder_deeds (hrows : rows ≠ []) (e : Event) (deeds : List Deed) :
    InOrder tag rows (deeds.flatMap (Deed.actions e)) := by
  induction deeds generalizing rows with
  | nil => trivial
  | cons deed rest ih =>
    rw [List.flatMap_cons]
    refine InOrder.append ?_ fun more hmore => ih (ne_nil_of_subset hmore hrows)
    cases deed with
    | log level message => exact inOrder_logActions hrows e level message
    | narrate | sleep | pass => exact ⟨trivial, trivial⟩

theorem inOrder_retryActions (hrows : rows ≠ []) (p : Policy) (e : Event)
    (reason : Option String) : InOrder tag rows (retryActions p e reason) := by
  unfold retryActions
  split
  · exact inOrder_logActions hrows e _ _
  · split
    · exact inOrder_logActions hrows e _ _
    · exact ⟨hrows, trivial⟩

/-- Whatever a worker has left once its handler ended is in order. -/
theorem inOrder_closingActions (hrows : rows ≠ []) (p : Policy) (e : Event) (ending : Ending) :
    InOrder tag rows (closingActions p e ending) := by
  unfold closingActions
  split
  · exact ⟨hrows, trivial⟩
  · exact inOrder_retryActions hrows p e none
  · exact inOrder_logActions hrows e _ _
  · exact inOrder_logActions hrows e _ _
  · exact inOrder_logActions hrows e _ _

end Order

/-! ## Stores whose trail agrees with the events -/

namespace Store

/-- An event of this identifier and tag is stored, and it is not new any more. -/
def Knows (s : Store) (id : Uuid) (tag : Tag) : Prop :=
  ∃ e ∈ s.events, e.id = id ∧ e.tag = tag ∧ e.status ≠ .new

/-- The calls that the trail admits. -/
def Admits (s : Store) : Call → Prop
  | .insert id _ _ => s.find? id = none
  | .setStatus _ id .completed => s.rowsOf id ≠ []
  | .setStatus _ id .failed => ∃ message, (LogLevel.fatal, message) ∈ s.rowsOf id
  | .setStatus _ _ _ => False
  | .retry _ id _ => s.rowsOf id ≠ []
  | .append row =>
    ∃ tag, s.Knows row.event tag ∧
      (s.rowsOf row.event ≠ [] ∨ (row.level, row.message) = openingRow tag)
  | .claim _ _ | .resetProcessing _ | .resetStale _ _ => True

/-- Each event agrees with its rows, and each row belongs to an event. -/
structure Audited (s : Store) : Prop where
  ids : s.DistinctIds
  events : ∀ e ∈ s.events, e.AgreesWith (s.rowsOf e.id)
  rows : ∀ row ∈ s.trail, ∃ e ∈ s.events, e.id = row.event

/-- The stores that a call which the trail admits may lead to. -/
def Proceeds (s s' : Store) : Prop := s' = s ∨ ∃ call, s.Admits call ∧ s' = s.after call

variable {s s' : Store} {call : Call}

theorem audited_empty : empty.Audited := by
  refine ⟨distinctIds_empty, ?_, ?_⟩
  all_goals
    intro x hx
    cases hx

theorem Admits.isFresh (h : s.Admits call) : call.isFresh s = true := by
  cases call with
  | insert id now e => exact Option.isNone_iff_eq_none.2 h
  | _ => rfl

/-- There are no rows for an identifier that is not stored. -/
theorem Audited.rowsOf_eq_nil (h : s.Audited) {id : Uuid} (hnone : s.find? id = none) :
    s.rowsOf id = [] := by
  unfold rowsOf
  rw [List.filter_eq_nil_iff.2, List.map_nil]
  intro row hrow hid
  obtain ⟨e, he, heq⟩ := h.rows row hrow
  exact find?_eq_none_iff.1 hnone e he (heq.trans (by simpa using hid))

/-- What a call that the trail admits makes of an event agrees with the rows after it. -/
theorem AgreesWith.effectOn (h : s.Audited) (hadmits : s.Admits call) {e : Event}
    (he : e ∈ s.events) : (call.effectOn s e).AgreesWith ((s.after call).rowsOf e.id) := by
  have hagrees := h.events e he
  rw [rowsOf_after]
  cases call with
  | insert id now request => simpa [Call.effectOn, Call.written] using hagrees
  | claim clock id =>
    simp only [Call.effectOn, Call.written, List.filter_nil, List.map_nil, List.append_nil]
    split
    · exact hagrees.restand (by decide) (by decide) (by decide) clock
    · exact hagrees
  | setStatus clock id status =>
    simp only [Call.effectOn, Call.written, List.filter_nil, List.map_nil, List.append_nil]
    split
    · next hgranted =>
      obtain ⟨rfl, -⟩ := hgranted
      cases status with
      | completed => exact ⟨by simp, by simp, hagrees.opens, fun _ => hadmits⟩
      | failed =>
        refine ⟨by simp, fun _ => hadmits, hagrees.opens, fun _ => ?_⟩
        obtain ⟨message, hmem⟩ := hadmits
        exact List.ne_nil_of_mem hmem
      | new | processing | pending => cases hadmits
    · exact hagrees
  | retry clock id extension =>
    simp only [Call.effectOn, Call.written, List.filter_nil, List.map_nil, List.append_nil]
    split
    · next hgranted =>
      obtain ⟨rfl, -⟩ := hgranted
      exact ⟨by simp, by simp, hagrees.opens, fun _ => hadmits⟩
    · exact hagrees
  | append row =>
    simp only [Call.effectOn, Call.written]
    by_cases hrow : row.event = e.id
    -- the call knows an event of this identifier, and there is only one
    · obtain ⟨tag, ⟨x, hx, hid, rfl, hleft⟩, hdue⟩ := hadmits
      obtain rfl : x = e := h.ids.eq_of_id_eq hx he (hid.trans hrow)
      rw [hrow] at hdue
      simpa [hrow] using hagrees.append hleft hdue
    · simpa [hrow] using hagrees
  | resetProcessing clock | resetStale clock now =>
    simp only [Call.effectOn, Call.written, List.filter_nil, List.map_nil, List.append_nil]
    split
    · exact hagrees.restand (by decide) (by decide) (by decide) clock
    · exact hagrees

/-- A call that the trail admits keeps the agreement. -/
theorem Audited.after (h : s.Audited) (hadmits : s.Admits call) : (s.after call).Audited := by
  refine ⟨h.ids.after hadmits.isFresh, fun e he => ?_, fun row hrow => ?_⟩
  · rcases (mem_after h.ids).1 he with ⟨x, hx, rfl⟩ | hrecorded
    · rw [id_effectOn]
      exact AgreesWith.effectOn h hadmits hx
    · obtain ⟨id, now, request, rfl, rfl, -⟩ := Call.eq_insert_of_mem_recorded hrecorded
      have hnone : (s.after (.insert id now request)).rowsOf id = [] := by
        rw [rowsOf_after, h.rowsOf_eq_nil hadmits]
        rfl
      refine ⟨fun _ => ⟨rfl, rfl, hnone⟩, nofun, fun row hrow => ?_, fun hrun => ?_⟩
      · rw [show (request.recorded id now).id = id from rfl, hnone] at hrow
        cases hrow
      · rcases hrun with hcompleted | hretried
        · cases hcompleted
        · cases hretried
  · have hstored : ∃ e ∈ s.events, e.id = row.event := by
      rw [trail_after] at hrow
      rcases List.mem_append.1 hrow with hold | hwritten
      · exact h.rows row hold
      · cases call with
        | append written =>
          obtain ⟨tag, ⟨e, he, hid, -⟩, -⟩ := hadmits
          rw [List.mem_singleton.1 hwritten]
          exact ⟨e, he, hid⟩
        | _ => cases hwritten
    obtain ⟨e, he, hid⟩ := hstored
    exact ⟨call.effectOn s e, (mem_after h.ids).2 (Or.inl ⟨e, he, rfl⟩),
      (id_effectOn s e call).trans hid⟩

theorem Proceeds.audited (h : s.Proceeds s') (haudited : s.Audited) : s'.Audited := by
  rcases h with rfl | ⟨call, hadmits, rfl⟩
  · exact haudited
  · exact haudited.after hadmits

/-- Rows are only added. -/
theorem Proceeds.rows_subset (h : s.Proceeds s') (id : Uuid) : s.rowsOf id ⊆ s'.rowsOf id := by
  rcases h with rfl | ⟨call, -, rfl⟩
  · exact List.Subset.refl _
  · rw [rowsOf_after]
    exact List.subset_append_left _ _

theorem Proceeds.later (h : s.Proceeds s') (hids : s.DistinctIds) : s.Later s' := by
  rcases h with rfl | ⟨call, -, rfl⟩
  · exact .refl _
  · exact later_after hids call

/-- An event that is not new does not become new again. -/
theorem Proceeds.knows (h : s.Proceeds s') (hids : s.DistinctIds) {id : Uuid} {tag : Tag}
    (hknows : s.Knows id tag) : s'.Knows id tag := by
  rcases h with rfl | ⟨call, -, rfl⟩
  · exact hknows
  · obtain ⟨e, he, hid, htag, hleft⟩ := hknows
    refine ⟨call.effectOn s e, (mem_after hids).2 (Or.inl ⟨e, he, rfl⟩),
      (id_effectOn s e call).trans hid, (tag_effectOn s e call).trans htag, fun hnew => ?_⟩
    rcases (changes_effectOn s e call).status with hsame | hbecomes
    · exact hleft (hsame.symm.trans hnew)
    · rw [hnew] at hbecomes
      cases hbecomes

end Store

/-! ## Those who act for an event -/

/-- Somebody acts for an event that was dispatched, and what is ahead is in order. -/
structure Store.Attends (s : Store) (id : Uuid) (tag : Tag) (todo : List Action) : Prop where
  knows : s.Knows id tag
  inOrder : InOrder tag (s.rowsOf id) todo

namespace Store

variable {s s' : Store} {id : Uuid} {tag : Tag} {todo : List Action}

/-- Whatever others do, what is ahead stays in order. -/
theorem Attends.proceed (h : s.Attends id tag todo) (hids : s.DistinctIds)
    (hproceeds : s.Proceeds s') : s'.Attends id tag todo :=
  ⟨hproceeds.knows hids h.knows, h.inOrder.mono (hproceeds.rows_subset id)⟩

end Store

/-- The trail admits the call of an action that is due. -/
theorem Store.admits_of_due {s : Store} {p : Policy} {clock : Instant} {row : Uuid} {e : Event}
    {tag : Tag} {action : Action} {call : Store.Call}
    (hcall : action.call? p clock row e = some call) (hknows : s.Knows e.id tag)
    (hdue : action.Due tag (s.rowsOf e.id)) : s.Admits call := by
  cases action with
  | append level message =>
    cases hcall
    exact ⟨tag, hknows, hdue⟩
  | returnAfterError | giveBack | markCompleted | markFailed =>
    cases hcall
    exact hdue
  | narrate | sleep | pass => cases hcall

namespace Dispatcher

variable {d : Dispatcher} {p : Policy} {e : Event} {tag : Tag} {action : Action}

/-- An action adds its rows to the trail of its event. -/
theorem rowsOf_performUnder (haccess : d.access = .unhindered) (p : Policy) (e : Event)
    (action : Action) :
    (d.performUnder p e action).store.rowsOf e.id = d.store.rowsOf e.id ++ action.rows := by
  rw [store_performUnder haccess]
  cases action with
  | narrate | sleep | pass => exact (List.append_nil _).symm
  | append | returnAfterError | giveBack | markCompleted | markFailed =>
    simp [Action.call?, Store.rowsOf_after, Store.Call.written, Action.rows]

/-- An action that is due makes a call that the trail admits, and leaves the rest in order. -/
theorem attends_performUnder (haccess : d.access = .unhindered) (hids : d.store.DistinctIds)
    (p : Policy) {rest : List Action} (h : d.store.Attends e.id tag (action :: rest)) :
    d.store.Proceeds (d.performUnder p e action).store ∧
      (d.performUnder p e action).store.Attends e.id tag rest := by
  obtain ⟨hknows, hdue, hrest⟩ := h
  have hproceeds : d.store.Proceeds (d.performUnder p e action).store := by
    rw [store_performUnder haccess]
    cases hcall : action.call? p d.now d.nextId e with
    | none => exact Or.inl rfl
    | some call => exact Or.inr ⟨call, Store.admits_of_due hcall hknows hdue, rfl⟩
  refine ⟨hproceeds, hproceeds.knows hids hknows, ?_⟩
  rw [rowsOf_performUnder haccess]
  exact hrest

end Dispatcher
end EventDispatch
