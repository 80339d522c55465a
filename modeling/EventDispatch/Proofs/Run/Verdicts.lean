import EventDispatch.Proofs.Run.Trails

/-!
# The verdict on a run

**Input.** The account of an event that is being run, the calls of the logger that its
handler makes, and how the call of the handler is over.

**Rule.** Each call of the logger adds its row.  One of level `error` sends the event back to
wait, and one of level `fatal` fails it, unless it has left `processing` or has ended before.
How the handler ends is looked at only afterwards, by a worker that does not know what the
logger did.

**Results.** The table `Account.settled` is what all actions of such a run come to.  Wherever the
actions of a play are cut off, what was posted until then are the calls of the deeds that were
done, and perhaps the row of one more that had no effect yet (`logsUntil_of_made`).  That row
stands in the trail, and changes nothing else (`Account.settledWithCut`, `postAll_settles`).
-/

namespace EventDispatch

/-! ## Calls of the logger -/

/-- One of the calls is of level `fatal`. -/
def hasFatal (calls : List (LogLevel × String)) : Bool := calls.any fun call => call.1 = .fatal

/-- One of the calls is of level `error`, and none before it is of level `fatal`. -/
def errsFirst : List (LogLevel × String) → Bool
  | [] => false
  | (.info, _) :: rest => errsFirst rest
  | (.error, _) :: _ => true
  | (.fatal, _) :: _ => false

section Levels

variable (message : String) (rest : List (LogLevel × String))

@[simp] theorem hasFatal_nil : hasFatal [] = false := rfl

@[simp] theorem hasFatal_info : hasFatal ((.info, message) :: rest) = hasFatal rest := rfl

@[simp] theorem hasFatal_error : hasFatal ((.error, message) :: rest) = hasFatal rest := rfl

@[simp] theorem hasFatal_fatal : hasFatal ((.fatal, message) :: rest) = true := rfl

end Levels

namespace Account

/-- What a call of the logger makes of the account. -/
def log (grace : Duration) (x : Account) (call : LogLevel × String) : Account :=
  let written := { x with rows := x.rows ++ [call] }
  match call.1 with
  | .info => written
  | .error => Action.returnAfterError.post grace written
  | .fatal => Action.markFailed.post grace written

variable {grace : Duration} {x : Account}

@[simp] theorem log_info (message : String) :
    x.log grace (.info, message) = { x with rows := x.rows ++ [(.info, message)] } := rfl

theorem foldl_log_of_failed (h : x.status = .failed) (calls : List (LogLevel × String)) :
    calls.foldl (log grace) x = { x with rows := x.rows ++ calls } := by
  induction calls generalizing x with
  | nil => simp
  | cons call rest ih =>
    have hcall : x.log grace call = { x with rows := x.rows ++ [call] } := by
      obtain ⟨level, message⟩ := call
      cases level <;> simp [log, Action.post, h, Status.canBecome, Status.sources]
    rw [List.foldl_cons, hcall, ih (by exact h)]
    simp

theorem foldl_log_of_pending (h : x.status = .pending) (calls : List (LogLevel × String)) :
    calls.foldl (log grace) x =
      { x with
        status := if hasFatal calls then .failed else .pending
        rows := x.rows ++ calls } := by
  induction calls generalizing x with
  | nil => simp [← h]
  | cons call rest ih =>
    obtain ⟨level, message⟩ := call
    rw [List.foldl_cons]
    cases level with
    | info =>
      rw [log_info, ih (by exact h), List.append_assoc]
      rfl
    | error =>
      have hcall : x.log grace (.error, message) =
          { x with rows := x.rows ++ [(.error, message)] } := by
        simp [log, Action.post, h]
      rw [hcall, ih (by exact h), List.append_assoc]
      rfl
    | fatal =>
      have hcall : x.log grace (.fatal, message) =
          { x with status := .failed, rows := x.rows ++ [(.fatal, message)] } := by
        simp [log, Action.post, h, Status.canBecome, Status.sources]
      rw [hcall, foldl_log_of_failed rfl]
      simp

/-- What calls of the logger make of an event that is being run: only the first that is not a
remark decides about a retry. -/
theorem foldl_log_of_processing (h : x.status = .processing) (calls : List (LogLevel × String)) :
    calls.foldl (log grace) x =
      { status :=
          if hasFatal calls then .failed else if errsFirst calls then .pending else .processing
        retries := if errsFirst calls then x.retries + 1 else x.retries
        deadline := if errsFirst calls then x.deadline.saturatingAdd grace else x.deadline
        rows := x.rows ++ calls } := by
  induction calls generalizing x with
  | nil => simp [errsFirst, ← h]
  | cons call rest ih =>
    obtain ⟨level, message⟩ := call
    rw [List.foldl_cons]
    cases level with
    | info =>
      rw [log_info, ih (by exact h), List.append_assoc]
      rfl
    | error =>
      have hcall : x.log grace (.error, message) =
          { status := .pending
            retries := x.retries + 1
            deadline := x.deadline.saturatingAdd grace
            rows := x.rows ++ [(.error, message)] } := by
        simp [log, Action.post, h]
      rw [hcall, foldl_log_of_pending rfl]
      simp [errsFirst]
    | fatal =>
      have hcall : x.log grace (.fatal, message) =
          { x with status := .failed, rows := x.rows ++ [(.fatal, message)] } := by
        simp [log, Action.post, h, Status.canBecome, Status.sources]
      rw [hcall, foldl_log_of_failed rfl]
      simp [errsFirst]

end Account

/-! ## How a call of a handler is over -/

/-- How a call of a handler is over. -/
inductive Finish where
  /-- The handler ended by itself. -/
  | ended (ending : Ending)
  /-- The handler was out of time. -/
  | outOfTime

namespace Finish

/-- The event is to be run again, if it has retries left. -/
def asksRetry : Finish → Bool
  | ended (.returned (.ok .retry)) => true
  | outOfTime => true
  | ended _ => false

/-- One retry more is counted: the logger asked for it before it failed the event, or it did not
fail the event, and the end asks for one that is left. -/
def countsRetry (p : Policy) (e : Event) (calls : List (LogLevel × String)) (finish : Finish) :
    Bool :=
  errsFirst calls ||
    (!hasFatal calls && finish.asksRetry && decide (e.retries < p.maxRetries))

/-- The status after it, for an event of so many retries that the logger did not fail. -/
def status (p : Policy) (retries : Int) : Finish → Status
  | ended (.returned (.ok .done)) => .completed
  | ended (.returned (.ok .retry)) => if p.maxRetries ≤ retries then .failed else .pending
  | ended (.returned (.ok (.fatal _))) => .failed
  | ended (.returned (.error _)) => .failed
  | ended (.panicked _) => .failed
  | outOfTime => if p.maxRetries ≤ retries then .failed else .pending

/-- The last row of a run that is to be repeated. -/
def retryRow? (p : Policy) (e : Event) (reason : Option String) : Option (LogLevel × String) :=
  if p.maxRetries ≤ e.retries then
    some (.fatal, "reached max retries (" ++ toString p.maxRetries ++ ")")
  else reason.map fun reason => (.error, reason)

/-- The row that is written last. -/
def row? (p : Policy) (e : Event) : Finish → Option (LogLevel × String)
  | ended (.returned (.ok .done)) => none
  | ended (.returned (.ok .retry)) => retryRow? p e none
  | ended (.returned (.ok (.fatal reason))) => some (.fatal, reason)
  | ended (.returned (.error cause)) => some (.fatal, cause.message)
  | ended (.panicked message) =>
    some (.fatal,
      "executor aborted: task " ++ toString taskNumber ++ " panicked with message " ++
        Text.quoted message)
  | outOfTime =>
    retryRow? p e
      (some ("event timed out after " ++ toString e.deadline.magnitudeSeconds ++ "s"))

/-- The last actions of the worker. -/
def actions (p : Policy) (e : Event) : Finish → List Action
  | ended ending => closingActions p e ending
  | outOfTime => timeoutActions p e

end Finish

namespace Account

/-- What a run makes of the account of an event that is being run, from the calls of the logger
and the way in which the call of the handler is over. -/
def settled (p : Policy) (e : Event) (calls : List (LogLevel × String)) (finish : Finish)
    (x : Account) : Account :=
  let again := finish.countsRetry p e calls
  { status := if hasFatal calls then .failed else finish.status p e.retries
    retries := if again then x.retries + 1 else x.retries
    deadline := if again then x.deadline.saturatingAdd p.grace else x.deadline
    rows := x.rows ++ openingRow e.tag :: calls ++ (finish.row? p e).toList }

theorem status_settled_ne (p : Policy) (e : Event) (calls : List (LogLevel × String))
    (finish : Finish) (x : Account) : (x.settled p e calls finish).status ≠ .processing := by
  unfold settled
  dsimp only
  split
  · decide
  · unfold Finish.status
    repeat' split
    all_goals decide

/-- The account with a row that changes nothing else. -/
def withRow? (x : Account) (row : Option (LogLevel × String)) : Account :=
  { x with rows := x.rows ++ row.toList }

@[simp] theorem withRow?_none (x : Account) : x.withRow? none = x := by simp [withRow?]

/-- What a run makes of the account if `cut` is the row of a call of the logger that was not
completed: the row is there, and apart from it there might have been no call. -/
def settledWithCut (p : Policy) (e : Event) (calls : List (LogLevel × String))
    (cut : Option (LogLevel × String)) (finish : Finish) (x : Account) : Account :=
  { x.settled p e calls finish with
    rows := x.rows ++ openingRow e.tag :: calls ++ cut.toList ++ (finish.row? p e).toList }

/-- When the event last changed does not matter. -/
theorem settledWithCut_updated (p : Policy) (e : Event) (updated : Instant)
    (calls : List (LogLevel × String)) (cut : Option (LogLevel × String)) (finish : Finish)
    (x : Account) :
    x.settledWithCut p { e with updated } calls cut finish =
      x.settledWithCut p e calls cut finish := rfl

@[simp] theorem settledWithCut_none (p : Policy) (e : Event) (calls : List (LogLevel × String))
    (finish : Finish) (x : Account) :
    x.settledWithCut p e calls none finish = x.settled p e calls finish := by
  simp [settledWithCut, settled]

end Account

theorem postAll_logActions (grace : Duration) (x : Account) (e : Event) (level : LogLevel)
    (message : String) :
    postAll grace x (logActions e level message) = x.log grace (level, message) := by
  cases level <;> rfl

/-- The event can still fail, or has. -/
def Account.CanFail (x : Account) : Prop :=
  x.status = .processing ∨ x.status = .pending ∨ x.status = .failed

section Finish

variable {p : Policy} {x : Account}

theorem Account.CanFail.log_fatal (h : x.CanFail) (grace : Duration) (message : String) :
    x.log grace (.fatal, message) =
      { x with status := .failed, rows := x.rows ++ [(.fatal, message)] } := by
  rcases h with h | h | h <;> simp [Account.log, Action.post, h, Status.canBecome, Status.sources]

/-- A run that is to be repeated fails its event if the retries are used up.  Otherwise it sends
the event back to wait, unless that happened before. -/
theorem postAll_retryActions (h : x.CanFail) (e : Event) (reason : Option String) :
    postAll p.grace x (retryActions p e reason) =
      let again := decide (x.status = .processing) && decide (e.retries < p.maxRetries)
      { status :=
          if x.status = .failed ∨ p.maxRetries ≤ e.retries then .failed else .pending
        retries := if again then x.retries + 1 else x.retries
        deadline := if again then x.deadline.saturatingAdd p.grace else x.deadline
        rows := x.rows ++ (Finish.retryRow? p e reason).toList } := by
  by_cases hspent : p.maxRetries ≤ e.retries
  · have hnone : ¬ e.retries < p.maxRetries := Int.not_lt.2 hspent
    simp [retryActions, hspent, postAll_logActions, h.log_fatal, Finish.retryRow?, hnone]
  · have hleft : e.retries < p.maxRetries := Int.not_le.1 hspent
    cases reason with
    | none =>
      obtain ⟨status, retries, deadline, rows⟩ := x
      rcases h with rfl | rfl | rfl <;>
        simp [retryActions, hspent, postAll, Action.post, Finish.retryRow?, hleft]
    | some reason =>
      rcases h with h | h | h <;>
        simp [retryActions, hspent, postAll_logActions, Account.log, Action.post, h,
          Finish.retryRow?, hleft]

/-- What the last actions of a worker make of an event that did not complete. -/
theorem postAll_finish (h : x.CanFail) (e : Event) (finish : Finish) :
    postAll p.grace x (finish.actions p e) =
      let again := decide (x.status = .processing) && finish.asksRetry &&
        decide (e.retries < p.maxRetries)
      { status := if x.status = .failed then .failed else finish.status p e.retries
        retries := if again then x.retries + 1 else x.retries
        deadline := if again then x.deadline.saturatingAdd p.grace else x.deadline
        rows := x.rows ++ (finish.row? p e).toList } := by
  have hfatal (message : String) : postAll p.grace x (logActions e .fatal message) =
      { x with status := .failed, rows := x.rows ++ [(.fatal, message)] } :=
    (postAll_logActions p.grace x e .fatal message).trans (h.log_fatal p.grace message)
  rcases finish with ⟨((cause | (_ | _ | reason)) | message)⟩ | _
  · simp [Finish.actions, closingActions, hfatal, Finish.asksRetry, Finish.status, Finish.row?]
  · obtain ⟨status, retries, deadline, rows⟩ := x
    rcases h with rfl | rfl | rfl <;>
      simp [Finish.actions, closingActions, postAll, Action.post, Status.canBecome,
        Status.sources, Finish.asksRetry, Finish.status, Finish.row?]
  · simp only [Finish.actions, closingActions, postAll_retryActions h, Finish.asksRetry,
      Finish.status, Finish.row?, Bool.and_true]
    rw [ite_or]
  · simp [Finish.actions, closingActions, hfatal, Finish.asksRetry, Finish.status, Finish.row?]
  · simp [Finish.actions, closingActions, hfatal, Finish.asksRetry, Finish.status, Finish.row?]
  · simp only [Finish.actions, timeoutActions, postAll_retryActions h, Finish.asksRetry,
      Finish.status, Finish.row?, Bool.and_true]
    rw [ite_or]

/-- An event that is being run has settled once all actions of the run are performed. -/
theorem postAll_settles (h : x.status = .processing) (e : Event)
    (calls : List (LogLevel × String)) (cut : Option (LogLevel × String)) (finish : Finish) :
    postAll p.grace
        ((calls.foldl (Account.log p.grace)
          { x with rows := x.rows ++ [openingRow e.tag] }).withRow? cut)
        (finish.actions p e) =
      x.settledWithCut p e calls cut finish := by
  rw [Account.foldl_log_of_processing (by exact h), postAll_finish]
  · unfold Account.withRow? Account.settledWithCut Account.settled Finish.countsRetry
    dsimp only
    generalize hasFatal calls = fails
    generalize errsFirst calls = errs
    cases fails <;> cases errs <;> simp
  · unfold Account.CanFail Account.withRow?
    dsimp only
    generalize hasFatal calls = fails
    generalize errsFirst calls = errs
    cases fails <;> cases errs <;> simp

end Finish

/-! ## Plays that are cut off -/

/-- The call of the logger that a deed is. -/
def Deed.logged? : Deed → Option (LogLevel × String)
  | log level message => some (level, message)
  | narrate _ => none
  | sleep _ => none
  | pass _ => none

/-- The calls of the logger that deeds make, in order. -/
def loggedBy (deeds : List Deed) : List (LogLevel × String) := deeds.filterMap Deed.logged?

/-- How the call of a handler is over that may take so many milliseconds, if so many pass. -/
def Play.finishAfter (play : Play) (limit time : Nat) : Finish :=
  if time < limit then .ended play.ending else .outOfTime

/-- The calls of the logger that a handler makes until its call is over: those of all its deeds if
it ends by itself, and those of the deeds that it has done if it is out of time. -/
def Play.Logs (play : Play) (calls : List (LogLevel × String)) : Finish → Prop
  | .ended _ => calls = loggedBy play.deeds
  | .outOfTime => ∃ done, calls = loggedBy (play.deeds.take done)

/-- After these calls of the logger the handler is out of time within the next one, of which the
row is written.  A remark has no more to it than its row. -/
def Play.CutsOff (play : Play) (calls : List (LogLevel × String)) (row : LogLevel × String) :
    Prop :=
  ∃ done, calls = loggedBy (play.deeds.take done) ∧
    play.deeds[done]? = some (.log row.1 row.2) ∧ row.1 ≠ .info

/-- The calls of the logger that a handler makes until its call is over, and the row of one more
if it was cut off after that. -/
def Play.LogsUntil (play : Play) (calls : List (LogLevel × String)) :
    Option (LogLevel × String) → Finish → Prop
  | none, finish => play.Logs calls finish
  | some row, finish => finish = .outOfTime ∧ play.CutsOff calls row

/-- The action completes a call of the logger whose row is written. -/
def Action.completesCall : Action → Bool
  | .returnAfterError | .markFailed => true
  | _ => false

/-- A call of the logger was begun, and its row is written. -/
def startsWithin (todo : List Action) : Bool := todo.head?.any Action.completesCall

section Cut

variable {grace : Duration} {e : Event} {deed : Deed} {deeds : List Deed} {made rest : List Action}

theorem loggedBy_cons (deed : Deed) (rest : List Deed) :
    loggedBy (deed :: rest) = deed.logged?.toList ++ loggedBy rest := by
  unfold loggedBy
  rw [List.filterMap_cons]
  cases deed.logged? <;> rfl

theorem postAll_append (grace : Duration) (x : Account) (todo more : List Action) :
    postAll grace x (todo ++ more) = postAll grace (postAll grace x todo) more :=
  List.foldl_append

theorem postAll_deed (grace : Duration) (e : Event) (x : Account) (deed : Deed) :
    postAll grace x (deed.actions e) = deed.logged?.toList.foldl (Account.log grace) x := by
  cases deed with
  | log level message => exact postAll_logActions grace x e level message
  | narrate | sleep | pass => rfl

theorem postAll_deeds (grace : Duration) (e : Event) (x : Account) (deeds : List Deed) :
    postAll grace x (deeds.flatMap (Deed.actions e)) =
      (loggedBy deeds).foldl (Account.log grace) x := by
  induction deeds generalizing x with
  | nil => rfl
  | cons deed rest ih =>
    rw [List.flatMap_cons, postAll_append, postAll_deed, ih, loggedBy_cons, List.foldl_append]

/-- The actions of deeds are cut off after the first deed, or within it. -/
theorem split_flatMap (h : made ++ rest = (deed :: deeds).flatMap (Deed.actions e)) :
    (∃ later, made = deed.actions e ++ later ∧
      later ++ rest = deeds.flatMap (Deed.actions e)) ∨
    ∃ next left, made ++ next :: left = deed.actions e ∧
      rest = next :: left ++ deeds.flatMap (Deed.actions e) := by
  rw [List.flatMap_cons, List.append_eq_append_iff] at h
  rcases h with ⟨left, hdeed, hrest⟩ | ⟨later, hmade, hrest⟩
  · cases left with
    | nil => exact Or.inl ⟨[], by simpa using hdeed.symm, hrest⟩
    | cons next left => exact Or.inr ⟨next, left, hdeed.symm, hrest⟩
  · exact Or.inl ⟨later, hmade, hrest.symm⟩

/-- Deeds start with no call that was begun before. -/
theorem startsWithin_flatMap (e : Event) (deeds : List Deed) :
    startsWithin (deeds.flatMap (Deed.actions e)) = false := by
  cases deeds with
  | nil => rfl
  | cons deed rest => cases deed <;> rfl

/-- The action keeps the handler from going on. -/
def Action.pauses : Action → Bool
  | .sleep _ | .pass _ => true
  | _ => false

/-- After a pause there is no call that was begun before. -/
theorem startsWithin_of_pauses {action : Action} (hpauses : action.pauses = true)
    (h : made ++ action :: rest = deeds.flatMap (Deed.actions e)) : startsWithin rest = false := by
  induction deeds generalizing made with
  | nil => simp at h
  | cons deed deeds ih =>
    rcases split_flatMap h with ⟨later, -, hrest⟩ | ⟨next, left, hdeed, hrest⟩
    · exact ih hrest
    · obtain ⟨rfl, hleft⟩ := List.cons.inj hrest
      have hmem : action ∈ deed.actions e := by
        rw [← hdeed]
        exact List.mem_append_right _ List.mem_cons_self
      have hlength := congrArg List.length hdeed
      cases deed with
      | log level message =>
        cases action with
        | sleep | pass => cases level <;> simp [Deed.actions, logActions] at hmem
        | _ => cases hpauses
      | narrate | sleep | pass =>
        simp only [Deed.actions, List.length_append, List.length_cons, List.length_nil] at hlength
        obtain rfl : left = [] := List.length_eq_zero_iff.1 (by omega)
        rw [hleft]
        exact startsWithin_flatMap e deeds

/-- A deed that is not over has made no call, or one of which the row alone is there. -/
theorem cut_of_deed {next : Action} (h : made ++ next :: rest = deed.actions e) :
    (∀ x, postAll grace x made = x) ∨
      ∃ level message, deed = .log level message ∧ level ≠ .info ∧ next.completesCall = true ∧
        ∀ x, postAll grace x made = x.withRow? (some (level, message)) := by
  cases deed with
  | narrate | sleep | pass =>
    obtain rfl : made = [] := by
      have hlength := congrArg List.length h
      simp only [Deed.actions, List.length_append, List.length_cons, List.length_nil] at hlength
      exact List.length_eq_zero_iff.1 (by omega)
    exact Or.inl fun _ => rfl
  | log level message =>
    -- Before the last action there are what is told and the row.
    cases made with
    | nil => exact Or.inl fun _ => rfl
    | cons first made =>
      obtain ⟨rfl, hmore⟩ := List.cons.inj h
      cases made with
      | nil => exact Or.inl fun _ => rfl
      | cons second more =>
        obtain ⟨rfl, hlast⟩ := List.cons.inj hmore
        cases level with
        | info => simp at hlast
        | error | fatal =>
          cases more with
          | nil =>
            obtain ⟨rfl, -⟩ := List.cons.inj hlast
            exact Or.inr ⟨_, message, rfl, by decide, rfl, fun _ => rfl⟩
          | cons third more => simp at hlast

/-- Wherever the actions of deeds are cut off, some of the deeds were done, and at most one more
of which the row alone is there. -/
theorem exists_take_of_made (grace : Duration)
    (h : made ++ rest = deeds.flatMap (Deed.actions e)) :
    ∃ done cut,
      (∀ row, cut = some row →
        deeds[done]? = some (.log row.1 row.2) ∧ row.1 ≠ .info ∧ startsWithin rest = true) ∧
      ∀ x, postAll grace x made =
        ((loggedBy (deeds.take done)).foldl (Account.log grace) x).withRow? cut := by
  induction deeds generalizing made with
  | nil =>
    obtain ⟨rfl, -⟩ := List.append_eq_nil_iff.1 h
    exact ⟨0, none, nofun, fun x => x.withRow?_none.symm⟩
  | cons deed deeds ih =>
    rcases split_flatMap h with ⟨later, rfl, hrest⟩ | ⟨next, left, hdeed, rfl⟩
    · obtain ⟨done, cut, hcut, hpost⟩ := ih hrest
      refine ⟨done + 1, cut, hcut, fun x => ?_⟩
      rw [postAll_append, postAll_deed, hpost, List.take_succ_cons, loggedBy_cons,
        List.foldl_append]
    · rcases cut_of_deed hdeed with hpost | ⟨level, message, rfl, hlevel, hnext, hpost⟩
      · exact ⟨0, none, nofun, fun x => (hpost x).trans x.withRow?_none.symm⟩
      · refine ⟨0, some (level, message), ?_, hpost⟩
        rintro row ⟨⟩
        exact ⟨rfl, hlevel, hnext⟩

/-- A play that is cut off has made some of its calls, and perhaps written the row of one more. -/
theorem logsUntil_of_made {play : Play} (grace : Duration)
    (h : made ++ rest = play.deeds.flatMap (Deed.actions e)) :
    ∃ calls cut, play.LogsUntil calls cut .outOfTime ∧
      (startsWithin rest = false → cut = none) ∧
      ∀ x, postAll grace x made = (calls.foldl (Account.log grace) x).withRow? cut := by
  obtain ⟨done, cut, hcut, hpost⟩ := exists_take_of_made grace h
  cases cut with
  | none => exact ⟨_, none, ⟨done, rfl⟩, fun _ => rfl, hpost⟩
  | some row =>
    obtain ⟨hdeed, hlevel, hwithin⟩ := hcut row rfl
    refine ⟨_, some row, ⟨rfl, done, rfl, hdeed, hlevel⟩, fun hbetween => ?_, hpost⟩
    rw [hwithin] at hbetween
    cases hbetween

end Cut

end EventDispatch
