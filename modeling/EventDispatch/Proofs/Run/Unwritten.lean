import EventDispatch.Proofs.Run.Budget

/-!
# Rows that cannot be written

**Input.** A service whose workers go on, in any order and with any handlers, and for each try
to write a row whether it fails.  Every other call of the store is within reach.

**Algorithm.** Two runs make the same moves: in one of them rows are lost, in the other none is
(`Service.toil`).

**Invariant.** The two services are the same but for the rows and for what was told
(`Service.veiled`), because nobody looks at what became of a row.

**Results.** `rows_alone_are_lost`: the same moves are possible, all events are the same, and of
the rows just those are missing that could not be written.
-/

namespace EventDispatch

/-- Rows are lost or not, and nothing else stands between a caller and the store. -/
def Access.losingRows (lost : Bool) : Access := ⟨true, if lost then [.appendLog] else [], false⟩

/-! ## Calls and rows -/

/-- The row that an action writes. -/
def Action.row? (clock : Instant) (id : Uuid) (e : Event) : Action → Option LogRow
  | .append level message => some ⟨id, e.id, level, message, clock⟩
  | _ => none

/-- The rows of an action are those of its call. -/
theorem Action.toList_row? (p : Policy) (clock : Instant) (id : Uuid) (e : Event)
    (action : Action) :
    (action.row? clock id e).toList =
      ((action.call? p clock id e).map Store.Call.written).getD [] := by
  cases action <;> rfl

/-- No call looks at the rows. -/
theorem Store.after_trail (s : Store) (trail : List LogRow) (call : Store.Call) :
    Store.after ⟨s.events, trail⟩ call = ⟨(s.after call).events, trail ++ call.written⟩ := by
  have hfind (id : Uuid) : Store.find? ⟨s.events, trail⟩ id = s.find? id := rfl
  have hbusy (id : Uuid) (key : Key) : Store.isBusy ⟨s.events, trail⟩ id key = s.isBusy id key :=
    rfl
  cases call with
  | append row => rfl
  | insert id now e =>
    simp only [after, Call.written, List.append_nil]
    split <;> rfl
  | claim clock id =>
    simp only [after, claim?, hfind, hbusy, Call.written, List.append_nil]
    cases s.find? id with
    | none => rfl
    | some target =>
      dsimp only
      split <;> rfl
  | setStatus clock id status =>
    simp only [after, settle?, hfind, Call.written, List.append_nil]
    cases s.find? id with
    | none => rfl
    | some target =>
      dsimp only
      split <;> rfl
  | retry clock id extension =>
    simp only [after, retry?, hfind, Call.written, List.append_nil]
    cases s.find? id with
    | none => rfl
    | some target =>
      dsimp only
      split <;> rfl
  | resetProcessing | resetStale =>
    simp only [Call.written, List.append_nil]
    rfl

/-- Where rows are lost, everything but writing one is done. -/
theorem Action.perform_losingRows {p : Policy} {s : Store} {clock : Instant} {id : Uuid} {e : Event}
    {action : Action} (h : ∀ level message, action ≠ .append level message) (lost : Bool) :
    action.perform p (.losingRows lost) s clock id e =
      action.perform p .unhindered s clock id e := by
  cases lost with
  | false => rfl
  | true =>
    cases action with
    | append level message => exact absurd rfl (h level message)
    | _ => rfl

/-! ## Steps that are taken together -/

section Together

variable {α β γ δ : Type} {R : α → β → Prop} {S : γ → δ → Prop} {x : Option α} {x' : Option β}

theorem rel_mono {R' : α → β → Prop} (h : Option.Rel R x x') (hmore : ∀ a b, R a b → R' a b) :
    Option.Rel R' x x' := by
  cases h with
  | none => exact .none
  | some hrel => exact .some (hmore _ _ hrel)

/-- Of two steps neither is possible, or both are and lead to related results. -/
theorem rel_map {f : α → γ} {f' : β → δ} (h : Option.Rel R x x')
    (hresult : ∀ a b, R a b → S (f a) (f' b)) : Option.Rel S (x.map f) (x'.map f') := by
  cases h with
  | none => exact .none
  | some hrel => exact .some (hresult _ _ hrel)

/-- Runs that take a step together and go on together are together to the end. -/
theorem rel_bind {f : α → Option γ} {f' : β → Option δ} (h : Option.Rel R x x')
    (hrest : ∀ a b, R a b → Option.Rel S (f a) (f' b)) :
    Option.Rel S (x.bind f) (x'.bind f') := by
  cases h with
  | none => exact .none
  | some hrel => exact hrest _ _ hrel

end Together

/-! ## A step of a worker -/

namespace Dispatcher

variable {d d₁ d₁' : Dispatcher} {lost : Bool} {trail : List LogRow} {journal : List Trace}

/-- The dispatcher with other rows and another journal, where rows are lost or not. -/
def veiled (d : Dispatcher) (lost : Bool) (trail : List LogRow) (journal : List Trace) :
    Dispatcher :=
  { d with access := .losingRows lost, store := ⟨d.store.events, trail⟩, journal }

/-- Of two steps, the first from `d` with nothing in the way, the second does the same but for what
was told, and for the row, if there is one, that is lost. -/
def Echoes (lost : Bool) (trail : List LogRow) (d d₁ d₁' : Dispatcher) : Prop :=
  ∃ (row? : Option LogRow) (journal : List Trace),
    d₁.store.trail = d.store.trail ++ row?.toList ∧
      d₁' = d₁.veiled lost (trail ++ if lost then [] else row?.toList) journal

/-- A step that leaves the store as it is writes no row. -/
theorem Echoes.of_store (hstore : d₁.store = d.store)
    (hveiled : d₁' = d₁.veiled lost trail journal) : Echoes lost trail d d₁ d₁' := by
  refine ⟨none, journal, ?_, ?_⟩
  · rw [hstore]
    exact (List.append_nil _).symm
  · rw [hveiled]
    simp

/-- What an action leaves where no row is lost, whatever rows there are. -/
theorem store_performUnder_veiled (p : Policy) (e : Event) (action : Action)
    (haccess : d.access = .unhindered) :
    ((d.veiled false trail journal).performUnder p e action).store =
      ⟨(d.performUnder p e action).store.events,
        trail ++ (action.row? d.now d.nextId e).toList⟩ := by
  have hopen : (d.veiled false trail journal).access = .unhindered := rfl
  rw [store_performUnder haccess, store_performUnder hopen, Action.toList_row? p]
  change ((action.call? p d.now d.nextId e).map
    (Store.after ⟨d.store.events, trail⟩)).getD ⟨d.store.events, trail⟩ = _
  cases action.call? p d.now d.nextId e with
  | none => exact congrArg (Store.mk _) (List.append_nil _).symm
  | some call => exact Store.after_trail d.store trail call

/-- A lost row is all that an action may fail to do. -/
theorem echoes_performUnder (haccess : d.access = .unhindered) (p : Policy) (e : Event)
    (action : Action) :
    Echoes lost trail d (d.performUnder p e action)
      ((d.veiled lost trail journal).performUnder p e action) := by
  have hstore : ((d.veiled lost trail journal).performUnder p e action).store =
      ⟨(d.performUnder p e action).store.events,
        trail ++ if lost then [] else (action.row? d.now d.nextId e).toList⟩ := by
    cases lost with
    | false => exact store_performUnder_veiled p e action haccess
    | true =>
      by_cases happend : ∃ level message, action = .append level message
      · obtain ⟨level, message, rfl⟩ := happend
        rw [store_performUnder haccess]
        exact congrArg (Store.mk _) (List.append_nil _).symm
      · have hsame : ((d.veiled true trail journal).performUnder p e action).store =
            ((d.veiled false trail journal).performUnder p e action).store :=
          congrArg Effect.store (Action.perform_losingRows
            (fun level message h => happend ⟨level, message, h⟩) true)
        have hnone : action.row? d.now d.nextId e = none := by
          cases action with
          | append level message => exact absurd ⟨level, message, rfl⟩ happend
          | _ => rfl
        rw [hsame, store_performUnder_veiled p e action haccess, hnone]
        rfl
  refine ⟨action.row? d.now d.nextId e,
    ((d.veiled lost trail journal).performUnder p e action).journal, ?_, ?_⟩
  · rw [store_performUnder haccess, Action.toList_row? p]
    cases action.call? p d.now d.nextId e with
    | none => exact (List.append_nil _).symm
    | some call => exact d.store.trail_after call
  · calc (d.veiled lost trail journal).performUnder p e action
      _ = { (d.performUnder p e action).veiled lost trail
            ((d.veiled lost trail journal).performUnder p e action).journal with
          store := ((d.veiled lost trail journal).performUnder p e action).store } := rfl
      _ = _ := by rw [hstore]; rfl

theorem rel_handlingStep (lost : Bool) (trail : List LogRow) (journal : List Trace)
    (haccess : d.access = .unhindered) (e : Event) (todo : List Action) (ending : Ending)
    (pause : Pause) (limit : Nat) :
    Option.Rel (fun x x' => Echoes lost trail d x.1 x'.1 ∧ x'.2 = x.2)
      (d.handlingStep e todo ending pause limit)
      ((d.veiled lost trail journal).handlingStep e todo ending pause limit) := by
  have hsame (d₁ : Dispatcher) (hstore : d₁.store = d.store) :
      Echoes lost trail d d₁ (d₁.veiled lost trail journal) := .of_store hstore rfl
  unfold handlingStep
  change Option.Rel _ _ (if limit ≤ d.uptime then _ else _)
  split
  · exact .some ⟨hsame _ rfl, rfl⟩
  · cases pause with
    | asleep wake =>
      dsimp only
      change Option.Rel _ _ (if wake ≤ d.uptime then _ else _)
      split
      · exact .some ⟨hsame d rfl, rfl⟩
      · exact .none
    | atGate gate ticket =>
      dsimp only
      change Option.Rel _ _ (if d.isLetThrough gate ticket = true then _ else _)
      split
      · exact .some ⟨hsame _ rfl, rfl⟩
      · exact .none
    | none =>
      cases todo with
      | nil => exact .some ⟨hsame d rfl, rfl⟩
      | cons action rest =>
        cases action with
        | sleep milliseconds => exact .some ⟨hsame _ rfl, rfl⟩
        | pass gate => exact .some ⟨hsame _ rfl, rfl⟩
        | _ => exact .some ⟨echoes_performUnder haccess _ e _, rfl⟩

theorem rel_workerStep (lost : Bool) (trail : List LogRow) (journal : List Trace)
    (haccess : d.access = .unhindered) (w : Worker) :
    Option.Rel (fun x x' => Echoes lost trail d x.1 x'.1 ∧ x'.2 = x.2)
      (d.workerStep w) ((d.veiled lost trail journal).workerStep w) := by
  unfold workerStep
  cases w.stage with
  | queued =>
    dsimp only
    change Option.Rel _ _ (if d.hasFreePermit = true then _ else _)
    split
    · exact .some ⟨.of_store rfl rfl, rfl⟩
    · exact .none
  | opening todo =>
    cases todo with
    | nil =>
      refine .some ?_
      unfold beginCall
      dsimp only
      split
      · exact ⟨.of_store rfl rfl, rfl⟩
      · exact ⟨.of_store rfl rfl, rfl⟩
    | cons action rest => exact .some ⟨echoes_performUnder haccess _ w.event action, rfl⟩
  | handling todo ending pause limit =>
    refine rel_map (rel_handlingStep lost trail journal haccess w.event todo ending pause limit) ?_
    exact fun _ _ hstep => ⟨hstep.1, congrArg some hstep.2⟩
  | closing todo =>
    cases todo with
    | nil => exact .some ⟨.of_store rfl rfl, rfl⟩
    | cons action rest => exact .some ⟨echoes_performUnder haccess _ w.event action, rfl⟩

theorem rel_workOn? (lost : Bool) (trail : List LogRow) (journal : List Trace)
    (haccess : d.access = .unhindered) (serial : Nat) :
    Option.Rel (Echoes lost trail d) (d.workOn? serial)
      ((d.veiled lost trail journal).workOn? serial) := by
  unfold workOn?
  have hworkers : (d.veiled lost trail journal).workers = d.workers := rfl
  rw [hworkers]
  cases d.workers.find? fun w => w.serial = serial with
  | none => exact .none
  | some w =>
    have h := rel_workerStep lost trail journal haccess w
    dsimp only
    generalize d.workerStep w = x at h
    generalize (d.veiled lost trail journal).workerStep w = x' at h
    cases h with
    | none => exact .none
    | @some x x' hstep =>
      obtain ⟨d₁, _⟩ := x
      obtain ⟨d₁', stage?⟩ := x'
      obtain ⟨⟨row?, journal', htrail, (rfl : d₁' = _)⟩, (rfl : stage? = _)⟩ := hstep
      cases stage? with
      | none => exact .some ⟨row?, journal', htrail, rfl⟩
      | some stage => exact .some ⟨row?, journal', htrail, rfl⟩

end Dispatcher

/-! ## Runs -/

/-- Whether a move is one of a worker, of a handler that was told to stop, of one who kept a logger,
or of a clock or gate. -/
def Move.isToil : Move → Bool
  | .work _ | .act .. | .elapse _ | .setClock _ | .release .. | .vanish _ => true
  | _ => false

namespace Service

/-- The service where rows are lost or not, and nothing else is in the way. -/
def losing (lost : Bool) (s : Service) : Service :=
  { s with dispatcher := { s.dispatcher with access := .losingRows lost } }

/-- Whether a move tries to write a row. -/
def triesRow (s : Service) (m : Move) : Bool :=
  ((s.losing false).after? m).any fun t =>
    s.dispatcher.store.trail.length < t.dispatcher.store.trail.length

/-- Lets workers go on, where the tries to write a row are counted from `n` on, and the try of a
number fails if `fails` says so. -/
def toil (fails : Nat → Bool) : Nat → Service → List Move → Option Service
  | _, s, [] => some s
  | n, s, m :: rest =>
    if m.isToil then
      ((s.losing (fails n)).after? m).bind
        (toil fails (if s.triesRow m then n + 1 else n) · rest)
    else none

/-- The rows, numbered from `n` on, that do not fail. -/
def kept (fails : Nat → Bool) (n : Nat) (rows : List LogRow) : List LogRow :=
  ((rows.zipIdx n).filter fun row => !fails row.2).map Prod.fst

example (first second third : LogRow) : kept (· == 1) 0 [first, second, third] = [first, third] :=
  rfl

theorem kept_append (fails : Nat → Bool) (n : Nat) (rows more : List LogRow) :
    kept fails n (rows ++ more) = kept fails n rows ++ kept fails (n + rows.length) more := by
  simp only [kept, List.zipIdx_append, List.filter_append, List.map_append]

theorem kept_toList (fails : Nat → Bool) (n : Nat) (row? : Option LogRow) :
    kept fails n row?.toList = if fails n then [] else row?.toList := by
  cases row? <;> cases h : fails n <;> simp [kept, h]

/-- The service with other rows and another journal, where rows are lost or not. -/
def veiled (s : Service) (lost : Bool) (trail : List LogRow) (journal : List Trace) : Service :=
  { s with dispatcher := s.dispatcher.veiled lost trail journal }

variable {s : Service} {lost : Bool} {trail : List LogRow} {journal : List Trace}

/-- A move of two services that are the same but for their rows. -/
theorem rel_after? (lost : Bool) (trail : List LogRow) (journal : List Trace)
    (haccess : s.dispatcher.access = .unhindered) {m : Move} (hm : m.isToil = true) :
    Option.Rel
      (fun t t' => ∃ d', Dispatcher.Echoes lost trail s.dispatcher t.dispatcher d' ∧
        t' = { t with dispatcher := d' })
      (s.after? m) ((s.veiled lost trail journal).after? m) := by
  cases m with
  | work serial =>
    exact rel_map (Dispatcher.rel_workOn? lost trail journal haccess serial)
      fun _ d' hecho => ⟨d', hecho, rfl⟩
  | act p e action => exact .some ⟨_, Dispatcher.echoes_performUnder haccess p e action, rfl⟩
  | elapse | setClock | release | vanish =>
    exact .some ⟨_, Dispatcher.Echoes.of_store rfl rfl, rfl⟩
  | _ => cases hm

/-- A row is tried exactly where the other service tries one. -/
theorem triesRow_veiled {m : Move} (hm : m.isToil = true) :
    (s.veiled lost trail journal).triesRow m = s.triesRow m := by
  have h := rel_after? false trail journal (rfl : (s.losing false).dispatcher.access = _) hm
  unfold triesRow
  change (((s.losing false).veiled false trail journal).after? m).any _ = _
  generalize (s.losing false).after? m = x at h
  generalize ((s.losing false).veiled false trail journal).after? m = x' at h
  cases h with
  | none => rfl
  | some hecho =>
    obtain ⟨d', ⟨row?, journal', htrail, rfl⟩, rfl⟩ := hecho
    simp only [Option.any_some, htrail]
    simp [losing, veiled, Dispatcher.veiled]

/-- A move in a run and in the other: a row is tried if there is one, and then the other service
loses it or not. -/
theorem rel_toilStep (lost' : Bool) {m : Move} (hm : m.isToil = true) :
    Option.Rel
      (fun t t' => ∃ (row? : Option LogRow) (journal' : List Trace),
        s.triesRow m = row?.isSome ∧
          t.dispatcher.store.trail = s.dispatcher.store.trail ++ row?.toList ∧
            t' = t.veiled lost' (trail ++ if lost' then [] else row?.toList) journal')
      ((s.losing false).after? m) (((s.veiled lost trail journal).losing lost').after? m) := by
  have h := rel_after? lost' trail journal (rfl : (s.losing false).dispatcher.access = _) hm
  change Option.Rel _ _ (((s.losing false).veiled lost' trail journal).after? m)
  unfold triesRow
  generalize (s.losing false).after? m = x at h
  generalize ((s.losing false).veiled lost' trail journal).after? m = x' at h
  cases h with
  | none => exact .none
  | some hecho =>
    obtain ⟨d', ⟨row?, journal', htrail, rfl⟩, rfl⟩ := hecho
    refine .some ⟨row?, journal', ?_, htrail, rfl⟩
    rw [Option.any_some, htrail]
    cases row? <;> simp [losing]

/-- Two services that are the same but for their rows go through the same run, and of the rows that
the first writes the second writes those that do not fail. -/
theorem rel_toil (fails : Nat → Bool) (moves : List Move) (k n : Nat) (s : Service) (lost : Bool)
    (trail : List LogRow) (journal : List Trace) :
    Option.Rel
      (fun t t' => ∃ rows, t.dispatcher.store.trail = s.dispatcher.store.trail ++ rows ∧
        t'.dispatcher.store = ⟨t.dispatcher.store.events, trail ++ kept fails n rows⟩)
      (toil (fun _ => false) k s moves)
      (toil fails n (s.veiled lost trail journal) moves) := by
  induction moves generalizing k n s lost trail journal with
  | nil => exact .some ⟨[], (List.append_nil _).symm, by simp [kept, veiled, Dispatcher.veiled]⟩
  | cons m rest ih =>
    simp only [toil]
    split
    · next hm =>
      rw [triesRow_veiled hm]
      refine rel_bind (rel_toilStep (fails n) hm) fun t t' hstep => ?_
      obtain ⟨row?, journal', htries, htrail, rfl⟩ := hstep
      have hcount : (if s.triesRow m then n + 1 else n) = n + row?.toList.length := by
        rw [htries]
        cases row? <;> rfl
      rw [hcount]
      refine rel_mono (ih _ _ t _ _ journal') fun u u' hrun => ?_
      obtain ⟨rows, hrows, hstore⟩ := hrun
      refine ⟨row?.toList ++ rows, ?_, ?_⟩
      · rw [hrows, htrail, List.append_assoc]
      · rw [hstore, kept_append, kept_toList, List.append_assoc]
    · exact .none

/-- **Rows alone are lost**: whichever tries to write a row fail, workers go on as if none did.
The same moves are possible, every event is the same, and of the rows those are missing whose try
failed. -/
theorem rows_alone_are_lost (fails : Nat → Bool) (s : Service) (moves : List Move) :
    (toil fails 0 s moves).map (·.dispatcher.store) =
      (toil (fun _ => false) 0 s moves).map fun t =>
        ⟨t.dispatcher.store.events, s.dispatcher.store.trail ++
          kept fails 0 (t.dispatcher.store.trail.drop s.dispatcher.store.trail.length)⟩ := by
  -- without a move the two runs differ in how the store is reached, which no row shows
  have hstart : (toil fails 0 s moves).map (·.dispatcher.store) =
      (toil fails 0 (s.losing false) moves).map (·.dispatcher.store) := by
    cases moves <;> rfl
  have h := rel_toil fails moves 0 0 s false s.dispatcher.store.trail s.dispatcher.journal
  rw [hstart]
  change Option.Rel _ _ (toil fails 0 (s.losing false) moves) at h
  generalize toil (fun _ => false) 0 s moves = x at h
  generalize toil fails 0 (s.losing false) moves = x' at h
  cases h with
  | none => rfl
  | some hruns =>
    obtain ⟨rows, hrows, hstore⟩ := hruns
    simp only [Option.map_some, hstore, hrows, List.drop_left]

end Service

end EventDispatch
