import EventDispatch.Proofs.Run.Core
import Mathlib

/-!
# The lead gates every cycle

**Input.** The cycles of one dispatcher, one after the other.  Between two of its steps
everything about the dispatcher may change but whether it leads: the election changes its
answer, operations of the store fail and work again, workers and callers go on.

**Algorithm.** A `Recording` keeps, next to the dispatcher, what its cycles asked of the
election and of the store and what was answered.  It makes the same steps as the
dispatcher (`Recording.cycle_erased`), each request through one of four functions that
note it.  What a cycle notes accounts for all that became of the store and for all workers
that were started; it begins with the question who leads, which is asked once, and is
nothing but that question if the answer is not that this instance does
(`Recording.notes_cycle`).

**Invariant.** Whether the dispatcher leads can be read off the exchanges: a reset that
worked takes the lead, an answer that somebody else leads gives it up, and nothing else
changes it (`Recording.Led`).

**Results.** `Recording.lead_gates_cycles`: a listing or a claim follows an answer of its
own cycle that this instance leads; between two answers that it does not, nothing is
claimed before a reset has worked, and nothing is reset after that; a cycle that fails
starts no worker.  The loop of a service runs such cycles, whatever else happens between
its steps, so the same holds in every run of the service (`Observed.lead_gates_loop`).
-/

namespace EventDispatch

/-- What a cycle asks of the election or of the store, with the answer. -/
inductive Exchange where
  | asked (answer : Except ElectionError Bool)
  | reset (answer : Except StoreError Nat)
  | listed (answer : Except StoreError (List Event))
  | claimed (id : Uuid) (answer : Except StoreError Bool)

namespace Exchange

/-- The answer of the election, if it was asked. -/
def election? : Exchange → Option (Except ElectionError Bool)
  | asked answer => some answer
  | _ => none

def isReset : Exchange → Bool
  | reset _ => true
  | _ => false

def isListing : Exchange → Bool
  | listed _ => true
  | _ => false

def isClaim : Exchange → Bool
  | claimed _ _ => true
  | _ => false

/-- Whether it is a reset that worked. -/
def hasReset : Exchange → Bool
  | reset (.ok _) => true
  | _ => false

def isGranted : Exchange → Bool
  | claimed _ (.ok true) => true
  | _ => false

/-- The call that changed the store, if there was one. -/
def call? (clock : Instant) : Exchange → Option Store.Call
  | reset (.ok _) => some (.resetProcessing clock)
  | claimed id (.ok true) => some (.claim clock id)
  | _ => none

/-- Whether the one who asked leads afterwards. -/
def leads (leading : Bool) : Exchange → Bool
  | asked (.ok false) => false
  | reset (.ok _) => true
  | _ => leading

/-- Whether the one who asked all this leads afterwards; it did not at the start. -/
def leadAfter (exchanges : List Exchange) : Bool := exchanges.foldl leads false

/-- The last answer of the election. -/
def lastElection? (exchanges : List Exchange) : Option (Except ElectionError Bool) :=
  (exchanges.filterMap election?).getLast?

@[simp] theorem leadAfter_concat (exchanges : List Exchange) (x : Exchange) :
    leadAfter (exchanges ++ [x]) = x.leads (leadAfter exchanges) := by
  simp [leadAfter]

@[simp] theorem lastElection?_concat (exchanges : List Exchange) (x : Exchange) :
    lastElection? (exchanges ++ [x]) = x.election?.or (lastElection? exchanges) := by
  cases h : x.election? <;> simp [lastElection?, List.filterMap_append, h]

/-- What may be asked after the exchanges so far: resets by whoever is about to take the
lead, listings and claims by whoever has it. -/
def Fits (before : List Exchange) : Exchange → Prop
  | asked _ => True
  | reset _ => lastElection? before = some (.ok true) ∧ leadAfter before = false
  | listed _ | claimed _ _ => lastElection? before = some (.ok true) ∧ leadAfter before = true

/-- Exchanges in a row without an answer that somebody else leads; before the first of
them stands such an answer, or nothing. -/
structure Stretch (exchanges before stretch : List Exchange) : Prop where
  isPart : before ++ stretch <+: exchanges
  begins : before = [] ∨ ∃ earlier, before = earlier ++ [asked (.ok false)]
  keeps : asked (.ok false) ∉ stretch

/-- Without an answer that somebody else leads, only a reset changes who leads. -/
theorem foldl_leads_of_keeps {leading : Bool} {stretch : List Exchange}
    (hkeeps : asked (.ok false) ∉ stretch) :
    stretch.foldl leads leading = (leading || stretch.any hasReset) := by
  induction stretch generalizing leading with
  | nil => simp
  | cons x rest ih =>
    rw [List.mem_cons, not_or] at hkeeps
    rw [List.foldl_cons, ih hkeeps.2, List.any_cons]
    cases x with
    | asked answer =>
      cases answer with
      | error cause => simp [leads, hasReset]
      | ok leader =>
        cases leader with
        | false => exact absurd rfl hkeeps.1
        | true => simp [leads, hasReset]
    | reset answer => cases answer <;> simp [leads, hasReset]
    | listed answer | claimed id answer => simp [leads, hasReset]

theorem Stretch.leadAfter_before {exchanges before stretch : List Exchange}
    (h : Stretch exchanges before stretch) : leadAfter before = false := by
  rcases h.begins with rfl | ⟨earlier, rfl⟩
  · rfl
  · simp [leads]

/-- The exchanges of one cycle: it asks who leads first, and once, and asks for nothing else
if the answer is not that it does. -/
structure OfCycle (answer : Except ElectionError Bool) (noted : List Exchange) : Prop where
  asks : ∃ more, noted = asked answer :: more ∧ ∀ x ∈ more, x.election? = none
  stops : answer ≠ .ok true → noted = [asked answer]

theorem ofCycle_asked (answer : Except ElectionError Bool) : OfCycle answer [asked answer] :=
  ⟨⟨[], rfl, List.forall_mem_nil _⟩, fun _ => rfl⟩

/-- A cycle that was told that it leads may go on to ask the store. -/
theorem OfCycle.append {answer : Except ElectionError Bool} {noted more : List Exchange}
    (h : OfCycle answer noted) (hmore : ∀ x ∈ more, x.election? = none)
    (hlead : more ≠ [] → answer = .ok true) : OfCycle answer (noted ++ more) := by
  constructor
  · obtain ⟨first, rfl, hfirst⟩ := h.asks
    refine ⟨first ++ more, rfl, fun x hx => ?_⟩
    exact (List.mem_append.1 hx).elim (hfirst x) (hmore x)
  · intro hanswer
    have hnil : more = [] := by_contra fun hne => hanswer (hlead hne)
    rw [hnil, List.append_nil]
    exact h.stops hanswer

/-- What a sequence of cycles asked and was answered: whoever lists or claims was told in the
same cycle that it leads; in a stretch without an answer that it does not, nothing is claimed
before a reset has worked, and nothing is reset after that. -/
structure Gated (exchanges : List Exchange) : Prop where
  told : ∀ before x, before ++ [x] <+: exchanges → x.isListing = true ∨ x.isClaim = true →
    lastElection? before = some (.ok true)
  orderly : ∀ before stretch, Stretch exchanges before stretch →
    ∀ first x rest, stretch = first ++ x :: rest →
      (x.isClaim = true → ∃ y ∈ first, y.hasReset = true) ∧
      (x.isReset = true → ∀ y ∈ first, y.hasReset = false)

end Exchange

/-- A dispatcher, and what its cycles asked and were answered so far. -/
structure Recording where
  dispatcher : Dispatcher
  exchanges : List Exchange

namespace Recording

def note (r : Recording) (x : Exchange) : Recording := { r with exchanges := r.exchanges ++ [x] }

def change (r : Recording) (f : Dispatcher → Dispatcher) : Recording :=
  { r with dispatcher := f r.dispatcher }

/-! ## Requests -/

/-- Asks who leads. -/
def ask (r : Recording) : Except ElectionError Bool × Recording :=
  (r.dispatcher.election.answer, r.note (.asked r.dispatcher.election.answer))

/-- Has the events being run sent back to wait. -/
def reset (r : Recording) : Except StoreError Nat × Recording :=
  match r.dispatcher.access.resetProcessing r.dispatcher.store r.dispatcher.now with
  | .error cause => (.error cause, r.note (.reset (.error cause)))
  | .ok (count, store) =>
    (.ok count, (r.change fun d => { d with store }).note (.reset (.ok count)))

/-- Asks for the events to run. -/
def list (r : Recording) (filter : DispatchFilter) (now : Instant) :
    Except StoreError (List Event) × Recording :=
  let answer := r.dispatcher.access.listDispatchable r.dispatcher.store filter now
  (answer, r.note (.listed answer))

/-- Asks to run an event. -/
def claim (r : Recording) (id : Uuid) : Except StoreError Bool × Recording :=
  match r.dispatcher.access.claim r.dispatcher.store r.dispatcher.now id with
  | .error cause => (.error cause, r.note (.claimed id (.error cause)))
  | .ok (granted, store) =>
    (.ok granted, (r.change fun d => { d with store }).note (.claimed id (.ok granted)))

/-! ## Cycles made of requests -/

def checkLead (r : Recording) : Except DispatchError Bool × Recording :=
  match r.ask with
  | (.error cause, r) => (.error (.election cause), r)
  | (.ok true, r) =>
    if r.dispatcher.leading then (.ok true, r)
    else
      match r.reset with
      | (.error cause, r) => (.error (.store cause), r)
      | (.ok count, r) =>
        (.ok true, r.change fun d =>
          { d with leading := true }.tell (.info "Acquired leadership" [("reset", .number count)]))
  | (.ok false, r) =>
    if r.dispatcher.leading then
      (.ok false, r.change fun d => { d with leading := false }.tell (.info "Lost leadership" []))
    else (.ok false, r)

def openCycle (r : Recording) (paused : List EventClass) (now : Instant) :
    Except DispatchError (List Event) × Recording :=
  match r.checkLead with
  | (.error cause, r) => (.error cause, r)
  | (.ok false, r) => (.ok [], r)
  | (.ok true, r) =>
    match r.list (r.dispatcher.registry.filterFor paused) now with
    | (.error cause, r) => (.error (.store cause), r)
    | (.ok candidates, r) => (.ok candidates, r)

def startOne (r : Recording) (e : Event) : Bool × Recording :=
  let id := ("event_id", TraceValue.event e.id)
  let tag := ("event_type", TraceValue.text e.tag)
  match r.dispatcher.registry.find? e.tag with
  | none =>
    (false, r.change fun d => d.tell
      (.warn "No handler registered for event type, leaving event untouched" [id, tag]))
  | some entry =>
    match r.claim e.id with
    | (.error cause, r) =>
      (false, r.change fun d => d.tell
        (.error "Failed to claim event" [id, ("error", .text cause.message)]))
    | (.ok false, r) =>
      (false, r.change fun d => d.tell (.debug "Event claimed elsewhere, skipping" [id]))
    | (.ok true, r) =>
      (true, r.change fun d =>
        (d.tell (.debug "Dispatching event"
          [id, tag, ("owner", .text e.owner), ("retry_count", .number e.retryCount.toInt)])).spawn
            { e with status := .processing } entry.handler)

def startAll (r : Recording) : List Event → Nat × Recording
  | [] => (0, r)
  | e :: rest =>
    match r.startOne e with
    | (started, r') =>
      match startAll r' rest with
      | (count, r'') => ((if started then 1 else 0) + count, r'')

def cycle (r : Recording) (paused : List EventClass) (now : Instant) :
    Except DispatchError Nat × Recording :=
  match r.openCycle paused now with
  | (.error cause, r) => (.error cause, r)
  | (.ok candidates, r) =>
    match r.startAll candidates with
    | (count, r) => (.ok count, r)

/-! ## Recording changes nothing -/

/-- An outcome and the recording after it, without the exchanges. -/
def erased {α : Type} (x : α × Recording) : α × Dispatcher := (x.1, x.2.dispatcher)

theorem checkLead_erased (r : Recording) : erased r.checkLead = r.dispatcher.checkLead := by
  unfold checkLead Dispatcher.checkLead ask
  cases r.dispatcher.election.answer with
  | error cause => rfl
  | ok leader =>
    cases leader with
    | false =>
      dsimp only [note]
      split <;> rfl
    | true =>
      dsimp only [note, reset]
      split
      · rfl
      · cases r.dispatcher.access.resetProcessing r.dispatcher.store r.dispatcher.now <;> rfl

theorem openCycle_erased (r : Recording) (paused : List EventClass) (now : Instant) :
    erased (r.openCycle paused now) = r.dispatcher.openCycle paused now := by
  unfold openCycle Dispatcher.openCycle
  rw [← checkLead_erased]
  cases r.checkLead with
  | mk answer r' =>
    cases answer with
    | error cause => rfl
    | ok leader =>
      cases leader with
      | false => rfl
      | true =>
        dsimp only [erased, list, note]
        cases r'.dispatcher.access.listDispatchable r'.dispatcher.store
          (r'.dispatcher.registry.filterFor paused) now <;> rfl

theorem startOne_erased (r : Recording) (e : Event) :
    erased (r.startOne e) = r.dispatcher.startOne e := by
  unfold startOne Dispatcher.startOne claim
  dsimp only
  cases r.dispatcher.registry.find? e.tag with
  | none => rfl
  | some entry =>
    cases r.dispatcher.access.claim r.dispatcher.store r.dispatcher.now e.id with
    | error cause => rfl
    | ok answer =>
      obtain ⟨granted, store⟩ := answer
      cases granted <;> rfl

theorem startAll_erased (r : Recording) (events : List Event) :
    erased (r.startAll events) = r.dispatcher.startAll events := by
  induction events generalizing r with
  | nil => rfl
  | cons e rest ih =>
    have hone := r.startOne_erased e
    have hrest := ih (r.startOne e).2
    simp only [Dispatcher.startAll, ← hone]
    simp only [erased] at hrest ⊢
    rw [← hrest]
    rfl

/-- A recorded cycle is a cycle. -/
theorem cycle_erased (r : Recording) (paused : List EventClass) (now : Instant) :
    erased (r.cycle paused now) = r.dispatcher.cycle paused now := by
  unfold cycle Dispatcher.cycle
  rw [← openCycle_erased]
  cases r.openCycle paused now with
  | mk answer r' =>
    cases answer with
    | error cause => rfl
    | ok candidates =>
      dsimp only [erased]
      rw [← startAll_erased]
      rfl

/-! ## Nothing goes unrecorded -/

/-- From one recording to another these exchanges were noted, and they account for what
became of the store and for the workers that were started. -/
structure Notes (r : Recording) (noted : List Exchange) (r' : Recording) : Prop where
  now : r'.dispatcher.now = r.dispatcher.now
  exchanges : r'.exchanges = r.exchanges ++ noted
  store : r'.dispatcher.store =
    (noted.filterMap (Exchange.call? r.dispatcher.now)).foldl Store.after r.dispatcher.store
  started : r'.dispatcher.started = r.dispatcher.started + noted.countP Exchange.isGranted

theorem Notes.refl (r : Recording) : Notes r [] r := ⟨rfl, (List.append_nil _).symm, rfl, rfl⟩

theorem Notes.trans {r r' r'' : Recording} {noted noted' : List Exchange}
    (h : Notes r noted r') (h' : Notes r' noted' r'') : Notes r (noted ++ noted') r'' where
  now := h'.now.trans h.now
  exchanges := by rw [h'.exchanges, h.exchanges, List.append_assoc]
  store := by rw [h'.store, h.store, h.now, List.filterMap_append, List.foldl_append]
  started := by
    rw [h'.started, h.started, List.countP_append]
    omega

theorem notes_checkLead (r : Recording) :
    ∃ noted, Notes r noted r.checkLead.2 ∧ Exchange.OfCycle r.dispatcher.election.answer noted ∧
      (r.checkLead.1 = .ok true → r.dispatcher.election.answer = .ok true) := by
  have hasked := Exchange.ofCycle_asked r.dispatcher.election.answer
  unfold checkLead ask
  cases hanswer : r.dispatcher.election.answer with
  | error cause =>
    rw [hanswer] at hasked
    exact ⟨_, ⟨rfl, rfl, rfl, rfl⟩, hasked, nofun⟩
  | ok leader =>
    rw [hanswer] at hasked
    cases leader with
    | false =>
      dsimp only [note]
      split <;> exact ⟨_, ⟨rfl, rfl, rfl, rfl⟩, hasked, nofun⟩
    | true =>
      dsimp only [note]
      split
      · exact ⟨_, ⟨rfl, rfl, rfl, rfl⟩, hasked, fun _ => rfl⟩
      · dsimp only [reset]
        cases hreset : r.dispatcher.access.resetProcessing r.dispatcher.store
            r.dispatcher.now with
        | error cause =>
          refine ⟨_, ⟨rfl, List.append_assoc _ _ _, rfl, rfl⟩, hasked.append ?_ fun _ => rfl,
            fun _ => rfl⟩
          exact List.forall_mem_singleton.2 rfl
        | ok answer =>
          refine ⟨_, ⟨rfl, List.append_assoc _ _ _, ?_, rfl⟩, hasked.append ?_ fun _ => rfl,
            fun _ => rfl⟩
          · exact Access.store_of_resetProcessing hreset
          · exact List.forall_mem_singleton.2 rfl

theorem notes_openCycle (r : Recording) (paused : List EventClass) (now : Instant) :
    ∃ noted, Notes r noted (r.openCycle paused now).2 ∧
      Exchange.OfCycle r.dispatcher.election.answer noted ∧
      ∀ todo, (r.openCycle paused now).1 = .ok todo → todo ≠ [] →
        r.dispatcher.election.answer = .ok true := by
  obtain ⟨noted, hnoted, hcycle, htold⟩ := r.notes_checkLead
  unfold openCycle
  split <;> rename_i r₁ hlead <;> rw [hlead] at hnoted htold
  · exact ⟨noted, hnoted, hcycle, nofun⟩
  · refine ⟨noted, hnoted, hcycle, fun todo htodo hne => ?_⟩
    cases htodo
    exact absurd rfl hne
  · have hanswer := htold rfl
    obtain ⟨x, hlisted, hasks⟩ : ∃ x, Notes r₁ [x]
        (r₁.list (r₁.dispatcher.registry.filterFor paused) now).2 ∧ x.election? = none :=
      ⟨_, ⟨rfl, rfl, rfl, rfl⟩, rfl⟩
    refine ⟨noted ++ [x], hnoted.trans ?_,
      hcycle.append (List.forall_mem_singleton.2 hasks) fun _ => hanswer, fun _ _ _ => hanswer⟩
    split <;> rename_i hlist <;> rw [hlist] at hlisted <;> exact hlisted

theorem notes_startOne (r : Recording) (e : Event) :
    ∃ noted, Notes r noted (r.startOne e).2 ∧ ∀ x ∈ noted, x.election? = none := by
  unfold startOne claim
  dsimp only
  cases r.dispatcher.registry.find? e.tag with
  | none => exact ⟨[], ⟨rfl, (List.append_nil _).symm, rfl, rfl⟩, List.forall_mem_nil _⟩
  | some entry =>
    cases hclaim : r.dispatcher.access.claim r.dispatcher.store r.dispatcher.now e.id with
    | error cause => exact ⟨[_], ⟨rfl, rfl, rfl, rfl⟩, List.forall_mem_singleton.2 rfl⟩
    | ok answer =>
      obtain ⟨granted, store⟩ := answer
      refine ⟨[.claimed e.id (.ok granted)], ?_, List.forall_mem_singleton.2 rfl⟩
      cases granted with
      | false => exact ⟨rfl, rfl, Access.store_of_claim_false hclaim, rfl⟩
      | true =>
        refine ⟨rfl, rfl, ?_, rfl⟩
        have hstore := Access.claim?_of_claim_true hclaim
        simp [Exchange.call?, Store.after, hstore, change, note, Dispatcher.spawn, Dispatcher.tell]

theorem notes_startAll (r : Recording) (events : List Event) :
    ∃ noted, Notes r noted (r.startAll events).2 ∧ (∀ x ∈ noted, x.election? = none) ∧
      (events = [] → noted = []) := by
  induction events generalizing r with
  | nil => exact ⟨[], .refl r, List.forall_mem_nil _, fun _ => rfl⟩
  | cons e rest ih =>
    obtain ⟨noted, hone, hasks⟩ := r.notes_startOne e
    obtain ⟨noted', hrest, hasks', -⟩ := ih (r.startOne e).2
    refine ⟨noted ++ noted', hone.trans hrest, fun x hx => ?_, nofun⟩
    exact (List.mem_append.1 hx).elim (hasks x) (hasks' x)

/-- A cycle notes every call that changes the store, starts as many workers as it has claims
granted, and begins with a question of its own. -/
theorem notes_cycle (r : Recording) (paused : List EventClass) (now : Instant) :
    ∃ noted, Notes r noted (r.cycle paused now).2 ∧
      Exchange.OfCycle r.dispatcher.election.answer noted := by
  obtain ⟨noted, hopened, hcycle, htold⟩ := r.notes_openCycle paused now
  unfold cycle
  split
  · next hopen =>
    rw [hopen] at hopened
    exact ⟨noted, hopened, hcycle⟩
  · next candidates r₁ hopen =>
    rw [hopen] at hopened htold
    obtain ⟨noted', hall, hasks, hnone⟩ := r₁.notes_startAll candidates
    refine ⟨noted ++ noted', hopened.trans hall, hcycle.append hasks fun hne => ?_⟩
    exact htold candidates rfl fun hnil => hne (hnone hnil)

/-! ## Sequences of cycles -/

/-- The recordings that cycles in a row lead to, with the events that the cycle under way
has yet to go through. -/
inductive Cycles : Recording → List Event → Prop
  | start {d : Dispatcher} : d.leading = false → Cycles ⟨d, []⟩ []
  | meanwhile {r : Recording} {todo : List Event} {d : Dispatcher} :
      Cycles r todo → d.leading = r.dispatcher.leading → Cycles { r with dispatcher := d } todo
  | begins {r r' : Recording} {paused : List EventClass} {now : Instant} {todo : List Event} :
      Cycles r [] → r.openCycle paused now = (.ok todo, r') → Cycles r' todo
  | fails {r r' : Recording} {paused : List EventClass} {now : Instant}
      {cause : DispatchError} :
      Cycles r [] → r.openCycle paused now = (.error cause, r') → Cycles r' []
  | goesOn {r : Recording} {e : Event} {rest : List Event} :
      Cycles r (e :: rest) → Cycles (r.startOne e).2 rest

/-- Every exchange fits those before it, and they tell who leads. -/
structure Led (r : Recording) : Prop where
  leading : r.dispatcher.leading = Exchange.leadAfter r.exchanges
  fits : ∀ before x, before ++ [x] <+: r.exchanges → x.Fits before

/-- The cycle under way was told that this instance leads, and has the lead. -/
structure Going (r : Recording) : Prop where
  told : Exchange.lastElection? r.exchanges = some (.ok true)
  leads : Exchange.leadAfter r.exchanges = true

variable {r r' : Recording}

theorem Led.congr {d : Dispatcher} (h : r.Led) (hd : d.leading = r.dispatcher.leading) :
    Led { r with dispatcher := d } :=
  ⟨hd.trans h.leading, h.fits⟩

theorem Led.concat {d : Dispatcher} {x : Exchange} (h : r.Led) (hx : x.Fits r.exchanges)
    (hd : d.leading = x.leads r.dispatcher.leading) : Led ⟨d, r.exchanges ++ [x]⟩ := by
  constructor
  · rw [Exchange.leadAfter_concat, ← h.leading]
    exact hd
  · intro before y hy
    rcases List.prefix_concat_iff.1 hy with hlast | hearlier
    · obtain ⟨rfl, hsame⟩ := List.append_inj' hlast rfl
      cases hsame
      exact hx
    · exact h.fits before y hearlier

theorem Going.concat {d : Dispatcher} {exchanges : List Exchange} {x : Exchange}
    (htold : Exchange.lastElection? exchanges = some (.ok true)) (hx : x.election? = none)
    (hleads : x.leads (Exchange.leadAfter exchanges) = true) :
    Going ⟨d, exchanges ++ [x]⟩ := by
  constructor
  · rw [Exchange.lastElection?_concat, hx]
    exact htold
  · rw [Exchange.leadAfter_concat]
    exact hleads

/-- The lead is checked in order, and a cycle that goes on from there has the lead. -/
theorem Led.checkLead (h : r.Led) :
    r.checkLead.2.Led ∧ (r.checkLead.1 = .ok true → r.checkLead.2.Going) := by
  unfold Recording.checkLead ask
  cases r.dispatcher.election.answer with
  | error cause => exact ⟨h.concat trivial rfl, nofun⟩
  | ok leader =>
    cases leader with
    | false =>
      dsimp only [note]
      split
      · exact ⟨h.concat trivial rfl, nofun⟩
      · next hleading => exact ⟨h.concat trivial (Bool.eq_false_iff.2 hleading), nofun⟩
    | true =>
      have hled : Led ⟨r.dispatcher, r.exchanges ++ [.asked (.ok true)]⟩ :=
        h.concat trivial rfl
      have htold : Exchange.lastElection? (r.exchanges ++ [.asked (.ok true)]) =
          some (.ok true) := Exchange.lastElection?_concat _ _
      dsimp only [note]
      split
      · next hleading => exact ⟨hled, fun _ => ⟨htold, hled.leading ▸ hleading⟩⟩
      · next hleading =>
        have hnot : Exchange.leadAfter (r.exchanges ++ [.asked (.ok true)]) = false := by
          rw [← hled.leading]
          exact Bool.eq_false_iff.2 hleading
        dsimp only [reset]
        cases r.dispatcher.access.resetProcessing r.dispatcher.store r.dispatcher.now with
        | error cause => exact ⟨hled.concat ⟨htold, hnot⟩ rfl, nofun⟩
        | ok answer => exact ⟨hled.concat ⟨htold, hnot⟩ rfl, fun _ => Going.concat htold rfl rfl⟩

/-- A cycle begins in order, and what it lists it goes through with the lead. -/
theorem Led.openCycle {paused : List EventClass} {now : Instant}
    {answer : Except DispatchError (List Event)} (h : r.Led)
    (hopen : r.openCycle paused now = (answer, r')) :
    r'.Led ∧ ∀ todo, answer = .ok todo → todo ≠ [] → r'.Going := by
  obtain ⟨hled, hgoing⟩ := h.checkLead
  unfold Recording.openCycle at hopen
  split at hopen
  · next hlead =>
    rw [hlead] at hled
    cases hopen
    exact ⟨hled, nofun⟩
  · next hlead =>
    rw [hlead] at hled
    cases hopen
    refine ⟨hled, fun todo htodo hne => ?_⟩
    cases htodo
    exact absurd rfl hne
  · next r₁ hlead =>
    rw [hlead] at hled hgoing
    obtain ⟨htold, hleads⟩ := hgoing rfl
    split at hopen
    · next hlist =>
      cases hopen
      obtain rfl : r₁.note (.listed _) = r' := congrArg Prod.snd hlist
      exact ⟨hled.concat ⟨htold, hleads⟩ rfl, nofun⟩
    · next hlist =>
      cases hopen
      obtain rfl : r₁.note (.listed _) = r' := congrArg Prod.snd hlist
      exact ⟨hled.concat ⟨htold, hleads⟩ rfl, fun _ _ _ => Going.concat htold rfl hleads⟩

/-- An event is claimed in order, and the cycle keeps the lead. -/
theorem Led.startOne (h : r.Led) (hgoing : r.Going) (e : Event) :
    (r.startOne e).2.Led ∧ (r.startOne e).2.Going := by
  have hclaims : ∀ (d : Dispatcher) answer, d.leading = r.dispatcher.leading →
      Led ⟨d, r.exchanges ++ [.claimed e.id answer]⟩ ∧
        Going ⟨d, r.exchanges ++ [.claimed e.id answer]⟩ := fun _ _ hd =>
    ⟨h.concat ⟨hgoing.told, hgoing.leads⟩ hd, .concat hgoing.told rfl hgoing.leads⟩
  unfold Recording.startOne claim
  dsimp only
  cases r.dispatcher.registry.find? e.tag with
  | none => exact ⟨h.congr rfl, hgoing.told, hgoing.leads⟩
  | some entry =>
    cases r.dispatcher.access.claim r.dispatcher.store r.dispatcher.now e.id with
    | error cause => exact hclaims _ _ rfl
    | ok answer =>
      obtain ⟨granted, store⟩ := answer
      cases granted with
      | false => exact hclaims _ _ rfl
      | true => exact hclaims _ _ rfl

theorem Cycles.startAll {todo : List Event} (h : r.Cycles todo) : (r.startAll todo).2.Cycles [] := by
  induction todo generalizing r with
  | nil => exact h
  | cons e rest ih => exact ih h.goesOn

/-- Whole cycles, one after the other, are cycles in a row. -/
theorem Cycles.cycle {paused : List EventClass} {now : Instant} (h : r.Cycles []) :
    (r.cycle paused now).2.Cycles [] := by
  unfold Recording.cycle
  split
  · next hopen => exact h.fails hopen
  · next hopen => exact (h.begins hopen).startAll

theorem led_of_cycles {todo : List Event} (h : r.Cycles todo) :
    r.Led ∧ (todo ≠ [] → r.Going) := by
  induction h with
  | start hd =>
    refine ⟨⟨hd, fun before x hx => ?_⟩, fun hne => absurd rfl hne⟩
    simp at hx
  | meanwhile _ hd ih => exact ⟨ih.1.congr hd, fun hne => ⟨(ih.2 hne).told, (ih.2 hne).leads⟩⟩
  | begins _ hopen ih =>
    obtain ⟨hled, hgoing⟩ := ih.1.openCycle hopen
    exact ⟨hled, hgoing _ rfl⟩
  | fails _ hopen ih => exact ⟨(ih.1.openCycle hopen).1, fun hne => absurd rfl hne⟩
  | goesOn _ ih =>
    obtain ⟨hled, hgoing⟩ := ih.1.startOne (ih.2 (List.cons_ne_nil _ _)) _
    exact ⟨hled, fun _ => hgoing⟩

end Recording

/-! ## The gate -/

theorem Dispatcher.workers_checkLead (d : Dispatcher) :
    d.checkLead.2.workers = d.workers ∧ d.checkLead.2.started = d.started := by
  unfold checkLead
  split
  · exact ⟨rfl, rfl⟩
  · split
    · exact ⟨rfl, rfl⟩
    · split <;> exact ⟨rfl, rfl⟩
  · split <;> exact ⟨rfl, rfl⟩

/-- A cycle that fails starts no worker. -/
theorem Dispatcher.workers_of_cycle_error {d d' : Dispatcher} {paused : List EventClass}
    {now : Instant} {cause : DispatchError} (h : d.cycle paused now = (.error cause, d')) :
    d'.workers = d.workers ∧ d'.started = d.started := by
  have hlead := d.workers_checkLead
  unfold cycle at h
  split at h
  · next hopen =>
    cases h
    unfold openCycle at hopen
    split at hopen
    · next heq =>
      cases hopen
      rwa [heq] at hlead
    · cases hopen
    · next heq =>
      rw [heq] at hlead
      split at hopen
      · cases hopen
        exact hlead
      · cases hopen
  · cases h

namespace Recording

theorem gated_of_cycles {r : Recording} {todo : List Event} (h : r.Cycles todo) :
    Exchange.Gated r.exchanges := by
  obtain ⟨hled, -⟩ := led_of_cycles h
  refine ⟨fun before x hx hkind => ?_, fun before stretch hstretch first x rest hsplit => ?_⟩
  · have hfits := hled.fits before x hx
    cases x with
    | asked | reset => simp [Exchange.isListing, Exchange.isClaim] at hkind
    | listed | claimed => exact hfits.1
  · subst hsplit
    have hpart : (before ++ first) ++ [x] <+: r.exchanges := by
      refine List.IsPrefix.trans ⟨rest, ?_⟩ hstretch.isPart
      simp
    have hkeeps : Exchange.asked (.ok false) ∉ first := fun hmem =>
      hstretch.keeps (List.mem_append_left _ hmem)
    have hleads : Exchange.leadAfter (before ++ first) = first.any Exchange.hasReset := by
      have hbefore := hstretch.leadAfter_before
      rw [Exchange.leadAfter, List.foldl_append, Exchange.foldl_leads_of_keeps hkeeps]
      rw [Exchange.leadAfter] at hbefore
      rw [hbefore, Bool.false_or]
    have hfits := hled.fits _ x hpart
    cases x with
    | asked | listed => exact ⟨nofun, nofun⟩
    | claimed =>
      refine ⟨fun _ => ?_, nofun⟩
      exact List.any_eq_true.1 (hleads ▸ hfits.2)
    | reset =>
      refine ⟨nofun, fun _ => ?_⟩
      exact fun y hy => Bool.eq_false_iff.2 (List.any_eq_false.1 (hleads ▸ hfits.2) y hy)

/-- A listing or a claim follows an answer that this instance leads, which its own cycle
was given.  In a stretch without an answer that it does not, nothing is claimed before a
reset has worked, and nothing is reset after that.  A cycle that fails starts no worker.  The
next cycle is the dispatcher's; it begins with its own question, asks no other, asks for
nothing else if it is not told that it leads, and what it asked accounts for what becomes of
the store and of the workers. -/
theorem lead_gates_cycles {r : Recording} {todo : List Event} (h : r.Cycles todo) :
    (∀ before x, before ++ [x] <+: r.exchanges → x.isListing = true ∨ x.isClaim = true →
      Exchange.lastElection? before = some (.ok true)) ∧
    (∀ before stretch, Exchange.Stretch r.exchanges before stretch →
      ∀ first x rest, stretch = first ++ x :: rest →
        (x.isClaim = true → ∃ y ∈ first, y.hasReset = true) ∧
        (x.isReset = true → ∀ y ∈ first, y.hasReset = false)) ∧
    (∀ paused now cause d', r.dispatcher.cycle paused now = (.error cause, d') →
      d'.workers = r.dispatcher.workers ∧ d'.started = r.dispatcher.started) ∧
    ∀ paused now, erased (r.cycle paused now) = r.dispatcher.cycle paused now ∧
      ∃ noted, Notes r noted (r.cycle paused now).2 ∧
        Exchange.OfCycle r.dispatcher.election.answer noted :=
  ⟨(gated_of_cycles h).told, (gated_of_cycles h).orderly,
    fun _ _ _ _ => Dispatcher.workers_of_cycle_error,
    fun paused now => ⟨r.cycle_erased paused now, r.notes_cycle paused now⟩⟩

/-- A cycle while the election and the store answer like this. -/
def turn (r : Recording) (conditions : Election × Access) : Recording :=
  let d := { r.dispatcher with election := conditions.1, access := conditions.2 }
  (({ r with dispatcher := d } : Recording).cycle [] d.now).2

theorem Cycles.turns {r : Recording} (h : r.Cycles []) (conditions : List (Election × Access)) :
    (conditions.foldl turn r).Cycles [] := by
  induction conditions generalizing r with
  | nil => exact h
  | cons condition rest ih => exact ih (Cycles.cycle (h.meanwhile rfl))

/-- A dispatcher that has an event to run and does not lead. -/
def followerStart : Dispatcher :=
  { Dispatcher.initial ⟨[("a:r", ⟨.team, .ofScripts []⟩)]⟩ ⟨1000, ⟨.ofSeconds 60, 3⟩, none⟩
      .unhindered .always .epoch with
    store := Store.empty.insert (.ofSerial 0) .epoch ⟨"a:r", "o", .null, .ofSeconds 300⟩ }

/-- Somebody else leads; the lead is offered, but the reset fails; the election is out of
reach; the lead is taken, but the listing fails; a worker is started; the lead is lost and
taken again. -/
def restlessTurns : List (Election × Access) :=
  [(.flag false none, .unhindered),
    (.flag true none, ⟨true, [.resetProcessing], false⟩),
    (.flag true (some ⟨"election is down"⟩), .unhindered),
    (.flag true none, ⟨true, [.listDispatchable], false⟩),
    (.flag true none, .unhindered),
    (.flag false none, .unhindered),
    (.flag true none, .unhindered)]

theorem lead_gates_cycles_of_restlessTurns :
    ∃ r : Recording, r.Cycles [] ∧
      r.exchanges.map Exchange.isReset = [false, false, true, false, false, true, false,
        false, false, false, false, false, true, false] ∧
      r.exchanges.countP Exchange.hasReset = 2 ∧ r.exchanges.countP Exchange.isClaim = 1 ∧
      (∀ before x, before ++ [x] <+: r.exchanges → x.isListing = true ∨ x.isClaim = true →
        Exchange.lastElection? before = some (.ok true)) ∧
      (∀ before stretch, Exchange.Stretch r.exchanges before stretch →
        ∀ first x rest, stretch = first ++ x :: rest →
          (x.isClaim = true → ∃ y ∈ first, y.hasReset = true) ∧
          (x.isReset = true → ∀ y ∈ first, y.hasReset = false)) ∧
      (∀ paused now cause d', r.dispatcher.cycle paused now = (.error cause, d') →
        d'.workers = r.dispatcher.workers ∧ d'.started = r.dispatcher.started) ∧
      ∀ paused now, erased (r.cycle paused now) = r.dispatcher.cycle paused now ∧
        ∃ noted, Notes r noted (r.cycle paused now).2 ∧
          Exchange.OfCycle r.dispatcher.election.answer noted := by
  have hcycles : (restlessTurns.foldl turn ⟨followerStart, []⟩).Cycles [] :=
    (Cycles.start rfl).turns restlessTurns
  refine ⟨_, hcycles, ?_, ?_, ?_, lead_gates_cycles hcycles⟩ <;> cbv

end Recording

/-! ## Runs of the service -/

theorem Core.Step.lead_of_ne_loop {c c' : Core} {m : Move} (h : c.Step m c') (hm : m ≠ .loop) :
    c'.leading = c.leading ∧ c'.candidates = c.candidates := by
  cases h with
  | leadLost | opened | passedOver | claimed => exact absurd rfl hm
  | _ => exact ⟨rfl, rfl⟩

/-- The lead, and what is left to claim, are the loop's business. -/
theorem Service.lead_of_after? {s s' : Service} {m : Move} (hm : m ≠ .loop)
    (h : s.after? m = some s') :
    s'.core.leading = s.core.leading ∧ s'.core.candidates = s.core.candidates := by
  cases m with
  | register tag owner deadline payload =>
    -- The identifier need not be fresh here, so this is no step of the core.
    cases h
    rcases s.core_registerEvent tag owner deadline payload with hcore | ⟨value, -, hcore⟩
    · rw [hcore]
      exact ⟨rfl, rfl⟩
    · rw [hcore]
      exact ⟨rfl, rfl⟩
  | _ => exact (step_of_after? rfl h).lead_of_ne_loop hm

/-- A service, and what the cycles of its loop asked and were answered so far. -/
structure Observed where
  service : Service
  exchanges : List Exchange

namespace Observed

open Service

def recording (x : Observed) : Recording := ⟨x.service.dispatcher, x.exchanges⟩

/-- The exchanges after a move: those of a step of the loop are added. -/
def noted (x : Observed) : Move → List Exchange
  | .loop =>
    match x.service.loop.phase with
    | .starting =>
      (x.recording.openCycle x.service.pauses.classes x.service.dispatcher.now).2.exchanges
    | .claiming (e :: _) _ => (x.recording.startOne e).2.exchanges
    | _ => x.exchanges
  | _ => x.exchanges

def after? (x : Observed) (m : Move) : Option Observed :=
  (x.service.after? m).map fun s => ⟨s, x.noted m⟩

variable {x x' : Observed} {s s' : Service}

/-- Nothing that matters to cycles happened. -/
theorem cycles_of_core_eq (h : x.recording.Cycles x.service.candidates)
    (hleading : s'.core.leading = x.service.core.leading)
    (hcandidates : s'.core.candidates = x.service.core.candidates) :
    Recording.Cycles ⟨s'.dispatcher, x.exchanges⟩ s'.candidates := by
  rw [show s'.candidates = x.service.candidates from hcandidates]
  exact h.meanwhile hleading

theorem cycles_of_beginCycle (h : x.recording.Cycles x.service.candidates)
    (hphase : x.service.loop.phase = .starting) :
    Recording.Cycles ⟨x.service.beginCycle.dispatcher, x.noted .loop⟩
      x.service.beginCycle.candidates := by
  rw [candidates_of_starting hphase] at h
  have herased := x.recording.openCycle_erased x.service.pauses.classes x.service.dispatcher.now
  cases hopen : x.recording.openCycle x.service.pauses.classes x.service.dispatcher.now with
  | mk answer r =>
    have hnoted : x.noted .loop = r.exchanges := by simp only [noted, hphase, hopen]
    rw [hopen] at herased
    rw [hnoted]
    unfold beginCycle
    rw [show x.service.dispatcher.openCycle x.service.pauses.classes x.service.dispatcher.now =
      (answer, r.dispatcher) from herased.symm]
    cases answer with
    | error cause => exact (h.fails hopen).meanwhile rfl
    | ok candidates => exact h.begins hopen

theorem cycles_of_loopStep (h : x.recording.Cycles x.service.candidates)
    (hstep : x.service.loopStep = some s') :
    Recording.Cycles ⟨s'.dispatcher, x.noted .loop⟩ s'.candidates := by
  cases hphase : x.service.loop.phase with
  | starting =>
    obtain rfl : x.service.beginCycle = s' := by simpa [loopStep, hphase] using hstep
    exact cycles_of_beginCycle h hphase
  | claiming events count =>
    cases events with
    | cons e rest =>
      have herased := x.recording.startOne_erased e
      rw [candidates_of_claiming hphase] at h
      have hnoted : x.noted .loop = (x.recording.startOne e).2.exchanges := by
        simp only [noted, hphase]
      have hdispatcher : (x.service.dispatcher.startOne e).2 =
          (x.recording.startOne e).2.dispatcher := (congrArg Prod.snd herased).symm
      simp only [loopStep, hphase, Option.some.injEq] at hstep
      subst hstep
      rw [hnoted]
      change Recording.Cycles ⟨(x.service.dispatcher.startOne e).2, _⟩ rest
      rw [hdispatcher]
      exact h.goesOn
    | nil =>
      have hsame := core_of_loopStep hstep (by simp [hphase]) (candidates_of_claiming hphase)
      have hnoted : x.noted .loop = x.exchanges := by simp only [noted, hphase]
      rw [hnoted]
      exact cycles_of_core_eq h (congrArg Core.leading hsame) (congrArg Core.candidates hsame)
  | _ =>
    have hsame := core_of_loopStep hstep (by simp [hphase]) (by simp [candidates, hphase])
    have hnoted : x.noted .loop = x.exchanges := by simp only [noted, hphase]
    rw [hnoted]
    exact cycles_of_core_eq h (congrArg Core.leading hsame) (congrArg Core.candidates hsame)

/-- Whatever happens to the service, its cycles stay cycles in a row. -/
theorem cycles_after? {m : Move} (h : x.recording.Cycles x.service.candidates)
    (hafter : x.service.after? m = some s') :
    ∃ x', x.after? m = some x' ∧ x'.service = s' ∧ x'.recording.Cycles s'.candidates := by
  refine ⟨⟨s', x.noted m⟩, by simp [after?, hafter], rfl, ?_⟩
  by_cases hloop : m = .loop
  · subst hloop
    exact cycles_of_loopStep h hafter
  · obtain ⟨hleading, hcandidates⟩ := lead_of_after? hloop hafter
    have hnoted : x.noted m = x.exchanges := by
      cases m with
      | loop => exact absurd rfl hloop
      | _ => rfl
    rw [hnoted]
    exact cycles_of_core_eq (x := x) h hleading hcandidates

theorem cycles_of_run {moves : List Move} (h : x.recording.Cycles x.service.candidates)
    (hrun : moves.foldlM Service.after? x.service = some s) :
    ∃ x', moves.foldlM after? x = some x' ∧ x'.service = s ∧
      x'.recording.Cycles s.candidates := by
  induction moves generalizing x with
  | nil =>
    cases hrun
    exact ⟨x, rfl, rfl, h⟩
  | cons m rest ih =>
    obtain ⟨t, hafter, hrest⟩ := Option.bind_eq_some_iff.1 hrun
    obtain ⟨y, hy, rfl, hcycles⟩ := cycles_after? h hafter
    obtain ⟨x', hx', hservice, hcycles'⟩ := ih hcycles hrest
    exact ⟨x', Option.bind_eq_some_iff.2 ⟨y, hy, hx'⟩, hservice, hcycles'⟩

/-- In every run of a service that does not lead yet, and goes through no events, its loop
lists and claims only what its lead allows. -/
theorem lead_gates_loop {moves : List Move} (hleading : s.dispatcher.leading = false)
    (hcandidates : s.candidates = []) (hrun : moves.foldlM Service.after? s = some s') :
    ∃ x, moves.foldlM after? ⟨s, []⟩ = some x ∧ x.service = s' ∧
      Exchange.Gated x.exchanges := by
  have hstart : (Observed.recording ⟨s, []⟩).Cycles s.candidates :=
    hcandidates ▸ .start hleading
  obtain ⟨x, hx, hservice, hcycles⟩ := cycles_of_run hstart hrun
  exact ⟨x, hx, hservice, Recording.gated_of_cycles hcycles⟩

end Observed
end EventDispatch
