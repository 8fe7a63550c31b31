import RoutingApi.Database.Client
import RoutingApi.Process.Runs

/-! One subscription to the events of the hub: its source, the goroutine of
`dispatchWatchEvents`, and `handleEventStream`, which writes to the client. -/
namespace RoutingApi.Stream
open Process
open Database (Event EventType)

section Model

/-- `db.Event`; the value is the JSON of a row. -/
abbrev WatchEvent := Event String

/-- `db.Event` with zero fields, which is also what a closed channel yields. -/
def zeroEvent : WatchEvent := ⟨.invalid, ""⟩

/-- What is emitted to the hub: an event, or a value of another type. -/
inductive Item where
  | event (ev : WatchEvent)
  | foreign
  deriving DecidableEq, Repr

/-- `watchEvent, ok := event.(Event)`. -/
def Item.watchEvent : Item → WatchEvent
  | .event ev => ev
  | .foreign => zeroEvent

/-- The source of a subscription. -/
structure Source where
  pending : List Item
  closed : Bool
  deriving DecidableEq, Repr

def Source.close (src : Source) : Source := { src with closed := true }

/-- A send that finds the source full closes it; what is pending stays readable. -/
def Source.send (cap : ℕ) (item : Item) (src : Source) : Source :=
  if src.closed then src
  else if src.pending.length < cap then { src with pending := src.pending ++ [item] }
  else src.close

/-- Where `dispatchWatchEvents` is. The deferred calls close `errors` first. -/
inductive DispatcherState where
  | reading
  | reporting
  | offering (item : Item)
  | closingErrors
  | closingEvents
  | done
  deriving DecidableEq, Repr

/-- Where the loop of `handleEventStream` is. -/
inductive HandlerState where
  | selecting
  | writing (ev : WatchEvent)
  | returned
  deriving DecidableEq, Repr

/-- A write to the client, with the id it was given and whether it succeeded. -/
structure Attempt where
  event : WatchEvent
  id : ℕ
  ok : Bool
  deriving DecidableEq, Repr

structure SseEvent where
  id : String
  name : String
  data : String
  deriving DecidableEq, Repr

def sseEvent (id : ℕ) (ev : WatchEvent) : SseEvent := ⟨toString id, ev.type.string, ev.value⟩

/-- The state of a subscription, with what has been emitted since it began and what the
handler has tried to write. -/
structure State where
  emitted : List Item
  source : Source
  dispatcher : DispatcherState
  errorPending : Bool
  errorsClosed : Bool
  eventsClosed : Bool
  handler : HandlerState
  gone : Bool
  eventID : ℕ
  attempts : List Attempt
  deriving DecidableEq, Repr

/-- `WatchChanges`. On a hub that is closed it leaves an error, closes both channels and starts
no dispatcher. -/
def watchChanges (hubClosed : Bool) : State where
  emitted := []
  source := ⟨[], hubClosed⟩
  dispatcher := if hubClosed then .done else .reading
  errorPending := hubClosed
  errorsClosed := hubClosed
  eventsClosed := hubClosed
  handler := .selecting
  gone := false
  eventID := 0
  attempts := []

/-- `receive…` are the cases of the select that end the handler; `deliver` is the rendezvous on
the unbuffered channel of events. -/
inductive Act where
  | emit (item : Item)
  | closeHub
  | disconnect
  | dispatch
  | deliver
  | receiveClosed
  | receiveError
  | receiveDone
  | write (ok : Bool)
  deriving DecidableEq, Repr

def dispatchStep (s : State) : Option State :=
  match s.dispatcher with
  | .reading =>
    match s.source.pending with
    | .event ev :: rest => some { s with
        source := { s.source with pending := rest }
        dispatcher := .offering (.event ev) }
    | .foreign :: rest => some { s with
        source := { s.source with pending := rest }
        dispatcher := .reporting }
    | [] => if s.source.closed then some { s with dispatcher := .closingErrors } else none
  -- the channel of errors has room for one
  | .reporting =>
    if s.errorPending then none
    else some { s with errorPending := true, dispatcher := .offering .foreign }
  | .offering _ => none
  | .closingErrors => some { s with errorsClosed := true, dispatcher := .closingEvents }
  | .closingEvents => some { s with eventsClosed := true, dispatcher := .done }
  | .done => none

def deliverStep (s : State) : Option State :=
  match s.dispatcher, s.handler with
  | .offering item, .selecting => some { s with
      dispatcher := .reading
      handler := if item.watchEvent.type = .invalid then .returned
        else .writing item.watchEvent }
  | _, _ => none

/-- The state after a move, or nothing where the move cannot be made. -/
def step? (cap : ℕ) (s : State) : Act → Option State
  | .emit item => some { s with
      emitted := s.emitted ++ [item]
      source := s.source.send cap item }
  | .closeHub => some { s with source := s.source.close }
  | .disconnect => some { s with gone := true }
  | .dispatch => dispatchStep s
  | .deliver => deliverStep s
  | .receiveClosed =>
    if s.handler = .selecting ∧ s.eventsClosed then some { s with handler := .returned } else none
  | .receiveError =>
    if s.handler = .selecting ∧ (s.errorPending ∨ s.errorsClosed) then
      some { s with handler := .returned, errorPending := false }
    else none
  | .receiveDone =>
    if s.handler = .selecting ∧ s.gone then
      some { s with handler := .returned, source := s.source.close }
    else none
  -- an error only leaves the select: the event is gone and the id is used again
  | .write ok =>
    match s.handler with
    | .writing ev => some { s with
        handler := .selecting
        attempts := s.attempts ++ [⟨ev, s.eventID, ok⟩]
        eventID := if ok then s.eventID + 1 else s.eventID }
    | _ => none

def step (cap : ℕ) (s : State) (a : Act) : State := (step? cap s a).getD s

/-- What the client has received whole. -/
def written (s : State) : List SseEvent :=
  (s.attempts.filter (·.ok)).map fun a => sseEvent a.id a.event

/-- What was written are the first events emitted, numbered from 0. -/
def GapFree (s : State) : Prop :=
  ∃ evs : List WatchEvent, evs.map Item.event <+: s.emitted ∧ written s = evs.mapIdx sseEvent

/-- No write succeeds after one that failed. -/
def FailsForGood (s : State) : Act → Prop
  | .write true => ∀ a ∈ s.attempts, a.ok = true
  | _ => True

instance (s : State) : (a : Act) → Decidable (FailsForGood s a)
  | .write true => inferInstanceAs (Decidable (∀ a ∈ s.attempts, a.ok = true))
  | .write false => isTrue trivial
  | .emit _ => isTrue trivial
  | .closeHub => isTrue trivial
  | .disconnect => isTrue trivial
  | .dispatch => isTrue trivial
  | .deliver => isTrue trivial
  | .receiveClosed => isTrue trivial
  | .receiveError => isTrue trivial
  | .receiveDone => isTrue trivial

end Model

section Steps
variable {cap : ℕ} {s s' : State} {a : Act}

/-- The moves that are possible, with what they find and what they change. -/
inductive Step (cap : ℕ) (s : State) : Act → State → Prop
  | emitted (item : Item) : Step cap s (.emit item) { s with
      emitted := s.emitted ++ [item]
      source := s.source.send cap item }
  | hubClosed : Step cap s .closeHub { s with source := s.source.close }
  | disconnected : Step cap s .disconnect { s with gone := true }
  | took (ev : WatchEvent) (rest : List Item) (hd : s.dispatcher = .reading)
      (hp : s.source.pending = .event ev :: rest) : Step cap s .dispatch { s with
        source := { s.source with pending := rest }
        dispatcher := .offering (.event ev) }
  | tookForeign (rest : List Item) (hd : s.dispatcher = .reading)
      (hp : s.source.pending = .foreign :: rest) : Step cap s .dispatch { s with
        source := { s.source with pending := rest }
        dispatcher := .reporting }
  | sawClosed (hd : s.dispatcher = .reading) (hp : s.source.pending = [])
      (hc : s.source.closed = true) :
      Step cap s .dispatch { s with dispatcher := .closingErrors }
  | reported (hd : s.dispatcher = .reporting) (he : s.errorPending = false) :
      Step cap s .dispatch { s with errorPending := true, dispatcher := .offering .foreign }
  | closedErrors (hd : s.dispatcher = .closingErrors) :
      Step cap s .dispatch { s with errorsClosed := true, dispatcher := .closingEvents }
  | closedEvents (hd : s.dispatcher = .closingEvents) :
      Step cap s .dispatch { s with eventsClosed := true, dispatcher := .done }
  | delivered (item : Item) (hd : s.dispatcher = .offering item) (hh : s.handler = .selecting)
      (hv : item.watchEvent.type ≠ .invalid) : Step cap s .deliver { s with
        dispatcher := .reading
        handler := .writing item.watchEvent }
  | deliveredInvalid (item : Item) (hd : s.dispatcher = .offering item)
      (hh : s.handler = .selecting) (hv : item.watchEvent.type = .invalid) :
      Step cap s .deliver { s with dispatcher := .reading, handler := .returned }
  | receivedClosed (hh : s.handler = .selecting) (hc : s.eventsClosed = true) :
      Step cap s .receiveClosed { s with handler := .returned }
  | receivedError (hh : s.handler = .selecting)
      (he : s.errorPending = true ∨ s.errorsClosed = true) :
      Step cap s .receiveError { s with handler := .returned, errorPending := false }
  | receivedDone (hh : s.handler = .selecting) (hg : s.gone = true) :
      Step cap s .receiveDone { s with handler := .returned, source := s.source.close }
  | wrote (ev : WatchEvent) (ok : Bool) (hh : s.handler = .writing ev) :
      Step cap s (.write ok) { s with
        handler := .selecting
        attempts := s.attempts ++ [⟨ev, s.eventID, ok⟩]
        eventID := if ok then s.eventID + 1 else s.eventID }

theorem dispatchStep_some (h : dispatchStep s = some s') : Step cap s .dispatch s' := by
  unfold dispatchStep at h
  split at h
  next hd =>
    split at h
    next ev rest hp =>
      cases h
      exact .took ev rest hd hp
    next rest hp =>
      cases h
      exact .tookForeign rest hd hp
    next hp =>
      split at h
      next hc =>
        cases h
        exact .sawClosed hd hp hc
      next => cases h
  next hd =>
    split at h
    next => cases h
    next he =>
      cases h
      exact .reported hd (eq_false_of_ne_true he)
  next => cases h
  next hd =>
    cases h
    exact .closedErrors hd
  next hd =>
    cases h
    exact .closedEvents hd
  next => cases h

theorem deliverStep_some (h : deliverStep s = some s') : Step cap s .deliver s' := by
  unfold deliverStep at h
  split at h
  next item hd hh =>
    cases h
    by_cases hv : item.watchEvent.type = .invalid
    · rw [if_pos hv]
      exact .deliveredInvalid item hd hh hv
    · rw [if_neg hv]
      exact .delivered item hd hh hv
  next => cases h

theorem step?_some (h : step? cap s a = some s') : Step cap s a s' := by
  cases a with
  | emit item =>
    cases h
    exact .emitted item
  | closeHub =>
    cases h
    exact .hubClosed
  | disconnect =>
    cases h
    exact .disconnected
  | dispatch => exact dispatchStep_some h
  | deliver => exact deliverStep_some h
  | receiveClosed =>
    simp only [step?] at h
    split at h
    next hc =>
      cases h
      exact .receivedClosed hc.1 hc.2
    next => cases h
  | receiveError =>
    simp only [step?] at h
    split at h
    next hc =>
      cases h
      exact .receivedError hc.1 hc.2
    next => cases h
  | receiveDone =>
    simp only [step?] at h
    split at h
    next hc =>
      cases h
      exact .receivedDone hc.1 hc.2
    next => cases h
  | write ok =>
    simp only [step?] at h
    split at h
    next ev hh =>
      cases h
      exact .wrote ev ok hh
    next => cases h

/-- What every possible move keeps, every move keeps. -/
theorem step_keeps {I : State → Prop} (hI : I s) (h : ∀ s', Step cap s a s' → I s') :
    I (step cap s a) := by
  unfold step
  cases hstep : step? cap s a with
  | none => exact hI
  | some s' => exact h s' (step?_some hstep)

/-- The three things that a send can do. -/
theorem send_cases (cap : ℕ) (item : Item) (src : Source) :
    (src.closed = true ∧ src.send cap item = src) ∨
      (src.closed = false ∧ src.send cap item = { src with pending := src.pending ++ [item] }) ∨
      src.send cap item = src.close := by
  unfold Source.send
  split
  next hc => exact .inl ⟨hc, rfl⟩
  next hc =>
    split
    next => exact .inr (.inl ⟨eq_false_of_ne_true hc, rfl⟩)
    next => exact .inr (.inr rfl)

end Steps

section GapFree
variable {cap : ℕ} {s s' : State} {a : Act}

/-- What the dispatcher holds between the source and the handler. -/
def held : DispatcherState → List Item
  | .reporting => [.foreign]
  | .offering item => [item]
  | _ => []

/-- What is on its way to the client; nothing is once the handler has returned. -/
def inFlight (s : State) : List Item :=
  match s.handler with
  | .selecting => held s.dispatcher ++ s.source.pending
  | .writing ev => .event ev :: (held s.dispatcher ++ s.source.pending)
  | .returned => []

/-- The events that the handler has tried to write. -/
def tried (s : State) : List Item := s.attempts.map fun a => .event a.event

/-- Conservation: what was tried and what is in flight are the first items emitted, and all of
them as long as the source is open. -/
structure Conserved (s : State) : Prop where
  first : tried s ++ inFlight s <+: s.emitted
  all : s.source.closed = false → s.handler ≠ .returned → tried s ++ inFlight s = s.emitted

theorem Conserved.of_eq (h : Conserved s)
    (hchain : tried s' ++ inFlight s' = tried s ++ inFlight s) (hem : s'.emitted = s.emitted)
    (hclosed : s'.source.closed = false → s.source.closed = false)
    (hret : s'.handler ≠ .returned → s.handler ≠ .returned) : Conserved s' := by
  constructor
  · rw [hchain, hem]
    exact h.first
  · intro hc hr
    rw [hchain, hem]
    exact h.all (hclosed hc) (hret hr)

/-- Nothing is in flight after the handler's return. -/
theorem Conserved.of_returned (h : Conserved s) (hret : s'.handler = .returned)
    (htried : s'.attempts = s.attempts) (hem : s'.emitted = s.emitted) : Conserved s' := by
  constructor
  · have hchain : tried s' ++ inFlight s' = tried s := by
      simp [tried, inFlight, hret, htried]
    rw [hchain, hem]
    exact (List.prefix_append _ _).trans h.first
  · exact fun _ hr => absurd hret hr

/-- An open source takes an item behind all others. -/
theorem chain_send (item : Item) (hret : s.handler ≠ .returned)
    (hsource : s'.source.pending = s.source.pending ++ [item])
    (hd : s'.dispatcher = s.dispatcher) (hh : s'.handler = s.handler)
    (ha : s'.attempts = s.attempts) :
    tried s' ++ inFlight s' = (tried s ++ inFlight s) ++ [item] := by
  unfold tried inFlight
  rw [hsource, hd, hh, ha]
  cases h : s.handler with
  | selecting => simp
  | writing ev => simp
  | returned => exact absurd h hret

theorem Conserved.emit (h : Conserved s) (item : Item) :
    Conserved { s with emitted := s.emitted ++ [item], source := s.source.send cap item } := by
  have hlonger : s.emitted <+: s.emitted ++ [item] := List.prefix_append _ _
  rcases send_cases cap item s.source with ⟨hc, hsend⟩ | ⟨hc, hsend⟩ | hsend
  · rw [hsend]
    exact ⟨h.first.trans hlonger, fun hopen => absurd (hc.symm.trans hopen) (by simp)⟩
  · rw [hsend]
    by_cases hret : s.handler = .returned
    · constructor
      · have hfirst := h.first.trans hlonger
        simp only [tried, inFlight, hret] at hfirst ⊢
        exact hfirst
      · exact fun _ hr => absurd hret hr
    · have hchain := @chain_send s { s with
        emitted := s.emitted ++ [item]
        source := { s.source with pending := s.source.pending ++ [item] } } item hret rfl rfl rfl rfl
      rw [h.all hc hret] at hchain
      exact ⟨by rw [hchain], fun _ _ => hchain⟩
  · rw [hsend]
    exact ⟨h.first.trans hlonger, fun hopen => by cases hopen⟩

theorem Conserved.step (h : Conserved s) (hstep : Step cap s a s') : Conserved s' := by
  cases hstep with
  | emitted item => exact h.emit item
  | hubClosed =>
    exact h.of_eq rfl rfl (fun hc => by cases hc) id
  | disconnected => exact h.of_eq rfl rfl id id
  | took ev rest hd hp =>
    refine h.of_eq ?_ rfl id id
    simp [tried, inFlight, hd, hp, held]
  | tookForeign rest hd hp =>
    refine h.of_eq ?_ rfl id id
    simp [tried, inFlight, hd, hp, held]
  | sawClosed hd hp hc =>
    refine h.of_eq ?_ rfl id id
    simp [tried, inFlight, hd, held]
  | reported hd he =>
    refine h.of_eq ?_ rfl id id
    simp [tried, inFlight, hd, held]
  | closedErrors hd =>
    refine h.of_eq ?_ rfl id id
    simp [tried, inFlight, hd, held]
  | closedEvents hd =>
    refine h.of_eq ?_ rfl id id
    simp [tried, inFlight, hd, held]
  | delivered item hd hh hv =>
    -- an item whose event is valid is that event
    cases item with
    | foreign => exact absurd rfl hv
    | event ev =>
      refine h.of_eq ?_ rfl id (fun _ => by simp [hh])
      simp [tried, inFlight, hd, hh, held, Item.watchEvent]
  | deliveredInvalid item hd hh hv => exact h.of_returned rfl rfl rfl
  | receivedClosed hh hc => exact h.of_returned rfl rfl rfl
  | receivedError hh he => exact h.of_returned rfl rfl rfl
  | receivedDone hh hg => exact h.of_returned rfl rfl rfl
  | wrote ev ok hh =>
    refine h.of_eq ?_ rfl id (fun _ => by simp [hh])
    simp [tried, inFlight, hh]

/-- The ids count the writes that succeeded, and these are the first attempts unless one has
failed before. -/
structure Numbered (s : State) : Prop where
  written : written s = ((s.attempts.map (·.event)).take s.eventID).mapIdx sseEvent
  all : (∀ a ∈ s.attempts, a.ok = true) → s.eventID = s.attempts.length
  le : s.eventID ≤ s.attempts.length

theorem Numbered.wrote (h : Numbered s) (ev : WatchEvent) (ok : Bool)
    (hgood : ok = true → ∀ a ∈ s.attempts, a.ok = true) :
    Numbered { s with
      handler := .selecting
      attempts := s.attempts ++ [⟨ev, s.eventID, ok⟩]
      eventID := if ok then s.eventID + 1 else s.eventID } := by
  have hle := h.le
  cases ok with
  | true =>
    have hall := h.all (hgood rfl)
    constructor
    · have hwritten := h.written
      simp only [Stream.written] at hwritten ⊢
      rw [List.filter_append, List.map_append, hwritten]
      rw [List.take_of_length_le (by simp [hall]), List.take_of_length_le (by simp [hall])]
      simp [hall]
    · intro _
      simp [hall]
    · simp [hall]
  | false =>
    constructor
    · have hwritten := h.written
      simp only [Stream.written] at hwritten ⊢
      rw [List.filter_append, List.map_append, hwritten]
      simp [List.take_append_of_le_length, hle]
    · intro hok
      have := hok ⟨ev, s.eventID, false⟩ (by simp)
      cases this
    · simp
      omega

theorem Numbered.step (h : Numbered s) (hgood : FailsForGood s a) (hstep : Step cap s a s') :
    Numbered s' := by
  cases hstep with
  | wrote ev ok hh =>
    apply h.wrote ev ok
    rintro rfl
    exact hgood
  | _ => exact ⟨h.written, h.all, h.le⟩

/-- In every run in which no write succeeds after one that failed, the client receives the
first events emitted, in order and numbered from 0. -/
theorem stream_gap_free (cap : ℕ) (hubClosed : Bool) (acts : List Act)
    (h : Meets (step cap) FailsForGood (watchChanges hubClosed) acts) :
    GapFree (play (step cap) (watchChanges hubClosed) acts) := by
  have hinv : Conserved (play (step cap) (watchChanges hubClosed) acts) ∧
      Numbered (play (step cap) (watchChanges hubClosed) acts) := by
    apply play_of_meets (I := fun s => Conserved s ∧ Numbered s) ?_ ?_ h
    · intro s a hs hgood
      exact step_keeps (I := fun s => Conserved s ∧ Numbered s) hs
        fun s' hstep => ⟨hs.1.step hstep, hs.2.step hgood hstep⟩
    · refine ⟨⟨?_, ?_⟩, ⟨rfl, fun _ => rfl, le_rfl⟩⟩
      · cases hubClosed <;> decide
      · cases hubClosed <;> decide
  generalize play (step cap) (watchChanges hubClosed) acts = s at hinv
  obtain ⟨hcons, hnum⟩ := hinv
  refine ⟨(s.attempts.map (·.event)).take s.eventID, ?_, hnum.written⟩
  have htried : (s.attempts.map (·.event)).map Item.event <+: s.emitted := by
    rw [List.map_map]
    exact (List.prefix_append _ _).trans hcons.first
  exact ((List.take_prefix _ _).map Item.event).trans htried

/-- Two events, of which the second write fails, and the client leaves. -/
theorem stream_gap_free_until_failure :
    let s := play (step 8) (watchChanges false) [.emit (.event ⟨.create, "a"⟩),
      .emit (.event ⟨.delete, "b"⟩), .dispatch, .deliver, .write true, .dispatch, .deliver,
      .write false, .disconnect, .receiveDone]
    written s = [⟨"0", "Upsert", "a"⟩] ∧ GapFree s :=
  ⟨by decide, stream_gap_free 8 false _ (by decide)⟩

/-- What `GapFree` leaves the client with. -/
theorem GapFree.written_eq (h : GapFree s) :
    written s = ((s.emitted.take (written s).length).map Item.watchEvent).mapIdx sseEvent := by
  obtain ⟨evs, ⟨rest, hrest⟩, hwritten⟩ := h
  have hlength : (written s).length = (evs.map Item.event).length := by simp [hwritten]
  have hevents : (evs.map Item.event).map Item.watchEvent = evs := by
    rw [List.map_map]
    exact List.map_id evs
  rw [hlength, ← hrest, List.take_left, hevents, hwritten]

/-- The first write fails and the second succeeds: the first event is lost, and the second is
sent with its id. -/
theorem stream_gap_after_failure :
    let s := play (step 8) (watchChanges false) [.emit (.event ⟨.create, "a"⟩),
      .emit (.event ⟨.delete, "b"⟩), .dispatch, .deliver, .write false, .dispatch, .deliver,
      .write true]
    written s = [⟨"0", "Delete", "b"⟩] ∧ ¬GapFree s :=
  ⟨by decide, fun h => absurd h.written_eq (by decide)⟩

end GapFree
end RoutingApi.Stream
