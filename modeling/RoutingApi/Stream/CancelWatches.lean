import RoutingApi.Stream.Hub

/-! What is left of the streams once `CancelWatches` has closed the hub: each of them ends after a
bounded number of its own moves. -/
namespace RoutingApi.Stream.Hub
open Process

section Definitions

/-- The moves by which a stream goes on: those of its dispatcher and of its handler. -/
def goesOn : Act → Bool
  | .emit _ => false
  | .closeHub => false
  | .disconnect => false
  | _ => true

/-- The move takes the stream of subscription `i` further. -/
def progresses (cap i : ℕ) (s : System) (m : Move) : Bool :=
  (ownMoves i [m]).any fun a => goesOn a &&
    (s.subscriptions[i]?).any fun sub => (step? cap sub.stream a).isSome

def dispatcherWeight : DispatcherState → ℕ
  | .reading => 3
  | .reporting => 6
  | .offering _ => 5
  | .closingErrors => 2
  | .closingEvents => 1
  | .done => 0

def handlerWeight : HandlerState → ℕ
  | .selecting => 1
  | .writing _ => 2
  | .returned => 0

/-- A bound for the moves that a stream has left once its source is closed. -/
def weight (s : State) : ℕ :=
  4 * s.source.pending.length + dispatcherWeight s.dispatcher + handlerWeight s.handler

/-- The bound for a full buffer, which is also one for streams that do not exist yet. -/
def potential (cap i : ℕ) (s : System) : ℕ :=
  match s.subscriptions[i]? with
  | none => 4 * cap + 8
  | some sub => weight sub.stream

end Definitions

section Streams
variable {cap : ℕ} {s s' : State} {a : Act}

theorem weight_le (h : s.source.pending.length ≤ cap) : weight s ≤ 4 * cap + 8 := by
  have hd : dispatcherWeight s.dispatcher ≤ 6 := by
    cases s.dispatcher <;> simp [dispatcherWeight]
  have hh : handlerWeight s.handler ≤ 2 := by
    cases s.handler <;> simp [handlerWeight]
  unfold weight
  omega

/-- No move of a closed stream makes it longer, and one by which it goes on makes it shorter. -/
theorem weight_step (hclosed : s.source.closed = true) (hstep : Step cap s a s') :
    (if goesOn a then 1 else 0) + weight s' ≤ weight s := by
  unfold weight
  cases hstep with
  | emitted item => simp [goesOn, Source.send, hclosed]
  | hubClosed => simp [goesOn, Source.close]
  | disconnected => simp [goesOn]
  | took ev rest hd hp =>
    simp [goesOn, hd, hp, dispatcherWeight]
    omega
  | tookForeign rest hd hp =>
    simp [goesOn, hd, hp, dispatcherWeight]
    omega
  | sawClosed hd hp hc =>
    simp [goesOn, hd, hp, dispatcherWeight]
    omega
  | reported hd he =>
    simp [goesOn, hd, dispatcherWeight]
    omega
  | closedErrors hd =>
    simp [goesOn, hd, dispatcherWeight]
    omega
  | closedEvents hd =>
    simp [goesOn, hd, dispatcherWeight]
    omega
  | delivered item hd hh hv =>
    simp [goesOn, hd, hh, dispatcherWeight, handlerWeight]
    omega
  | deliveredInvalid item hd hh hv =>
    simp [goesOn, hd, hh, dispatcherWeight, handlerWeight]
    omega
  | receivedClosed hh hc =>
    simp [goesOn, hh, handlerWeight]
    omega
  | receivedError hh he =>
    simp [goesOn, hh, handlerWeight]
    omega
  | receivedDone hh hg =>
    simp [goesOn, hh, handlerWeight, Source.close]
    omega
  | wrote ev ok hh =>
    simp [goesOn, hh, handlerWeight]
    omega

/-- A dispatcher that has ended has closed its channel of events. -/
def EndsClosed (s : State) : Prop := s.dispatcher = .done → s.eventsClosed = true

theorem EndsClosed.step (h : EndsClosed s) (hstep : Step cap s a s') : EndsClosed s' := by
  cases hstep with
  | closedEvents hd => exact fun _ => rfl
  | took ev rest hd hp => exact fun hdone => by cases hdone
  | tookForeign rest hd hp => exact fun hdone => by cases hdone
  | sawClosed hd hp hc => exact fun hdone => by cases hdone
  | reported hd he => exact fun hdone => by cases hdone
  | closedErrors hd => exact fun hdone => by cases hdone
  | delivered item hd hh hv => exact fun hdone => by cases hdone
  | deliveredInvalid item hd hh hv => exact fun hdone => by cases hdone
  | _ => exact h

theorem endsClosed_play (cap : ℕ) (hubClosed : Bool) (acts : List Act) :
    EndsClosed (play (step cap) (watchChanges hubClosed) acts) := by
  apply play_invariant (I := EndsClosed)
  · exact fun s a hs => step_keeps hs fun s' hstep => hs.step hstep
  · intro hdone
    cases hubClosed with
    | false => cases hdone
    | true => rfl

/-- As long as its handler has not returned, a stream whose source is closed can go on. -/
theorem exists_move (cap : ℕ) (hclosed : s.source.closed = true) (hends : EndsClosed s)
    (hrunning : s.handler ≠ .returned) :
    ∃ a, goesOn a = true ∧ (step? cap s a).isSome = true := by
  cases hh : s.handler with
  | returned => exact absurd hh hrunning
  | writing ev => exact ⟨.write true, rfl, by simp [step?, hh]⟩
  | selecting =>
    cases hd : s.dispatcher with
    | reading =>
      refine ⟨.dispatch, rfl, ?_⟩
      cases hp : s.source.pending with
      | nil => simp [step?, dispatchStep, hd, hp, hclosed]
      | cons item rest => cases item <;> simp [step?, dispatchStep, hd, hp]
    | reporting =>
      -- a second error finds the channel full, but then the handler can receive the first
      cases he : s.errorPending with
      | true => exact ⟨.receiveError, rfl, by simp [step?, hh, he]⟩
      | false => exact ⟨.dispatch, rfl, by simp [step?, dispatchStep, hd, he]⟩
    | offering item => exact ⟨.deliver, rfl, by simp [step?, deliverStep, hd, hh]⟩
    | closingErrors => exact ⟨.dispatch, rfl, by simp [step?, dispatchStep, hd]⟩
    | closingEvents => exact ⟨.dispatch, rfl, by simp [step?, dispatchStep, hd]⟩
    | done => exact ⟨.receiveClosed, rfl, by simp [step?, hh, hends hd]⟩

end Streams

section System
variable {cap i : ℕ} {s : System}

/-- No move opens a hub that is closed. -/
theorem closed_move (m : Move) (h : s.closed = true) : (move cap s m).closed = true := by
  cases m with
  | advance =>
    simp only [move, advance]
    split <;> first | exact h | rfl
  | subscribe =>
    simp only [move]
    split <;> exact h
  | emit item =>
    simp only [move]
    split <;> exact h
  | close =>
    simp only [move]
    split <;> exact h
  | own j a =>
    simp only [move]
    split <;> exact h

/-- All sources of a closed hub are closed. -/
theorem Invariant.source_closed {sub : Subscription} (h : Invariant cap s) (hc : s.closed = true)
    (hsub : s.subscriptions[i]? = some sub) : sub.stream.source.closed = true := by
  by_contra hopen
  have hmember := (h.faithful i sub hsub).member (eq_false_of_ne_true hopen)
  rw [h.closed hc] at hmember
  cases hmember

theorem weight_see (cap : ℕ) {sub : Subscription} (hclosed : sub.stream.source.closed = true) (a : Act) :
    (if goesOn a && (step? cap sub.stream a).isSome then 1 else 0) +
      weight (sub.see cap a).stream ≤ weight sub.stream := by
  simp only [Subscription.see, step]
  cases hstep : step? cap sub.stream a with
  | none => simp
  | some s' => simpa using weight_step hclosed (step?_some hstep)

/-- What a move costs the stream of one subscription, once the hub is closed. -/
theorem potential_move (h : Invariant cap s) (hc : s.closed = true) (m : Move) :
    (if progresses cap i s m then 1 else 0) + potential cap i (move cap s m) ≤
      potential cap i s := by
  cases hafter : (move cap s m).subscriptions[i]? with
  | none =>
    have hnone : s.subscriptions[i]? = none := by
      rw [List.getElem?_eq_none_iff] at hafter ⊢
      exact (length_le_move m).trans hafter
    simp [progresses, potential, hafter, hnone]
  | some sub =>
    rcases subscription_of_move h hafter with
      ⟨hnone, rfl⟩ | ⟨old, hold, ⟨rfl, hown⟩ | ⟨a, rfl, hown⟩⟩
    · simpa [progresses, potential, hafter, hnone] using
        (weight_le (Nat.zero_le cap) : weight (watchChanges s.closed) ≤ 4 * cap + 8)
    · simp [progresses, potential, hafter, hold, hown]
    · have hcost := weight_see cap (h.source_closed hc hold) a
      have hprogresses : progresses cap i s m =
          (goesOn a && (step? cap old.stream a).isSome) := by
        unfold progresses
        rw [hown, hold]
        cases a <;> simp [goesOn, isOwn]
      simpa only [potential, hafter, hold, hprogresses] using hcost

/-- Once the hub is closed, the stream of every subscriber, early or late, makes at most
`4 * cap + 8` more moves in whatever order all streams move; and where none is left to make, its
handler has returned. -/
theorem streams_end_after_close (cap : ℕ) (ms ms' : List Move) (i : ℕ)
    (hclosed : (play (move cap) new ms).closed = true) :
    countMoves (move cap) (progresses cap i) (play (move cap) new ms) ms' ≤ 4 * cap + 8 ∧
      ∀ sub, (play (move cap) new (ms ++ ms')).subscriptions[i]? = some sub →
        (∀ a, goesOn a = true → step? cap sub.stream a = none) →
        sub.stream.handler = .returned := by
  have hinv := invariant_play cap ms
  constructor
  · have hcount : countMoves (move cap) (progresses cap i) (play (move cap) new ms) ms' +
        potential cap i (play (move cap) (play (move cap) new ms) ms') ≤
        potential cap i (play (move cap) new ms) :=
      countMoves_le (I := fun s => Invariant cap s ∧ s.closed = true)
        (fun s m hs => ⟨hs.1.move m, closed_move m hs.2⟩)
        (fun s m hs => potential_move hs.1 hs.2 m) ⟨hinv, hclosed⟩
    have hfirst : potential cap i (play (move cap) new ms) ≤ 4 * cap + 8 := by
      unfold potential
      split
      next => exact le_rfl
      next sub hsub => exact weight_le (hinv.pending_le hsub)
    omega
  · intro sub hsub hlast
    have hend := invariant_play cap (ms ++ ms')
    have hclosed' : (play (move cap) new (ms ++ ms')).closed = true := by
      rw [play_append]
      exact play_invariant (I := fun s : System => s.closed = true) (fun _ m => closed_move m) hclosed
    obtain ⟨hubClosed, halone⟩ := (hend.faithful i sub hsub).alone
    by_contra hrunning
    have hends : EndsClosed sub.stream := halone ▸ endsClosed_play cap hubClosed sub.moves
    obtain ⟨a, ha, hmove⟩ :=
      exists_move cap (hend.source_closed hclosed' hsub) hends hrunning
    rw [hlast a ha] at hmove
    cases hmove

/-- A hub is closed while an event is on its way. -/
def closingRun : List Move :=
  [.subscribe, .emit (.event ⟨.create, "a"⟩), .advance, .advance, .own 0 .dispatch, .close,
    .advance, .advance]

/-- How its stream goes on and ends. -/
def lastMoves : List Move :=
  [.own 0 .deliver, .own 0 (.write true), .own 0 .dispatch, .own 0 .dispatch, .own 0 .dispatch,
    .own 0 .receiveClosed]

/-- The event is still delivered, and the stream ends after six moves of at most twelve. -/
theorem stream_ends_after_close :
    (play (move 1) new closingRun).closed = true ∧
      countMoves (move 1) (progresses 1 0) (play (move 1) new closingRun) lastMoves = 6 ∧
      countMoves (move 1) (progresses 1 0) (play (move 1) new closingRun) lastMoves ≤ 12 ∧
      ∃ sub, (play (move 1) new (closingRun ++ lastMoves)).subscriptions[0]? = some sub ∧
        sub.stream.handler = .returned := by
  obtain ⟨hbound, hreturned⟩ := streams_end_after_close 1 closingRun lastMoves 0 (by decide)
  refine ⟨by decide, by decide, hbound, _, rfl, hreturned _ rfl ?_⟩
  intro a hgoes
  cases a with
  | write ok => cases ok <;> decide
  | _ => first | decide | cases hgoes

end System
end RoutingApi.Stream.Hub
