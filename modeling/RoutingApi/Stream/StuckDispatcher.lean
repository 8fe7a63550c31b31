import RoutingApi.Stream.EventStream

/-! Whether the goroutine of `dispatchWatchEvents` can be left behind when `handleEventStream`
has returned and nobody receives from its channels any more. -/
namespace RoutingApi.Stream
open Process

section Definitions

/-- The dispatcher can take a step, of its own or together with the handler. -/
def DispatcherMoves (s : State) : Prop := (dispatchStep s).isSome ∨ (deliverStep s).isSome

instance (s : State) : Decidable (DispatcherMoves s) :=
  inferInstanceAs (Decidable ((dispatchStep s).isSome ∨ (deliverStep s).isSome))

/-- The handler has returned, and the dispatcher has neither ended nor a step to take, now or
once the source is closed. -/
def Stuck (s : State) : Prop :=
  s.handler = .returned ∧ s.dispatcher ≠ .done ∧ ¬DispatcherMoves s ∧
    ¬DispatcherMoves { s with source := s.source.close }

instance (s : State) : Decidable (Stuck s) :=
  inferInstanceAs (Decidable (s.handler = .returned ∧ s.dispatcher ≠ .done ∧
    ¬DispatcherMoves s ∧ ¬DispatcherMoves { s with source := s.source.close }))

/-- The dispatcher is on its way out, or about to find its source closed and drained. -/
def Leaving (s : State) : Prop :=
  match s.dispatcher with
  | .reading => s.source.pending = [] ∧ s.source.closed = true
  | .reporting => False
  | .offering _ => False
  | .closingErrors => True
  | .closingEvents => True
  | .done => True

instance (s : State) : Decidable (Leaving s) := by
  unfold Leaving
  exact match s.dispatcher with
  | .reading => inferInstanceAs (Decidable (s.source.pending = [] ∧ s.source.closed = true))
  | .reporting => isFalse id
  | .offering _ => isFalse id
  | .closingErrors => isTrue trivial
  | .closingEvents => isTrue trivial
  | .done => isTrue trivial

/-- The handler does not return before the dispatcher is leaving. -/
def ReturnsLast (cap : ℕ) (s : State) (a : Act) : Prop :=
  s.handler ≠ .returned → (step cap s a).handler = .returned → Leaving (step cap s a)

instance (cap : ℕ) (s : State) (a : Act) : Decidable (ReturnsLast cap s a) :=
  inferInstanceAs (Decidable (s.handler ≠ .returned → (step cap s a).handler = .returned →
    Leaving (step cap s a)))

end Definitions

section Leaving
variable {cap : ℕ} {s s' : State} {a : Act}

theorem Leaving.not_stuck (h : Leaving s) : ¬Stuck s := by
  rintro ⟨-, hdone, hmoves, -⟩
  apply hmoves
  left
  unfold Leaving at h
  unfold dispatchStep
  cases hd : s.dispatcher with
  | reading =>
    rw [hd] at h
    simp [h.1, h.2]
  | reporting => simp [hd] at h
  | offering item => simp [hd] at h
  | closingErrors => rfl
  | closingEvents => rfl
  | done => exact absurd hd hdone

/-- A closed source is all that a dispatcher needs to leave. -/
theorem Leaving.congr (h : Leaving s) (hd : s'.dispatcher = s.dispatcher)
    (hsource : s.source.closed = true → s'.source = s.source) : Leaving s' := by
  unfold Leaving at h ⊢
  rw [hd]
  cases hs : s.dispatcher with
  | reading =>
    rw [hs] at h
    rw [hsource h.2]
    exact h
  | _ =>
    rw [hs] at h
    exact h

/-- Without the handler, a dispatcher that is leaving stays so. -/
theorem Leaving.step (h : Leaving s) (hret : s.handler = .returned) (hstep : Step cap s a s') :
    Leaving s' := by
  have hleaving := h
  unfold Leaving at h
  cases hstep with
  | emitted item => exact hleaving.congr rfl fun hc => by simp [Source.send, hc]
  | hubClosed => exact hleaving.congr rfl fun hc => by simp [Source.close, ← hc]
  | disconnected => exact h
  | took ev rest hd hp => simp [hd, hp] at h
  | tookForeign rest hd hp => simp [hd, hp] at h
  | sawClosed hd hp hc => trivial
  | reported hd he => simp [hd] at h
  | closedErrors hd => trivial
  | closedEvents hd => trivial
  | delivered item hd hh hv => simp [hret] at hh
  | deliveredInvalid item hd hh hv => simp [hret] at hh
  | receivedClosed hh hc => simp [hret] at hh
  | receivedError hh he => simp [hret] at hh
  | receivedDone hh hg => simp [hret] at hh
  | wrote ev ok hh => simp [hret] at hh

/-- No handler comes back. -/
theorem Step.returned (hstep : Step cap s a s') (h : s.handler = .returned) :
    s'.handler = .returned := by
  cases hstep with
  | delivered item hd hh hv => simp [h] at hh
  | wrote ev ok hh => simp [h] at hh
  | deliveredInvalid => rfl
  | receivedClosed => rfl
  | receivedError => rfl
  | receivedDone => rfl
  | _ => exact h

/-- A dispatcher that is leaving ends by its own steps. -/
theorem ends_of_leaving (h : Leaving s) :
    (play (step cap) s [.dispatch, .dispatch, .dispatch]).dispatcher = .done := by
  unfold Leaving at h
  cases hd : s.dispatcher with
  | reading =>
    rw [hd] at h
    simp [step, step?, dispatchStep, hd, h.1, h.2]
  | reporting => simp [hd] at h
  | offering item => simp [hd] at h
  | closingErrors => simp [step, step?, dispatchStep, hd]
  | closingEvents => simp [step, step?, dispatchStep, hd]
  | done => simp [step, step?, dispatchStep, hd]

/-- Nobody receives what a dispatcher without its handler offers. -/
theorem stuck_of_offering (item : Item) (hret : s.handler = .returned)
    (hd : s.dispatcher = .offering item) : Stuck s := by
  simp [Stuck, DispatcherMoves, dispatchStep, deliverStep, hret, hd]

theorem stuck_of_reporting (hret : s.handler = .returned) (hd : s.dispatcher = .reporting) :
    ∃ acts, Stuck (play (step cap) s acts) := by
  cases he : s.errorPending with
  | true =>
    refine ⟨[], ?_⟩
    simp [Stuck, DispatcherMoves, dispatchStep, deliverStep, hret, hd, he]
  | false =>
    refine ⟨[.dispatch], stuck_of_offering .foreign ?_ ?_⟩
    · simp [step, step?, dispatchStep, hret, hd, he]
    · simp [step, step?, dispatchStep, hd, he]

theorem stuck_of_pending (hret : s.handler = .returned) (hd : s.dispatcher = .reading)
    {item : Item} {rest : List Item} (hp : s.source.pending = item :: rest) :
    ∃ acts, Stuck (play (step cap) s acts) := by
  cases item with
  | event ev =>
    refine ⟨[.dispatch], stuck_of_offering (.event ev) ?_ ?_⟩
    · simp [step, step?, dispatchStep, hret, hd, hp]
    · simp [step, step?, dispatchStep, hd, hp]
  | foreign =>
    have hreporting : (step cap s .dispatch).dispatcher = .reporting := by
      simp [step, step?, dispatchStep, hd, hp]
    have hreturned : (step cap s .dispatch).handler = .returned := by
      simp [step, step?, dispatchStep, hret, hd, hp]
    obtain ⟨acts, hacts⟩ := stuck_of_reporting hreturned hreporting
    exact ⟨.dispatch :: acts, hacts⟩

/-- Once the handler has returned, a dispatcher that is not leaving can still get stuck. -/
theorem leaving_iff (hcap : 0 < cap) (hret : s.handler = .returned) :
    Leaving s ↔ ∀ acts, ¬Stuck (play (step cap) s acts) := by
  constructor
  · intro h acts
    have hplay : (play (step cap) s acts).handler = .returned ∧
        Leaving (play (step cap) s acts) := by
      apply play_invariant (I := fun s => s.handler = .returned ∧ Leaving s) ?_ ⟨hret, h⟩
      intro s a hs
      apply step_keeps (I := fun s => s.handler = .returned ∧ Leaving s) hs
      exact fun s' hstep => ⟨hstep.returned hs.1, hs.2.step hs.1 hstep⟩
    exact hplay.2.not_stuck
  · intro h
    by_contra hstays
    have hstuck : ∃ acts, Stuck (play (step cap) s acts) := by
      unfold Leaving at hstays
      cases hd : s.dispatcher with
      | reading =>
        rw [hd] at hstays
        cases hp : s.source.pending with
        | cons item rest => exact stuck_of_pending hret hd hp
        | nil =>
          -- the source is open, and takes the next item
          have hopen : s.source.closed = false := by simpa [hp] using hstays
          have hsent : (step cap s (.emit .foreign)).source.pending = [.foreign] := by
            simp [step, step?, Source.send, hopen, hp, hcap]
          obtain ⟨acts, hacts⟩ : ∃ acts, Stuck (play (step cap) (step cap s (.emit .foreign)) acts) :=
            stuck_of_pending hret hd hsent
          exact ⟨.emit .foreign :: acts, hacts⟩
      | reporting => exact stuck_of_reporting hret hd
      | offering item => exact ⟨[], stuck_of_offering item hret hd⟩
      | closingErrors => simp [hd] at hstays
      | closingEvents => simp [hd] at hstays
      | done => simp [hd] at hstays
    obtain ⟨acts, hacts⟩ := hstuck
    exact h acts hacts

/-- In every run in which the handler does not return before the dispatcher is leaving, the
dispatcher is never stuck. -/
theorem dispatcher_never_stuck (cap : ℕ) (hubClosed : Bool) (acts : List Act)
    (h : Meets (step cap) (ReturnsLast cap) (watchChanges hubClosed) acts) :
    Always (step cap) (fun s => ¬Stuck s) (watchChanges hubClosed) acts := by
  have hleaving : Always (step cap) (fun s => s.handler = .returned → Leaving s)
      (watchChanges hubClosed) acts := by
    apply always_of_meets ?_ ?_ h
    · intro s a hs hlast hret
      by_cases hbefore : s.handler = .returned
      · exact step_keeps (hs hbefore) fun s' hstep => (hs hbefore).step hbefore hstep
      · exact hlast hbefore hret
    · intro hret
      cases hret
  apply hleaving.mono
  intro s hs hstuck
  exact (hs hstuck.1).not_stuck hstuck

/-- The client leaves while nothing is on its way; the dispatcher sees its source closed. -/
theorem dispatcher_ends_when_idle :
    let acts : List Act := [.emit (.event ⟨.create, "a"⟩), .dispatch, .deliver, .write true,
      .disconnect, .receiveDone, .dispatch, .dispatch, .dispatch]
    Always (step 8) (fun s => ¬Stuck s) (watchChanges false) acts ∧
      (play (step 8) (watchChanges false) acts).dispatcher = .done :=
  ⟨dispatcher_never_stuck 8 false _ (by decide), by decide⟩

/-- The client leaves while the dispatcher offers an event: the handler closes the source and
returns, and the dispatcher waits for a receiver forever. -/
theorem dispatcher_stuck_after_disconnect :
    Stuck (play (step 8) (watchChanges false)
      [.emit (.event ⟨.create, "a"⟩), .dispatch, .disconnect, .receiveDone]) := by
  decide

end Leaving
end RoutingApi.Stream
