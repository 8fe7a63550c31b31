import RoutingApi.Stream.EventStream

/-! The event hub with all the subscriptions made to it. `Emit` and `Close` hold the lock of the
hub while they go from one source to the next; the subscriptions go on in between. -/
namespace RoutingApi.Stream.Hub
open Process

section Model

/-- Who holds the lock of the hub, and what is left to do before it is released. -/
inductive Lock where
  | free
  | emitting (item : Item) (todo remaining : List ℕ)
  | closing (todo : List ℕ)
  deriving DecidableEq, Repr

/-- One call of `WatchChanges` and what has come of it. `start` is the number of items emitted
before it and `moves` what has happened to it since; nothing reads these two. -/
structure Subscription where
  start : ℕ
  moves : List Act
  stream : State
  deriving DecidableEq, Repr

/-- The sources of the hub are numbered as they were made; `log` is all that was emitted. -/
structure System where
  subscribers : List ℕ
  closed : Bool
  lock : Lock
  log : List Item
  subscriptions : List Subscription
  deriving DecidableEq, Repr

/-- `NewNonBlocking`. -/
def new : System := ⟨[], false, .free, [], []⟩

inductive Move where
  | subscribe
  | emit (item : Item)
  | close
  | advance
  | own (i : ℕ) (a : Act)
  deriving DecidableEq, Repr

/-- `send` returns no error. -/
def accepts (cap : ℕ) (src : Source) : Bool := !src.closed && decide (src.pending.length < cap)

/-- The moves of a subscription that are not made by the hub. -/
def isOwn : Act → Bool
  | .emit _ => false
  | .closeHub => false
  | _ => true

/-- One more move of a subscription. -/
def Subscription.see (cap : ℕ) (a : Act) (sub : Subscription) : Subscription :=
  { sub with moves := sub.moves ++ [a], stream := step cap sub.stream a }

/-- An item passes a source that the hub does not send to any more. -/
def Subscription.miss (item : Item) (sub : Subscription) : Subscription :=
  { sub with
    moves := sub.moves ++ [.emit item]
    stream := { sub.stream with emitted := sub.stream.emitted ++ [item] } }

/-- `Subscribe`, and what `WatchChanges` makes of it. -/
def subscribe (s : System) : System :=
  { s with
    subscribers := if s.closed then s.subscribers else s.subscribers ++ [s.subscriptions.length]
    subscriptions := s.subscriptions ++ [⟨s.log.length, [], watchChanges s.closed⟩] }

/-- The first part of `Emit`, up to the loop. -/
def beginEmit (item : Item) (s : System) : System :=
  { s with
    lock := .emitting item s.subscribers []
    log := s.log ++ [item]
    subscriptions := s.subscriptions.mapIdx fun i sub =>
      if i ∈ s.subscribers then sub else sub.miss item }

/-- One turn of the loop in `Emit`: a source stays if its `send` returned no error. -/
def sendTo (cap : ℕ) (item : Item) (i : ℕ) (todo remaining : List ℕ) (s : System) : System :=
  { s with
    lock := .emitting item todo
      (if (s.subscriptions[i]?).any (accepts cap ·.stream.source) then remaining ++ [i]
        else remaining)
    subscriptions := s.subscriptions.modify i (Subscription.see cap (.emit item)) }

/-- One turn of the loop in `closeSubscribers`. -/
def closeNext (cap : ℕ) (i : ℕ) (todo : List ℕ) (s : System) : System :=
  { s with
    lock := .closing todo
    subscriptions := s.subscriptions.modify i (Subscription.see cap .closeHub) }

/-- The goroutine that holds the lock goes on. -/
def advance (cap : ℕ) (s : System) : System :=
  match s.lock with
  | .free => s
  | .emitting item (i :: todo) remaining => sendTo cap item i todo remaining s
  | .emitting _ [] remaining => { s with subscribers := remaining, lock := .free }
  | .closing (i :: todo) => closeNext cap i todo s
  | .closing [] => { s with subscribers := [], closed := true, lock := .free }

/-- A move that has to wait for the lock, or is not one of the subscription's own, changes
nothing. -/
def move (cap : ℕ) (s : System) : Move → System
  | .subscribe => if s.lock = .free then subscribe s else s
  | .emit item => if s.lock = .free then beginEmit item s else s
  | .close =>
    if s.lock = .free ∧ s.closed = false then { s with lock := .closing s.subscribers } else s
  | .advance => advance cap s
  | .own i a =>
    if isOwn a then { s with subscriptions := s.subscriptions.modify i (Subscription.see cap a) }
    else s

/-- The sources that can still be open: the others are closed, and stay closed. -/
def members (s : System) : List ℕ :=
  match s.lock with
  | .free => s.subscribers
  | .emitting _ todo remaining => todo ++ remaining
  | .closing todo => todo

/-- What a subscriber has yet to be sent of the item that is being emitted. -/
def awaited (s : System) (i : ℕ) : List Item :=
  match s.lock with
  | .emitting item todo _ => if i ∈ todo then [item] else []
  | _ => []

end Model

section Subscriptions
variable {cap : ℕ} {s : System} {i j : ℕ} {sub : Subscription} {item : Item}

/-- A closed source keeps nothing of what it is sent, so it makes no difference that the hub has
forgotten it. -/
theorem miss_eq_see (cap : ℕ) (h : sub.stream.source.closed = true) :
    sub.miss item = sub.see cap (.emit item) := by
  simp [Subscription.miss, Subscription.see, step, step?, Source.send, h]

/-- The subscriptions of a system after one of them has moved. -/
theorem getElem?_see {a : Act}
    (h : (s.subscriptions.modify i (Subscription.see cap a))[j]? = some sub) :
    ∃ old, s.subscriptions[j]? = some old ∧ sub = if i = j then old.see cap a else old := by
  rw [List.getElem?_modify] at h
  cases hold : s.subscriptions[j]? with
  | none => simp [hold] at h
  | some old =>
    refine ⟨old, rfl, ?_⟩
    rw [hold] at h
    exact (Option.some.inj h).symm

/-- The state of a subscription is one that it reaches alone with the moves it has seen, and
these bring it what was emitted after it was made; it is a member unless its source is closed. -/
structure Faithful (cap : ℕ) (s : System) (i : ℕ) (sub : Subscription) : Prop where
  alone : ∃ hubClosed, sub.stream = play (step cap) (watchChanges hubClosed) sub.moves
  early : sub.start ≤ s.log.length
  since : s.log.drop sub.start = sub.stream.emitted ++ awaited s i
  member : sub.stream.source.closed = false → i ∈ members s

structure Invariant (cap : ℕ) (s : System) : Prop where
  faithful : ∀ i sub, s.subscriptions[i]? = some sub → Faithful cap s i sub
  nodup : (members s).Nodup
  bound : ∀ i ∈ members s, i < s.subscriptions.length
  closed : s.closed = true → members s = []

theorem Subscription.see_alone {a : Act}
    (h : ∃ hubClosed, sub.stream = play (step cap) (watchChanges hubClosed) sub.moves) :
    ∃ hubClosed, (sub.see cap a).stream =
      play (step cap) (watchChanges hubClosed) (sub.see cap a).moves := by
  obtain ⟨hubClosed, hplay⟩ := h
  refine ⟨hubClosed, ?_⟩
  simp [Subscription.see, play_append, ← hplay]

/-- A move of the subscription's own emits nothing and opens no source. -/
theorem step_own {st : State} {a : Act} (ha : isOwn a = true) :
    (step cap st a).emitted = st.emitted ∧
      ((step cap st a).source.closed = false → st.source.closed = false) := by
  apply step_keeps (I := fun st' => st'.emitted = st.emitted ∧
    (st'.source.closed = false → st.source.closed = false)) ⟨rfl, id⟩
  intro st' hstep
  cases hstep with
  | emitted item => cases ha
  | hubClosed => cases ha
  | receivedDone hh hg => exact ⟨rfl, fun hc => by cases hc⟩
  | _ => exact ⟨rfl, id⟩

end Subscriptions

section Moves
variable {cap : ℕ} {s : System}

theorem Invariant.subscribe (h : Invariant cap s) (hfree : s.lock = .free) :
    Invariant cap (subscribe s) := by
  have hmembers : members s = s.subscribers := by simp [members, hfree]
  have hmembers' : members (Hub.subscribe s) = (Hub.subscribe s).subscribers := by
    simp [members, Hub.subscribe, hfree]
  have hawaited (i : ℕ) : awaited (Hub.subscribe s) i = [] := by
    simp [awaited, Hub.subscribe, hfree]
  have hkept (i : ℕ) (hi : i ∈ s.subscribers) : i ∈ (Hub.subscribe s).subscribers := by
    simp only [Hub.subscribe]
    split
    · exact hi
    · exact List.mem_append_left _ hi
  constructor
  · intro i sub hsub
    have hlast : (s.subscriptions ++ [⟨s.log.length, [], watchChanges s.closed⟩])[i]? = some sub :=
      hsub
    rw [List.getElem?_append] at hlast
    split at hlast
    next =>
      have hold := h.faithful i sub hlast
      refine ⟨hold.alone, hold.early, ?_, ?_⟩
      · have hsince := hold.since
        rw [hawaited]
        simpa [awaited, hfree, Hub.subscribe] using hsince
      · intro hopen
        rw [hmembers']
        exact hkept i (hmembers ▸ hold.member hopen)
    next hlen =>
      -- the new one
      obtain ⟨hi, rfl⟩ : i = s.subscriptions.length ∧
          (⟨s.log.length, [], watchChanges s.closed⟩ : Subscription) = sub := by
        rw [List.getElem?_singleton] at hlast
        split at hlast
        next hz => exact ⟨by omega, Option.some.inj hlast⟩
        next => cases hlast
      refine ⟨⟨s.closed, rfl⟩, le_rfl, ?_, ?_⟩
      · rw [hawaited]
        simp [Hub.subscribe, watchChanges]
      · intro hopen
        have hc : s.closed = false := hopen
        rw [hmembers', hi]
        simp [Hub.subscribe, hc]
  · rw [hmembers']
    have hnodup := h.nodup
    rw [hmembers] at hnodup
    simp only [Hub.subscribe]
    split
    · exact hnodup
    · refine List.nodup_append.mpr ⟨hnodup, List.nodup_singleton _, ?_⟩
      intro i hi j hj
      have hlt := h.bound i (hmembers ▸ hi)
      rw [List.mem_singleton] at hj
      omega
  · intro i hi
    rw [hmembers'] at hi
    simp only [Hub.subscribe, List.length_append, List.length_singleton] at hi ⊢
    split at hi
    · exact Nat.lt_succ_of_lt (h.bound i (hmembers ▸ hi))
    · rcases List.mem_append.mp hi with hi | hi
      · exact Nat.lt_succ_of_lt (h.bound i (hmembers ▸ hi))
      · rw [List.mem_singleton] at hi
        omega
  · intro hc
    have hc' : s.closed = true := hc
    rw [hmembers']
    simp only [Hub.subscribe, hc', if_true]
    rw [← hmembers]
    exact h.closed hc'

theorem Invariant.beginEmit (h : Invariant cap s) (hfree : s.lock = .free) (item : Item) :
    Invariant cap (beginEmit item s) := by
  have hmembers : members (Hub.beginEmit item s) = members s := by
    simp [members, Hub.beginEmit, hfree]
  have hsubscribers : members s = s.subscribers := by simp [members, hfree]
  refine ⟨?_, by rw [hmembers]; exact h.nodup, ?_, ?_⟩
  · intro i sub hsub
    simp only [Hub.beginEmit, List.getElem?_mapIdx, Option.map_eq_some_iff] at hsub
    obtain ⟨old, hold, hsub⟩ := hsub
    have hfaithful := h.faithful i old hold
    have hsince : s.log.drop old.start = old.stream.emitted := by
      have := hfaithful.since
      simpa [awaited, hfree] using this
    have hlog : (s.log ++ [item]).drop old.start = old.stream.emitted ++ [item] := by
      rw [List.drop_append_of_le_length hfaithful.early, hsince]
    have hearly : old.start ≤ (s.log ++ [item]).length := by
      have := hfaithful.early
      simp
      omega
    by_cases hi : i ∈ s.subscribers
    · rw [if_pos hi] at hsub
      subst hsub
      refine ⟨hfaithful.alone, hearly, ?_, ?_⟩
      · simpa [awaited, Hub.beginEmit, hi] using hlog
      · intro _
        rw [hmembers, hsubscribers]
        exact hi
    · rw [if_neg hi] at hsub
      have hclosed : old.stream.source.closed = true := by
        by_contra hopen
        exact hi (hsubscribers ▸ hfaithful.member (eq_false_of_ne_true hopen))
      rw [← hsub]
      refine ⟨?_, hearly, ?_, ?_⟩
      · rw [miss_eq_see cap hclosed]
        exact Subscription.see_alone hfaithful.alone
      · simpa [awaited, Hub.beginEmit, hi, Subscription.miss] using hlog
      · intro hopen
        exact absurd (hclosed.symm.trans hopen) (by simp)
  · intro i hi
    rw [hmembers] at hi
    simpa [Hub.beginEmit] using h.bound i hi
  · intro hc
    rw [hmembers]
    exact h.closed hc

/-- One subscription that is not a member any more, or stays one, takes a step. -/
theorem Invariant.seen {s' : System} (h : Invariant cap s) (i : ℕ) (a : Act)
    (hsubs : s'.subscriptions = s.subscriptions.modify i (Subscription.see cap a))
    (hlog : s'.log = s.log) (hclosed : s'.closed = s.closed)
    (hnodup : (members s').Nodup) (hmembers : members s' ⊆ members s)
    (hothers : ∀ j, j ≠ i → j ∈ members s → j ∈ members s')
    (hawaited : ∀ j, j ≠ i → awaited s' j = awaited s j)
    (hemitted : ∀ st : State, (step cap st a).emitted ++ awaited s' i = st.emitted ++ awaited s i)
    (hopen : ∀ sub, s.subscriptions[i]? = some sub →
      (step cap sub.stream a).source.closed = false → i ∈ members s') :
    Invariant cap s' := by
  refine ⟨?_, hnodup, ?_, ?_⟩
  · intro j sub hsub
    rw [hsubs] at hsub
    obtain ⟨old, hold, rfl⟩ := getElem?_see hsub
    have hfaithful := h.faithful j old hold
    by_cases hij : i = j
    · subst hij
      rw [if_pos rfl]
      refine ⟨Subscription.see_alone hfaithful.alone, ?_, ?_, hopen old hold⟩
      · rw [hlog]
        exact hfaithful.early
      · rw [hlog]
        exact hfaithful.since.trans (hemitted old.stream).symm
    · rw [if_neg hij]
      have hji : j ≠ i := fun hji => hij hji.symm
      refine ⟨hfaithful.alone, ?_, ?_, fun ho => hothers j hji (hfaithful.member ho)⟩
      · rw [hlog]
        exact hfaithful.early
      · rw [hlog, hawaited j hji]
        exact hfaithful.since
  · intro j hj
    rw [hsubs, List.length_modify]
    exact h.bound j (hmembers hj)
  · intro hc
    have hnone := h.closed (hclosed ▸ hc)
    rw [hnone] at hmembers
    exact List.subset_nil.mp hmembers

theorem Invariant.own (h : Invariant cap s) (i : ℕ) {a : Act} (ha : isOwn a = true) :
    Invariant cap { s with
      subscriptions := s.subscriptions.modify i (Subscription.see cap a) } := by
  apply Invariant.seen h i a
  case hsubs => rfl
  case hlog => rfl
  case hclosed => rfl
  case hnodup => exact h.nodup
  case hmembers => exact fun _ => id
  case hothers => exact fun _ _ => id
  case hawaited => exact fun _ _ => rfl
  case hemitted =>
    intro st
    rw [(step_own ha).1]
    rfl
  case hopen =>
    intro sub hsub hopen
    exact (h.faithful i sub hsub).member ((step_own ha).2 hopen)

/-- A source that is open after a send was open and had room. -/
theorem accepts_of_open {st : State} {item : Item}
    (h : (step cap st (.emit item)).source.closed = false) : accepts cap st.source = true := by
  have hsend : (st.source.send cap item).closed = false := h
  unfold Source.send at hsend
  split at hsend
  next hc => exact absurd (hc.symm.trans hsend) (by simp)
  next hc =>
    split at hsend
    next hroom => simp [accepts, hroom, eq_false_of_ne_true hc]
    next => cases hsend

theorem Invariant.sendTo {item : Item} {i : ℕ} {todo remaining : List ℕ} (h : Invariant cap s)
    (hlock : s.lock = .emitting item (i :: todo) remaining) :
    Invariant cap (sendTo cap item i todo remaining s) := by
  have hmembers : members s = (i :: todo) ++ remaining := by simp [members, hlock]
  have hnodup := h.nodup
  rw [hmembers] at hnodup
  obtain ⟨hi, hrest⟩ := List.nodup_cons.mp hnodup
  have htodo : i ∉ todo := fun hmem => hi (List.mem_append_left _ hmem)
  -- the source is a member after the send exactly if it has taken the item
  obtain ⟨kept, hkept, hlock'⟩ : ∃ kept, (kept = remaining ∨ kept = remaining ++ [i]) ∧
      (Hub.sendTo cap item i todo remaining s).lock = .emitting item todo kept := by
    unfold Hub.sendTo
    split
    · exact ⟨_, .inr rfl, rfl⟩
    · exact ⟨_, .inl rfl, rfl⟩
  have hmembers' : members (Hub.sendTo cap item i todo remaining s) = todo ++ kept := by
    simp [members, hlock']
  apply h.seen i (.emit item)
  case hsubs => rfl
  case hlog => rfl
  case hclosed => rfl
  case hnodup =>
    rw [hmembers']
    rcases hkept with rfl | rfl
    · exact hrest
    · rw [← List.append_assoc]
      exact (List.perm_append_singleton i _).nodup_iff.mpr hnodup
  case hmembers =>
    rw [hmembers', hmembers]
    intro j hj
    rcases hkept with rfl | rfl <;> simp at hj ⊢ <;> tauto
  case hothers =>
    intro j hji hj
    rw [hmembers] at hj
    rw [hmembers']
    rcases hkept with rfl | rfl <;> simp [hji] at hj ⊢ <;> tauto
  case hawaited =>
    intro j hji
    simp [awaited, hlock, hlock', hji]
  case hemitted =>
    intro st
    simp [awaited, hlock, hlock', htodo, step, step?]
  case hopen =>
    intro sub hsub hopen
    have haccepts := accepts_of_open hopen
    simp [members, Hub.sendTo, hsub, haccepts]

theorem Invariant.closeNext {i : ℕ} {todo : List ℕ} (h : Invariant cap s)
    (hlock : s.lock = .closing (i :: todo)) : Invariant cap (closeNext cap i todo s) := by
  have hmembers : members s = i :: todo := by simp [members, hlock]
  have hnodup := h.nodup
  rw [hmembers] at hnodup
  apply h.seen i .closeHub
  case hsubs => rfl
  case hlog => rfl
  case hclosed => rfl
  case hnodup => exact (List.nodup_cons.mp hnodup).2
  case hmembers =>
    rw [hmembers]
    exact List.subset_cons_self i todo
  case hothers =>
    intro j hji hj
    rw [hmembers] at hj
    exact (List.mem_cons.mp hj).resolve_left hji
  case hawaited =>
    intro j _
    simp [awaited, hlock, Hub.closeNext]
  case hemitted =>
    intro st
    simp [awaited, hlock, Hub.closeNext, step, step?]
  case hopen =>
    intro sub _ hopen
    cases hopen

/-- The lock changes hands, and the members stay. -/
theorem Invariant.relocked (h : Invariant cap s) {subscribers : List ℕ} {closed : Bool}
    {lock : Lock}
    (hmembers : members { s with subscribers := subscribers, closed := closed, lock := lock } =
      members s)
    (hawaited : ∀ i, awaited { s with
      subscribers := subscribers, closed := closed, lock := lock } i = awaited s i)
    (hclosed : closed = true → members s = []) :
    Invariant cap { s with subscribers := subscribers, closed := closed, lock := lock } := by
  refine ⟨?_, ?_, ?_, ?_⟩
  · intro i sub hsub
    have hfaithful := h.faithful i sub hsub
    refine ⟨hfaithful.alone, hfaithful.early, ?_, ?_⟩
    · rw [hawaited i]
      exact hfaithful.since
    · rw [hmembers]
      exact hfaithful.member
  · rw [hmembers]
    exact h.nodup
  · rw [hmembers]
    exact h.bound
  · rw [hmembers]
    exact hclosed

theorem Invariant.advance (h : Invariant cap s) : Invariant cap (advance cap s) := by
  unfold Hub.advance
  split
  next => exact h
  next item i todo remaining hlock => exact h.sendTo hlock
  next item remaining hlock =>
    apply h.relocked
    · simp [members, hlock]
    · simp [awaited, hlock]
    · exact h.closed
  next i todo hlock => exact h.closeNext hlock
  next hlock =>
    have hnone : members s = [] := by simp [members, hlock]
    apply h.relocked
    · rw [hnone]
      rfl
    · simp [awaited, hlock]
    · exact fun _ => hnone

theorem Invariant.move (h : Invariant cap s) (m : Move) : Invariant cap (move cap s m) := by
  cases m with
  | subscribe =>
    simp only [Hub.move]
    split
    next hfree => exact h.subscribe hfree
    next => exact h
  | emit item =>
    simp only [Hub.move]
    split
    next hfree => exact h.beginEmit hfree item
    next => exact h
  | close =>
    simp only [Hub.move]
    split
    next hc =>
      apply h.relocked
      · simp [members, hc.1]
      · simp [awaited, hc.1]
      · exact h.closed
    next => exact h
  | advance => exact h.advance
  | own i a =>
    simp only [Hub.move]
    split
    next ha => exact h.own i ha
    next => exact h

theorem invariant_new : Invariant cap new := by
  refine ⟨?_, List.nodup_nil, ?_, ?_⟩
  · intro i sub hsub
    simp [new] at hsub
  · intro i hi
    cases hi
  · intro hc
    cases hc

theorem invariant_play (cap : ℕ) (ms : List Move) : Invariant cap (play (move cap) new ms) :=
  play_invariant (I := Invariant cap) (fun _ m h => h.move m) invariant_new

end Moves

section Independence
variable {cap : ℕ} {s : System} {i : ℕ} {sub : Subscription}

/-- The moves that a subscription makes of its own in a run of the system. -/
def ownMoves (i : ℕ) (ms : List Move) : List Act :=
  ms.filterMap fun
    | .own j a => if j = i ∧ isOwn a = true then some a else none
    | _ => none

/-- What a move of the system is for one of the subscriptions: its beginning, nothing, or a move
that it sees. -/
theorem subscription_of_move {m : Move} (hs : Invariant cap s)
    (h : (move cap s m).subscriptions[i]? = some sub) :
    (s.subscriptions[i]? = none ∧ sub = ⟨s.log.length, [], watchChanges s.closed⟩) ∨
      ∃ old, s.subscriptions[i]? = some old ∧ ((sub = old ∧ ownMoves i [m] = []) ∨
        ∃ a, sub = old.see cap a ∧ ownMoves i [m] = [a].filter isOwn) := by
  -- the three moves that go to one subscription
  have hsee {j : ℕ} {a : Act} (hown : ownMoves i [m] = if j = i then [a].filter isOwn else [])
      (h : (s.subscriptions.modify j (Subscription.see cap a))[i]? = some sub) :
      ∃ old, s.subscriptions[i]? = some old ∧ ((sub = old ∧ ownMoves i [m] = []) ∨
        ∃ a, sub = old.see cap a ∧ ownMoves i [m] = [a].filter isOwn) := by
    obtain ⟨old, hold, rfl⟩ := getElem?_see h
    refine ⟨old, hold, ?_⟩
    split
    next hji => exact .inr ⟨a, rfl, by rw [hown, if_pos hji]⟩
    next hji => exact .inl ⟨rfl, by rw [hown, if_neg hji]⟩
  cases m with
  | subscribe =>
    simp only [move] at h
    split at h
    next =>
      simp only [subscribe, List.getElem?_append] at h
      split at h
      next => exact .inr ⟨sub, h, .inl ⟨rfl, rfl⟩⟩
      next hlen =>
        rw [List.getElem?_singleton] at h
        split at h
        next =>
          exact .inl ⟨List.getElem?_eq_none (Nat.le_of_not_lt hlen), (Option.some.inj h).symm⟩
        next => cases h
    next => exact .inr ⟨sub, h, .inl ⟨rfl, rfl⟩⟩
  | emit item =>
    simp only [move] at h
    split at h
    next hfree =>
      simp only [beginEmit, List.getElem?_mapIdx, Option.map_eq_some_iff] at h
      obtain ⟨old, hold, h⟩ := h
      refine .inr ⟨old, hold, ?_⟩
      split at h
      next => exact .inl ⟨h.symm, rfl⟩
      next hi =>
        have hclosed : old.stream.source.closed = true := by
          by_contra hopen
          have hmember := (hs.faithful i old hold).member (eq_false_of_ne_true hopen)
          exact hi (by simpa [members, hfree] using hmember)
        exact .inr ⟨.emit item, by rw [← h, miss_eq_see cap hclosed], rfl⟩
    next => exact .inr ⟨sub, h, .inl ⟨rfl, rfl⟩⟩
  | close =>
    refine .inr ⟨sub, ?_, .inl ⟨rfl, rfl⟩⟩
    simp only [move] at h
    split at h
    next => exact h
    next => exact h
  | advance =>
    simp only [move, advance] at h
    split at h
    next => exact .inr ⟨sub, h, .inl ⟨rfl, rfl⟩⟩
    next item j todo remaining _ => exact .inr (hsee (by simp [ownMoves, isOwn]) h)
    next => exact .inr ⟨sub, h, .inl ⟨rfl, rfl⟩⟩
    next j todo _ => exact .inr (hsee (by simp [ownMoves, isOwn]) h)
    next => exact .inr ⟨sub, h, .inl ⟨rfl, rfl⟩⟩
  | own j a =>
    simp only [move] at h
    split at h
    next ha =>
      refine .inr (hsee ?_ h)
      by_cases hji : j = i <;> simp [ownMoves, ha, hji]
    next ha => exact .inr ⟨sub, h, .inl ⟨rfl, by simp [ownMoves, ha]⟩⟩

/-- Subscriptions are never taken off the list. -/
theorem length_le_move (m : Move) :
    s.subscriptions.length ≤ (move cap s m).subscriptions.length := by
  cases m with
  | subscribe =>
    simp only [move]
    split
    · simp [subscribe]
    · exact le_rfl
  | emit item =>
    simp only [move]
    split
    · simp [beginEmit]
    · exact le_rfl
  | close =>
    simp only [move]
    split <;> exact le_rfl
  | advance =>
    simp only [move, advance]
    split <;> simp [sendTo, closeNext]
  | own j a =>
    simp only [move]
    split
    · simp
    · exact le_rfl

/-- A handler does not take back what it has tried to write. -/
theorem attempts_step (st : State) (a : Act) : st.attempts <+: (step cap st a).attempts := by
  apply step_keeps (I := fun st' => st.attempts <+: st'.attempts) (List.prefix_refl _)
  intro st' hstep
  cases hstep with
  | wrote ev ok hh => exact List.prefix_append _ _
  | _ => exact List.prefix_refl _

/-- A subscription stays, and what its handler has tried to write. -/
theorem subscription_later {old : Subscription} (hs : Invariant cap s)
    (hold : s.subscriptions[i]? = some old) (m : Move) :
    ∃ sub, (move cap s m).subscriptions[i]? = some sub ∧ sub.start = old.start ∧
      old.stream.attempts <+: sub.stream.attempts := by
  have hlt : i < (move cap s m).subscriptions.length :=
    (List.getElem?_eq_some_iff.mp hold).1.trans_le (length_le_move m)
  refine ⟨_, List.getElem?_eq_getElem hlt, ?_⟩
  rcases subscription_of_move hs (List.getElem?_eq_getElem hlt) with
    ⟨hnone, -⟩ | ⟨old', hold', ⟨heq, -⟩ | ⟨a, heq, -⟩⟩
  · rw [hold] at hnone
    cases hnone
  · cases hold.symm.trans hold'
    rw [heq]
    exact ⟨rfl, List.prefix_refl _⟩
  · cases hold.symm.trans hold'
    rw [heq]
    exact ⟨rfl, attempts_step old.stream a⟩

/-- Nothing is taken off the log. -/
theorem log_move (cap : ℕ) (s : System) (m : Move) : s.log <+: (move cap s m).log := by
  cases m with
  | emit item =>
    simp only [move]
    split
    · exact List.prefix_append _ _
    · exact List.prefix_refl _
  | subscribe =>
    simp only [move]
    split <;> exact List.prefix_refl _
  | close =>
    simp only [move]
    split <;> exact List.prefix_refl _
  | advance =>
    simp only [move, advance]
    split <;> exact List.prefix_refl _
  | own i a =>
    simp only [move]
    split <;> exact List.prefix_refl _

/-- Of its own moves a subscription has seen those made since it exists, in their order. -/
theorem own_moves_seen (cap : ℕ) (ms : List Move) (i : ℕ) (sub : Subscription)
    (h : (play (move cap) new ms).subscriptions[i]? = some sub) :
    sub.moves.filter isOwn <:+ ownMoves i ms := by
  induction ms using List.reverseRecOn generalizing sub with
  | nil => simp [new] at h
  | append_singleton ms m ih =>
    rw [play_append] at h
    have hconcat : ownMoves i (ms ++ [m]) = ownMoves i ms ++ ownMoves i [m] :=
      List.filterMap_append
    rw [hconcat]
    rcases subscription_of_move (invariant_play cap ms) h with
      ⟨-, rfl⟩ | ⟨old, hold, ⟨rfl, hown⟩ | ⟨a, rfl, hown⟩⟩
    · exact List.nil_suffix
    · rw [hown, List.append_nil]
      exact ih sub hold
    · obtain ⟨before, hbefore⟩ := ih old hold
      refine ⟨before, ?_⟩
      rw [hown, ← hbefore, Subscription.see, List.filter_append, List.append_assoc]

/-- Each subscription, whatever the others do, is in a state that it reaches alone: with its own
moves since it exists, and with what has been emitted since. -/
theorem subscription_alone (cap : ℕ) (ms : List Move) (i : ℕ) (sub : Subscription)
    (h : (play (move cap) new ms).subscriptions[i]? = some sub) :
    (∃ hubClosed, sub.stream = play (step cap) (watchChanges hubClosed) sub.moves) ∧
      sub.moves.filter isOwn <:+ ownMoves i ms ∧
      (play (move cap) new ms).log.drop sub.start =
        sub.stream.emitted ++ awaited (play (move cap) new ms) i := by
  have hfaithful := (invariant_play cap ms).faithful i sub h
  exact ⟨hfaithful.alone, own_moves_seen cap ms i sub h, hfaithful.since⟩

/-- Two subscribers to a hub with room for one item, of which the first never reads. -/
def slowRun : List Move :=
  [.subscribe, .subscribe, .emit (.event ⟨.create, "a"⟩), .advance, .advance, .advance,
    .own 1 .dispatch, .own 1 .deliver, .own 1 (.write true),
    .emit (.event ⟨.delete, "b"⟩), .advance, .advance]

/-- The slow one is closed at the second item, and the other does not notice. -/
theorem subscription_alone_beside_slow :
    ∃ slow other, (play (move 1) new slowRun).subscriptions[0]? = some slow ∧
      (play (move 1) new slowRun).subscriptions[1]? = some other ∧
      slow.stream.source.closed = true ∧
      other.stream.source = ⟨[.event ⟨.delete, "b"⟩], false⟩ ∧
      ∃ hubClosed, other.stream = play (step 1) (watchChanges hubClosed) other.moves :=
  ⟨_, _, rfl, rfl, by decide, by decide, (subscription_alone 1 slowRun 1 _ rfl).1⟩

end Independence

section Delivery
variable {cap : ℕ} {s : State} {a : Act}

theorem conserved_watchChanges (hubClosed : Bool) : Conserved (watchChanges hubClosed) := by
  constructor
  · cases hubClosed <;> decide
  · cases hubClosed <;> decide

/-- A source never holds more than its buffer. -/
theorem pending_step (h : s.source.pending.length ≤ cap) :
    (step cap s a).source.pending.length ≤ cap := by
  apply step_keeps (I := fun s => s.source.pending.length ≤ cap) h
  intro s' hstep
  cases hstep with
  | emitted item =>
    rcases send_cases cap item s.source with ⟨-, hsend⟩ | ⟨hopen, hsend⟩ | hsend
    · simpa [hsend] using h
    · by_cases hroom : s.source.pending.length < cap
      · simp only [hsend, List.length_append, List.length_singleton]
        omega
      · have hclosed : s.source.send cap item = s.source.close := by
          simp [Source.send, hopen, hroom]
        simpa [hclosed, Source.close] using h
    · simpa [hsend, Source.close] using h
  | took ev rest hd hp =>
    rw [hp, List.length_cons] at h
    exact Nat.le_of_succ_le h
  | tookForeign rest hd hp =>
    rw [hp, List.length_cons] at h
    exact Nat.le_of_succ_le h
  | _ => exact h

/-- The invariants of one subscription are those of all. -/
theorem conserved_play (cap : ℕ) (hubClosed : Bool) (acts : List Act) :
    Conserved (play (step cap) (watchChanges hubClosed) acts) ∧
      (play (step cap) (watchChanges hubClosed) acts).source.pending.length ≤ cap := by
  apply play_invariant (I := fun s => Conserved s ∧ s.source.pending.length ≤ cap)
  · intro s a hs
    exact ⟨step_keeps hs.1 fun s' hstep => hs.1.step hstep, pending_step hs.2⟩
  · exact ⟨conserved_watchChanges hubClosed, Nat.zero_le cap⟩

theorem Invariant.pending_le {s : System} {i : ℕ} {sub : Subscription} (h : Invariant cap s)
    (hsub : s.subscriptions[i]? = some sub) : sub.stream.source.pending.length ≤ cap := by
  obtain ⟨hubClosed, halone⟩ := (h.faithful i sub hsub).alone
  rw [halone]
  exact (conserved_play cap hubClosed sub.moves).2

/-- What a handler has tried to write are the first events since the subscription. -/
theorem Invariant.tried_isPrefix {s : System} {i : ℕ} {sub : Subscription} (h : Invariant cap s)
    (hsub : s.subscriptions[i]? = some sub) : tried sub.stream <+: s.log.drop sub.start := by
  have hfaithful := h.faithful i sub hsub
  obtain ⟨hubClosed, halone⟩ := hfaithful.alone
  have hconserved : Conserved sub.stream := halone ▸ (conserved_play cap hubClosed sub.moves).1
  rw [hfaithful.since]
  exact (List.prefix_append _ _).trans (hconserved.first.trans (List.prefix_append _ _))

/-- For every subscriber, whatever the others do: what its handler has tried to write, then what
is on its way, are the first items emitted since it subscribed; they are all of them as long as
its source is open and its handler running; and no more than the buffer is kept for it. -/
theorem emitted_reach_subscribers (cap : ℕ) (ms : List Move) (i : ℕ) (sub : Subscription)
    (h : (play (move cap) new ms).subscriptions[i]? = some sub) :
    let s := play (move cap) new ms
    tried sub.stream ++ inFlight sub.stream <+: s.log.drop sub.start ∧
      (sub.stream.source.closed = false → sub.stream.handler ≠ .returned →
        tried sub.stream ++ inFlight sub.stream ++ awaited s i = s.log.drop sub.start) ∧
      sub.stream.source.pending.length ≤ cap := by
  have hfaithful := (invariant_play cap ms).faithful i sub h
  obtain ⟨hubClosed, halone⟩ := hfaithful.alone
  have hconserved : Conserved sub.stream := halone ▸ (conserved_play cap hubClosed sub.moves).1
  refine ⟨?_, ?_, (invariant_play cap ms).pending_le h⟩
  · rw [hfaithful.since]
    exact hconserved.first.trans (List.prefix_append _ _)
  · intro hopen hrunning
    rw [hfaithful.since, hconserved.all hopen hrunning]

/-- The second subscriber of the same run has all that was emitted. -/
theorem emitted_reach_other :
    ∃ other, (play (move 1) new slowRun).subscriptions[1]? = some other ∧
      tried other.stream ++ inFlight other.stream ++ awaited (play (move 1) new slowRun) 1 =
        [.event ⟨.create, "a"⟩, .event ⟨.delete, "b"⟩] :=
  ⟨_, rfl, (emitted_reach_subscribers 1 slowRun 1 _ rfl).2.1 (by decide) (by decide)⟩

end Delivery
end RoutingApi.Stream.Hub
