import RoutingApi.Models.Encoding
import RoutingApi.Sse.Events
import RoutingApi.Stream.CancelWatches

/-! What a client of the event streams is told. Its event source reads what the handler of its
subscription writes, and subscribes again when the connection breaks. -/
namespace RoutingApi.Client.EventSource
open Process Text
open Database (EventType)
open Models (Route TcpRouteMapping)
open RoutingApi.Stream (WatchEvent Item Attempt)

section Model
variable {α : Type}

/-- How the rows of one kind are written, and what a client reads then. -/
structure Codec (α : Type) where
  marshal : α → List Char
  unmarshal : List Char → Option α
  entity : α → α
  Fits : α → Prop
  printable : ∀ row, ∀ c ∈ marshal row, 32 ≤ c.toNat
  unmarshal_marshal : ∀ row, Fits row → unmarshal (marshal row) = some (entity row)

def routeCodec : Codec Route where
  marshal := Route.marshal
  unmarshal := Route.unmarshal
  entity := Route.entity
  Fits r := ∀ ttl ∈ r.ttl, Models.IsInt ttl
  printable r := Json.printable_print r.plain_encode
  unmarshal_marshal _ h := Route.unmarshal_marshal h

def tcpRouteMappingCodec : Codec TcpRouteMapping where
  marshal := TcpRouteMapping.marshal
  unmarshal := TcpRouteMapping.unmarshal
  entity := TcpRouteMapping.entity
  Fits m := Models.IsInt m.hostTLSPort ∧ ∀ ttl ∈ m.ttl, Models.IsInt ttl
  printable m := Json.printable_print m.plain_encode
  unmarshal_marshal _ h := TcpRouteMapping.unmarshal_marshal h.1 h.2

/-- `NewEventFromInterface`. -/
def newEventFromInterface (C : Codec α) (type : EventType) (row : α) : WatchEvent :=
  ⟨type, String.ofList (C.marshal row)⟩

/-- `Event` and `TcpEvent`. -/
structure Event (α : Type) where
  action : Bytes
  value : α
  deriving DecidableEq, Repr

/-- `convertRawEvent` and `convertRawToTcpEvent`. -/
def convertRawEvent (C : Codec α) (e : Sse.Event) : Option (Event α) :=
  (ofUtf8 e.data).bind fun s => (C.unmarshal s.toList).map fun value => ⟨e.name, value⟩

/-- What `Next` can return. -/
inductive Result (α : Type) where
  | event (e : Event α)
  | malformed
  | eof
  | refused
  | closed
  deriving DecidableEq, Repr

/-- The result for an event that was read. -/
def answer (C : Codec α) (e : Sse.Event) : Result α :=
  match convertRawEvent C e with
  | some event => .event event
  | none => .malformed

def Result.isAnswer : Result α → Bool
  | .event _ => true
  | .malformed => true
  | _ => false

/-- What the handler writes for an event. -/
def raw (a : Attempt) : Sse.Event :=
  let e := Stream.sseEvent a.id a.event
  ⟨utf8 e.id, utf8 e.name, utf8 e.data, 0⟩

/-- The writes that succeeded, as `Stream.written` lists them. Of one that failed at most a part is
on the wire, which makes no event. -/
def sent (as : List Attempt) : List Attempt := as.filter (·.ok)

def bytes (as : List Attempt) : Bytes := as.flatMap fun a => (raw a).encode

/-- What can arrive of a response, as far as it has been written. -/
def wire (as : List Attempt) : Bytes := bytes (sent as)

/-- A `ReadCloser` and the connection it reads from: how much has arrived, and what of it has not
been read. The log had `start` items when it was made, and `read` events have been read from it;
nothing depends on these two. -/
structure Connection where
  subscription : ℕ
  arrived : ℕ
  input : Bytes
  lastID : Bytes
  start : ℕ
  read : ℕ
  deriving DecidableEq, Repr

/-- The part of the log that was read from a connection. -/
def Connection.block (conn : Connection) : ℕ × ℕ := (conn.start, conn.start + conn.read)

/-- A hub and one event source that watches it; `past` are the blocks of its former
connections. -/
structure System (α : Type) where
  hub : Stream.Hub.System
  closed : Bool
  current : Option Connection
  results : List (Result α)
  past : List (ℕ × ℕ)
  deriving DecidableEq, Repr

def new : System α := ⟨Stream.Hub.new, false, none, [], []⟩

/-- The moves of the server, and those of the event source. `fail` is a read that ends in an error
other than the end of the response. -/
inductive Move where
  | hub (m : Stream.Hub.Move)
  | connect
  | refuse
  | arrive (n : ℕ)
  | next
  | fail
  | close
  deriving DecidableEq, Repr

def System.attempts (s : System α) (i : ℕ) : List Attempt :=
  match s.hub.subscriptions[i]? with
  | some sub => sub.stream.attempts
  | none => []

/-- The response has ended in order: the handler has returned, no write has failed, and all has
arrived. -/
def System.ended (s : System α) (conn : Connection) : Bool :=
  match s.hub.subscriptions[conn.subscription]? with
  | some sub => sub.stream.handler = .returned ∧ sub.stream.attempts.all (·.ok) ∧
      conn.arrived = (wire sub.stream.attempts).length
  | none => false

def System.report (s : System α) (r : Result α) : System α := { s with results := s.results ++ [r] }

def System.blocks (s : System α) : List (ℕ × ℕ) := s.past ++ s.current.toList.map Connection.block

/-- The connection is given up. -/
def System.disconnect (s : System α) : System α := { s with current := none, past := s.blocks }

/-- `ensureReadCloser`, when the request is answered with the stream of a new subscription. -/
def System.connect (cap : ℕ) (s : System α) : System α :=
  if s.closed = false ∧ s.current = none ∧ s.hub.lock = .free then
    { s with
      hub := Stream.Hub.move cap s.hub .subscribe
      current := some ⟨s.hub.subscriptions.length, 0, [], [], s.hub.log.length, 0⟩ }
  else s

/-- Up to `n` more bytes arrive. -/
def Connection.receive (n : ℕ) (bytes : Bytes) (conn : Connection) : Connection :=
  { conn with
    arrived := min (conn.arrived + n) bytes.length
    input := conn.input ++ (bytes.drop conn.arrived).take n }

def System.arrive (n : ℕ) (s : System α) : System α :=
  { s with
    current := s.current.map fun conn => conn.receive n (wire (s.attempts conn.subscription)) }

/-- `Next`. Without a connection, or as long as there is no event, it goes on waiting. -/
def System.next (C : Codec α) (size : ℕ) (s : System α) : System α :=
  if s.closed then s.report .closed
  else match s.current with
    | none => s
    | some conn =>
      match Sse.next size conn.lastID conn.input with
      | (some (e, lastID), rest) =>
        { s with
          current := some { conn with input := rest, lastID := lastID, read := conn.read + 1 }
          results := s.results ++ [answer C e] }
      | (none, _) => if s.ended conn then s.report .eof else s

def move (C : Codec α) (cap size : ℕ) (s : System α) : Move → System α
  | .hub m => { s with hub := Stream.Hub.move cap s.hub m }
  | .connect => s.connect cap
  | .refuse => if s.closed = false ∧ s.current = none then s.report .refused else s
  | .arrive n => s.arrive n
  | .next => s.next C size
  | .fail => s.disconnect
  | .close => { s.disconnect with closed := true }

/-- No write of a handler succeeds after one that failed. -/
def FailsForGood (s : System α) : Move → Prop
  | .hub (.own i a) => ∀ sub ∈ s.hub.subscriptions[i]?, Stream.FailsForGood sub.stream a
  | _ => True

instance (s : System α) : (m : Move) → Decidable (FailsForGood s m)
  | .hub (.own i a) =>
    inferInstanceAs (Decidable (∀ sub ∈ s.hub.subscriptions[i]?, Stream.FailsForGood sub.stream a))
  | .hub .subscribe => isTrue trivial
  | .hub (.emit _) => isTrue trivial
  | .hub .close => isTrue trivial
  | .hub .advance => isTrue trivial
  | .connect => isTrue trivial
  | .refuse => isTrue trivial
  | .arrive _ => isTrue trivial
  | .next => isTrue trivial
  | .fail => isTrue trivial
  | .close => isTrue trivial

end Model

section Wire
variable {as as' : List Attempt} {a : Attempt}

@[simp] theorem bytes_append (as as' : List Attempt) : bytes (as ++ as') = bytes as ++ bytes as' :=
  List.flatMap_append

@[simp] theorem bytes_singleton (a : Attempt) : bytes [a] = (raw a).encode := List.flatMap_singleton _ a

theorem sent_eq_self (h : as.all (·.ok) = true) : sent as = as :=
  List.filter_eq_self.mpr (List.all_eq_true.mp h)

theorem sent_mono (h : as <+: as') : sent as <+: sent as' := h.filter _

/-- As long as a handler fails for good, the writes that succeeded are its first ones. -/
theorem sent_isPrefix_step {cap : ℕ} {st : Stream.State} {act : Stream.Act}
    (h : sent st.attempts <+: st.attempts) (hgood : Stream.FailsForGood st act) :
    sent (Stream.step cap st act).attempts <+: (Stream.step cap st act).attempts := by
  apply Stream.step_keeps (I := fun st' => sent st'.attempts <+: st'.attempts) h
  intro st' hstep
  cases hstep with
  | wrote ev ok hh =>
    cases ok with
    | true =>
      have hall : (st.attempts ++ [(⟨ev, st.eventID, true⟩ : Attempt)]).all (·.ok) = true := by
        simpa [Stream.FailsForGood] using hgood
      rw [sent_eq_self hall]
    | false =>
      have hsent : sent (st.attempts ++ [⟨ev, st.eventID, false⟩]) = sent st.attempts := by
        simp [sent]
      rw [hsent]
      exact h.trans (List.prefix_append _ _)
  | _ => exact h

theorem wire_mono (h : as <+: as') : wire as <+: wire as' := by
  obtain ⟨more, hmore⟩ := sent_mono h
  exact ⟨bytes more, by rw [wire, wire, ← hmore, bytes_append]⟩

/-- An event that can be sent on one line. -/
def OneLine (ev : WatchEvent) : Prop := '\n' ∉ ev.value.toList ∧ '\r' ∉ ev.value.toList

theorem plain_raw (h : OneLine a.event) : (raw a).Plain := by
  apply Sse.plain_of_oneLine
  case hid =>
    have hdigit (c : Char) (hc : c ∈ (toString a.id).toList) : c.isDigit = true := by
      have hdigits : c ∈ Nat.toDigits 10 a.id := by
        rwa [show (toString a.id) = String.ofList (Nat.toDigits 10 a.id) from rfl,
          String.toList_ofList] at hc
      exact Nat.isDigit_of_mem_toDigits (by decide) (by decide) hdigits
    exact Sse.clean_utf8 (fun hc => absurd (hdigit _ hc) (by decide))
      (fun hc => absurd (hdigit _ hc) (by decide))
  case hname => cases ht : a.event.type <;> simp [raw, Stream.sseEvent, ht, EventType.string] <;> decide
  case hdata => exact Sse.clean_utf8 h.1 h.2
  case hretry => rfl

end Wire

section Settled
variable {cap : ℕ} {hub : Stream.Hub.System}

/-- The writes of each handler that succeeded are its first ones. -/
def Settled (hub : Stream.Hub.System) : Prop :=
  ∀ (i : ℕ) (sub : Stream.Hub.Subscription), hub.subscriptions[i]? = some sub →
    sent sub.stream.attempts <+: sub.stream.attempts

theorem ownMoves_singleton {i : ℕ} {m : Stream.Hub.Move} {act : Stream.Act}
    (h : Stream.Hub.ownMoves i [m] = [act]) : m = .own i act := by
  cases m with
  | own j act' =>
    by_cases hown : j = i ∧ Stream.Hub.isOwn act' = true
    · simp_all [Stream.Hub.ownMoves]
    · simp [Stream.Hub.ownMoves, hown] at h
  | _ => simp [Stream.Hub.ownMoves] at h

theorem Settled.move (h : Settled hub) (hhub : Stream.Hub.Invariant cap hub) {m : Stream.Hub.Move}
    (hgood : ∀ i act, m = .own i act →
      ∀ sub ∈ hub.subscriptions[i]?, Stream.FailsForGood sub.stream act) :
    Settled (Stream.Hub.move cap hub m) := by
  intro i sub hsub
  rcases Stream.Hub.subscription_of_move hhub hsub with
    ⟨-, rfl⟩ | ⟨old, hold, ⟨rfl, -⟩ | ⟨act, rfl, hown⟩⟩
  · exact List.prefix_refl _
  · exact h i sub hold
  · apply sent_isPrefix_step (h i old hold)
    cases act with
    | emit item => trivial
    | closeHub => trivial
    | _ => exact hgood i _ (ownMoves_singleton hown) old hold

end Settled

section Connections
variable {cap size : ℕ} {hub : Stream.Hub.System} {conn : Connection}
  {sub : Stream.Hub.Subscription}

/-- Where a client is in what the handler of its subscription writes. -/
structure Reads (hub : Stream.Hub.System) (conn : Connection) (sub : Stream.Hub.Subscription) : Prop where
  found : hub.subscriptions[conn.subscription]? = some sub
  start : conn.start = sub.start
  arrived : conn.arrived ≤ (wire sub.stream.attempts).length
  read : conn.read ≤ (sent sub.stream.attempts).length
  input : (wire sub.stream.attempts).take conn.arrived =
    bytes ((sent sub.stream.attempts).take conn.read) ++ conn.input

/-- What the server does in the meantime only adds to what will arrive. -/
theorem Reads.later (h : Reads hub conn sub) (hhub : Stream.Hub.Invariant cap hub)
    (m : Stream.Hub.Move) : ∃ sub', Reads (Stream.Hub.move cap hub m) conn sub' := by
  obtain ⟨sub', hfound, hstart, hattempts⟩ := Stream.Hub.subscription_later hhub h.found m
  obtain ⟨more, hmore⟩ := wire_mono hattempts
  obtain ⟨more', hmore'⟩ := sent_mono hattempts
  refine ⟨sub', hfound, h.start.trans hstart.symm, ?_, ?_, ?_⟩
  · exact h.arrived.trans (wire_mono hattempts).length_le
  · exact h.read.trans (sent_mono hattempts).length_le
  · rw [← hmore, ← hmore', List.take_append_of_le_length h.arrived,
      List.take_append_of_le_length h.read, h.input]

theorem Reads.receive (h : Reads hub conn sub) (n : ℕ) :
    Reads hub (conn.receive n (wire sub.stream.attempts)) sub := by
  refine ⟨h.found, h.start, Nat.min_le_right _ _, h.read, ?_⟩
  have htake : (wire sub.stream.attempts).take (min (conn.arrived + n) (wire sub.stream.attempts).length) =
      (wire sub.stream.attempts).take conn.arrived ++
        ((wire sub.stream.attempts).drop conn.arrived).take n := by
    rw [← List.take_take, List.take_length, List.take_add]
  rw [Connection.receive, htake, h.input, List.append_assoc]

/-- The events that are left to be read. -/
theorem Reads.input_isPrefix (h : Reads hub conn sub) :
    conn.input <+: bytes ((sent sub.stream.attempts).drop conn.read) := by
  have hprefix := List.take_prefix conn.arrived (wire sub.stream.attempts)
  have hsplit : wire sub.stream.attempts =
      bytes ((sent sub.stream.attempts).take conn.read) ++
        bytes ((sent sub.stream.attempts).drop conn.read) := by
    rw [← bytes_append, List.take_append_drop, wire]
  rwa [h.input, hsplit, List.prefix_append_right_inj] at hprefix

/-- `Next` returns the next event that was sent once it has arrived, and not before. -/
theorem Reads.next_cases (h : Reads hub conn sub) (hsize : 2 ≤ size)
    (hlines : ∀ a ∈ sub.stream.attempts, OneLine a.event) :
    (∃ a rest, (sent sub.stream.attempts)[conn.read]? = some a ∧
        conn.input = (raw a).encode ++ rest ∧
        Sse.next size conn.lastID conn.input = (some (raw a, (raw a).id), rest)) ∨
      (Sse.next size conn.lastID conn.input = (none, []) ∧
        ∀ a, (sent sub.stream.attempts)[conn.read]? = some a → ¬(raw a).encode <+: conn.input) := by
  have hplain : ∀ e ∈ ((sent sub.stream.attempts).drop conn.read).map raw, e.Plain := by
    intro e he
    obtain ⟨a, ha, rfl⟩ := List.mem_map.mp he
    exact plain_raw (hlines a (List.mem_of_mem_filter (List.mem_of_mem_drop ha)))
  have hhead : (((sent sub.stream.attempts).drop conn.read).map raw).head? =
      ((sent sub.stream.attempts)[conn.read]?).map raw := by
    rw [List.head?_map, List.head?_drop]
  have hinput : conn.input <+:
      (((sent sub.stream.attempts).drop conn.read).map raw).flatMap Sse.Event.encode := by
    rw [List.flatMap_map]
    exact h.input_isPrefix
  rcases Sse.next_of_prefix conn.lastID hsize hplain hinput with
    ⟨e, he, rest, hinput, hnext⟩ | ⟨hnext, hnot⟩
  · rw [hhead, Option.mem_def, Option.map_eq_some_iff] at he
    obtain ⟨a, ha, rfl⟩ := he
    exact .inl ⟨a, rest, ha, hinput, hnext⟩
  · refine .inr ⟨hnext, fun a ha => hnot (raw a) ?_⟩
    rw [hhead, ha]
    rfl

/-- One more event has been read. -/
theorem Reads.read_next (h : Reads hub conn sub) {a : Attempt} {rest lastID : Bytes}
    (ha : (sent sub.stream.attempts)[conn.read]? = some a)
    (hinput : conn.input = (raw a).encode ++ rest) :
    Reads hub { conn with input := rest, lastID := lastID, read := conn.read + 1 } sub := by
  refine ⟨h.found, h.start, h.arrived, (List.getElem?_eq_some_iff.mp ha).1, ?_⟩
  rw [h.input, hinput, List.take_add_one, ha, bytes_append, List.append_assoc]
  simp

end Connections

section Runs
variable {α : Type} {C : Codec α} {cap size : ℕ} {s : System α} {conn : Connection}

/-- A block of a list. -/
def cut {β : Type} (l : List β) (b : ℕ × ℕ) : List β := (l.take b.2).drop b.1

/-- What a client is told about an item. -/
def shown (C : Codec α) : Item → Result α
  | .event ev => answer C (raw ⟨ev, 0, true⟩)
  | .foreign => .malformed

theorem getElem?_of_prefix {β : Type} {l l' : List β} {k : ℕ} {x : β} (h : l <+: l')
    (hx : l[k]? = some x) : l'[k]? = some x := by
  obtain ⟨more, rfl⟩ := h
  rw [List.getElem?_append_left (List.getElem?_eq_some_iff.mp hx).1, hx]

theorem cut_of_prefix {β : Type} {l l' : List β} {b : ℕ × ℕ} (h : l <+: l') (hb : b.2 ≤ l.length) :
    cut l' b = cut l b := by
  obtain ⟨more, rfl⟩ := h
  rw [cut, cut, List.take_append_of_le_length hb]

theorem cut_succ {β : Type} {l : List β} {start n : ℕ} {x : β} (h : l[start + n]? = some x) :
    cut l (start, start + (n + 1)) = cut l (start, start + n) ++ [x] := by
  have hlt : start + n < l.length := (List.getElem?_eq_some_iff.mp h).1
  have htake : l.take (start + (n + 1)) = l.take (start + n) ++ [x] := by
    rw [← Nat.add_assoc, List.take_add_one, h]
    rfl
  rw [cut, cut, htake, List.drop_append_of_le_length (by rw [List.length_take]; omega)]

/-- The blocks of the log that were read from the connections do not overlap and are in order, and
what `Next` has returned are the events in them. -/
structure Invariant (C : Codec α) (cap : ℕ) (s : System α) : Prop where
  hub : Stream.Hub.Invariant cap s.hub
  settled : Settled s.hub
  reads : ∀ conn, s.current = some conn → ∃ sub, Reads s.hub conn sub
  ordered : s.blocks.Pairwise fun a b => a.2 ≤ b.1
  within : ∀ b ∈ s.blocks, b.1 ≤ b.2 ∧ b.2 ≤ s.hub.log.length
  answers : s.results.filter Result.isAnswer =
    (s.blocks.flatMap (cut s.hub.log)).map (shown C)

theorem Invariant.hubMove (h : Invariant C cap s) {m : Stream.Hub.Move}
    (hgood : FailsForGood s (.hub m)) :
    Invariant C cap { s with hub := Stream.Hub.move cap s.hub m } := by
  have hlog := Stream.Hub.log_move cap s.hub m
  refine ⟨h.hub.move m, ?_, ?_, h.ordered, ?_, ?_⟩
  · apply h.settled.move h.hub
    rintro i act rfl
    exact hgood
  · intro conn hconn
    obtain ⟨sub, hsub⟩ := h.reads conn hconn
    exact hsub.later h.hub m
  · intro b hb
    exact ⟨(h.within b hb).1, (h.within b hb).2.trans hlog.length_le⟩
  · have hcuts : s.blocks.flatMap (cut (Stream.Hub.move cap s.hub m).log) =
        s.blocks.flatMap (cut s.hub.log) :=
      List.flatMap_congr fun b hb => cut_of_prefix hlog (h.within b hb).2
    exact h.answers.trans (congrArg _ hcuts.symm)

theorem Invariant.report (h : Invariant C cap s) {r : Result α} (hr : r.isAnswer = false) :
    Invariant C cap (s.report r) := by
  have hfilter : (s.results ++ [r]).filter Result.isAnswer = s.results.filter Result.isAnswer := by
    simp [hr]
  exact ⟨h.hub, h.settled, h.reads, h.ordered, h.within, hfilter.trans h.answers⟩

theorem Invariant.disconnect (h : Invariant C cap s) : Invariant C cap s.disconnect := by
  have hblocks : s.disconnect.blocks = s.blocks := by simp [System.disconnect, System.blocks]
  refine ⟨h.hub, h.settled, ?_, ?_, ?_, ?_⟩
  · intro conn hconn
    cases hconn
  · rw [hblocks]
    exact h.ordered
  · rw [hblocks]
    exact h.within
  · rw [hblocks]
    exact h.answers

theorem Invariant.connect (h : Invariant C cap s) : Invariant C cap (s.connect cap) := by
  by_cases hc : s.closed = false ∧ s.current = none ∧ s.hub.lock = .free
  case neg =>
    rw [System.connect, if_neg hc]
    exact h
  have hfree := hc.2.2
  have hblocks : (s.connect cap).blocks = s.blocks ++ [(s.hub.log.length, s.hub.log.length)] := by
    simp [System.connect, hc, System.blocks, Connection.block]
  have hlog : (s.connect cap).hub.log = s.hub.log := by
    simp [System.connect, hc, Stream.Hub.move, Stream.Hub.subscribe]
  have hresults : (s.connect cap).results = s.results := by simp [System.connect, hc]
  refine ⟨?_, ?_, ?_, ?_, ?_, ?_⟩
  · rw [System.connect, if_pos hc]
    exact h.hub.move .subscribe
  · rw [System.connect, if_pos hc]
    exact h.settled.move h.hub fun _ _ hown => by cases hown
  · intro conn hconn
    simp only [System.connect, if_pos hc, Option.some.injEq] at hconn ⊢
    subst hconn
    refine ⟨⟨s.hub.log.length, [], Stream.watchChanges s.hub.closed⟩, ?_, rfl, by simp, by simp, ?_⟩
    · simp [Stream.Hub.move, hfree, Stream.Hub.subscribe]
    · simp [bytes]
  · rw [hblocks, List.pairwise_append]
    refine ⟨h.ordered, List.pairwise_singleton _ _, fun b hb c hc => ?_⟩
    rw [List.mem_singleton.mp hc]
    exact (h.within b hb).2
  · rw [hblocks, hlog, List.forall_mem_append]
    exact ⟨h.within, by simp⟩
  · have hempty : cut s.hub.log (s.hub.log.length, s.hub.log.length) = [] := by simp [cut]
    rw [hblocks, hlog, hresults, List.flatMap_append, List.flatMap_singleton, hempty,
      List.append_nil]
    exact h.answers

theorem Invariant.arrive (h : Invariant C cap s) (n : ℕ) : Invariant C cap (s.arrive n) := by
  have hblocks : (s.arrive n).blocks = s.blocks := by
    cases hcurrent : s.current with
    | none => simp [System.arrive, System.blocks, hcurrent]
    | some conn => simp [System.arrive, System.blocks, hcurrent, Connection.block, Connection.receive]
  refine ⟨h.hub, h.settled, ?_, ?_, ?_, ?_⟩
  · intro conn hconn
    obtain ⟨old, hold, rfl⟩ := Option.map_eq_some_iff.mp hconn
    obtain ⟨sub, hsub⟩ := h.reads old hold
    have hattempts : s.attempts old.subscription = sub.stream.attempts := by
      simp [System.attempts, hsub.found]
    rw [hattempts]
    exact ⟨sub, hsub.receive n⟩
  · rw [hblocks]
    exact h.ordered
  · rw [hblocks]
    exact h.within
  · rw [hblocks]
    exact h.answers

/-- The events that were sent are where they should be in the log. -/
theorem Invariant.getElem?_log (h : Invariant C cap s) {sub : Stream.Hub.Subscription}
    (hsub : Reads s.hub conn sub) {a : Attempt} {k : ℕ}
    (ha : (sent sub.stream.attempts)[k]? = some a) :
    s.hub.log[conn.start + k]? = some (.event a.event) := by
  have htried : (Stream.tried sub.stream)[k]? = some (.event a.event) := by
    have hattempt : sub.stream.attempts[k]? = some a :=
      getElem?_of_prefix (h.settled conn.subscription sub hsub.found) ha
    simp [Stream.tried, hattempt]
  rw [hsub.start, ← List.getElem?_drop]
  exact getElem?_of_prefix (h.hub.tried_isPrefix hsub.found) htried

theorem isAnswer_answer (e : Sse.Event) : (answer C e).isAnswer = true := by
  unfold answer
  split <;> rfl

/-- The events that a handler writes are of the log. -/
theorem Invariant.oneLine (h : Invariant C cap s) {sub : Stream.Hub.Subscription}
    (hsub : Reads s.hub conn sub) (hlines : ∀ ev, .event ev ∈ s.hub.log → OneLine ev) :
    ∀ a ∈ sub.stream.attempts, OneLine a.event := by
  intro a ha
  apply hlines
  have htried : Item.event a.event ∈ Stream.tried sub.stream :=
    List.mem_map_of_mem (f := fun a : Attempt => Item.event a.event) ha
  exact List.mem_of_mem_drop ((h.hub.tried_isPrefix hsub.found).subset htried)

theorem Invariant.next (h : Invariant C cap s) (hsize : 2 ≤ size)
    (hlines : ∀ ev, .event ev ∈ s.hub.log → OneLine ev) : Invariant C cap (s.next C size) := by
  unfold System.next
  split
  next => exact h.report rfl
  next =>
    split
    next => exact h
    next conn hconn =>
      obtain ⟨sub, hsub⟩ := h.reads conn hconn
      have hblocks : s.blocks = s.past ++ [(conn.start, conn.start + conn.read)] := by
        simp [System.blocks, hconn, Connection.block]
      rcases hsub.next_cases hsize (h.oneLine hsub hlines) with
        ⟨a, rest, ha, hinput, hnext⟩ | ⟨hnext, -⟩
      · rw [hnext]
        have hitem := h.getElem?_log hsub ha
        have hordered := h.ordered
        have hwithin := h.within
        have hanswers := h.answers
        rw [hblocks, List.pairwise_append] at hordered
        rw [hblocks, List.forall_mem_append] at hwithin
        rw [hblocks, List.flatMap_append, List.flatMap_singleton] at hanswers
        refine ⟨h.hub, h.settled, ?_, ?_, ?_, ?_⟩
        · rintro conn' ⟨⟩
          exact ⟨sub, hsub.read_next ha hinput⟩
        · refine List.pairwise_append.mpr ⟨hordered.1, List.pairwise_singleton _ _, ?_⟩
          intro b hb c hc
          cases List.mem_singleton.mp hc
          exact hordered.2.2 b hb (conn.start, conn.start + conn.read) (List.mem_singleton_self _)
        · refine List.forall_mem_append.mpr ⟨hwithin.1, ?_⟩
          intro b hb
          cases List.mem_singleton.mp hb
          have hlt := (List.getElem?_eq_some_iff.mp hitem).1
          exact ⟨Nat.le_add_right _ _, hlt⟩
        · have hshown : shown C (.event a.event) = answer C (raw a) := rfl
          simp only [System.blocks, Option.toList_some, List.map_singleton, Connection.block,
            List.flatMap_append, List.flatMap_singleton, cut_succ hitem, List.filter_append,
            hanswers, List.map_append, List.append_assoc, List.map_singleton, hshown]
          rw [List.filter_cons, if_pos (isAnswer_answer _), List.filter_nil]
      · rw [hnext]
        simp only
        split
        next => exact h.report rfl
        next => exact h

theorem Invariant.move (h : Invariant C cap s) (hsize : 2 ≤ size)
    (hlines : ∀ ev, .event ev ∈ s.hub.log → OneLine ev) {m : Move} (hgood : FailsForGood s m) :
    Invariant C cap (move C cap size s m) := by
  cases m with
  | hub m => exact h.hubMove hgood
  | connect => exact h.connect
  | refuse =>
    simp only [EventSource.move]
    split
    next => exact h.report rfl
    next => exact h
  | arrive n => exact h.arrive n
  | next => exact h.next hsize hlines
  | fail => exact h.disconnect
  | close =>
    obtain ⟨hhub, hsettled, hreads, hordered, hwithin, hanswers⟩ := h.disconnect
    exact ⟨hhub, hsettled, hreads, hordered, hwithin, hanswers⟩

theorem invariant_new : Invariant C cap (new : System α) := by
  refine ⟨Stream.Hub.invariant_new, nofun, fun conn hconn => ?_, List.Pairwise.nil,
    fun b hb => ?_, rfl⟩
  · cases hconn
  · cases hb

/-- Nothing is taken off the log. -/
theorem log_move (s : System α) (m : Move) : s.hub.log <+: (move C cap size s m).hub.log := by
  cases m with
  | hub m => exact Stream.Hub.log_move cap s.hub m
  | connect =>
    simp only [move, System.connect]
    split
    next => exact Stream.Hub.log_move cap s.hub .subscribe
    next => exact List.prefix_refl _
  | refuse =>
    simp only [move]
    split <;> exact List.prefix_refl _
  | next =>
    simp only [move, System.next]
    repeat' split
    all_goals exact List.prefix_refl _
  | _ => exact List.prefix_refl _

theorem invariant_play (hsize : 2 ≤ size) {ms : List Move}
    (hgood : Meets (move C cap size) FailsForGood new ms)
    (hlines : ∀ ev, .event ev ∈ (play (move C cap size) new ms).hub.log → OneLine ev) :
    Invariant C cap (play (move C cap size) new ms) := by
  induction ms using List.reverseRecOn with
  | nil => exact invariant_new
  | append_singleton ms m ih =>
    rw [play_append] at hlines ⊢
    obtain ⟨hgoods, hgood, -⟩ := meets_append.mp hgood
    have hbefore : ∀ ev, .event ev ∈ (play (move C cap size) new ms).hub.log → OneLine ev :=
      fun ev hev => hlines ev ((log_move _ m).subset hev)
    exact (ih hgoods hbefore).move hsize hbefore hgood

end Runs

section Received
variable {α : Type} {C : Codec α} {cap size : ℕ} {rows : List (EventType × α)}

/-- The item for a change of a row. -/
def item (C : Codec α) (r : EventType × α) : Item := .event (newEventFromInterface C r.1 r.2)

/-- What a client has to be told of a change. -/
def change (C : Codec α) (r : EventType × α) : Result α := .event ⟨utf8 r.1.string, C.entity r.2⟩

theorem oneLine_new (type : EventType) (row : α) : OneLine (newEventFromInterface C type row) := by
  have hprintable (c : Char) (hc : c ∈ (String.ofList (C.marshal row)).toList) : 32 ≤ c.toNat :=
    C.printable row c (by rwa [String.toList_ofList] at hc)
  exact ⟨fun hc => absurd (hprintable _ hc) (by decide), fun hc => absurd (hprintable _ hc) (by decide)⟩

theorem oneLine_of_rows {log : List Item} (hlog : log = rows.map (item C)) :
    ∀ ev, .event ev ∈ log → OneLine ev := by
  intro ev hev
  rw [hlog] at hev
  obtain ⟨r, -, hr⟩ := List.mem_map.mp hev
  cases hr
  exact oneLine_new r.1 r.2

theorem shown_item {r : EventType × α} (h : C.Fits r.2) : shown C (item C r) = change C r := by
  have hconvert : convertRawEvent C (raw ⟨newEventFromInterface C r.1 r.2, 0, true⟩) =
      some ⟨utf8 r.1.string, C.entity r.2⟩ := by
    simp [convertRawEvent, raw, Stream.sseEvent, newEventFromInterface, C.unmarshal_marshal r.2 h]
  simp only [shown, item, answer, hconvert, change]

/-- Blocks that are in order make up a part of the list, in its order. -/
theorem cuts_sublist {β : Type} {l : List β} {bs : List (ℕ × ℕ)}
    (hordered : bs.Pairwise fun a b => a.2 ≤ b.1)
    (hwithin : ∀ b ∈ bs, b.1 ≤ b.2 ∧ b.2 ≤ l.length) {n : ℕ} (hn : ∀ b ∈ bs, n ≤ b.1) :
    (bs.flatMap (cut l)).Sublist (l.drop n) := by
  induction bs generalizing n with
  | nil => exact List.nil_sublist _
  | cons b bs ih =>
    obtain ⟨hb, hbs⟩ := List.pairwise_cons.mp hordered
    obtain ⟨⟨hle, hlen⟩, hwithin⟩ := List.forall_mem_cons.mp hwithin
    have hnb := hn b List.mem_cons_self
    have hsplit : l.drop n = (l.take b.2).drop n ++ l.drop b.2 := by
      conv_lhs => rw [← List.take_append_drop b.2 l]
      rw [List.drop_append_of_le_length (by rw [List.length_take]; omega)]
    have hcut : (cut l b).Sublist ((l.take b.2).drop n) := by
      obtain ⟨k, hk⟩ := Nat.exists_eq_add_of_le hnb
      rw [cut, hk, ← List.drop_drop]
      exact List.drop_sublist _ _
    rw [List.flatMap_cons, hsplit]
    exact hcut.append (ih hbs hwithin hb)

/-- As long as no write to a client succeeds after one that failed, what `Next` has returned over
all connections are the changes of the rows, as they were emitted: one block of the log for each
connection, the blocks in order and without overlap, hence no change twice and none before an
earlier one; and none of them was malformed. -/
theorem received_in_order (C : Codec α) (cap size : ℕ) (ms : List Move)
    (hgood : Meets (move C cap size) FailsForGood new ms)
    (rows : List (EventType × α)) (hsize : 2 ≤ size) (hfits : ∀ r ∈ rows, C.Fits r.2)
    (hlog : (play (move C cap size) new ms).hub.log = rows.map (item C)) :
    let s := play (move C cap size) new ms
    s.results.filter Result.isAnswer = (s.blocks.flatMap (cut rows)).map (change C) ∧
      (s.blocks.flatMap (cut rows)).Sublist rows ∧
      s.blocks.Pairwise (fun a b => a.2 ≤ b.1) ∧
      ∀ b ∈ s.blocks, b.1 ≤ b.2 ∧ b.2 ≤ rows.length := by
  intro s
  have hinv : Invariant C cap s := invariant_play hsize hgood (oneLine_of_rows hlog)
  have hlength : s.hub.log.length = rows.length := by simp [s, hlog]
  have hwithin : ∀ b ∈ s.blocks, b.1 ≤ b.2 ∧ b.2 ≤ rows.length := hlength ▸ hinv.within
  have hsublist : (s.blocks.flatMap (cut rows)).Sublist rows :=
    cuts_sublist (n := 0) hinv.ordered hwithin fun b _ => Nat.zero_le b.1
  have hcuts : s.blocks.flatMap (cut s.hub.log) = (s.blocks.flatMap (cut rows)).map (item C) := by
    rw [hlog, List.map_flatMap]
    exact List.flatMap_congr fun b _ => by simp [cut]
  refine ⟨?_, hsublist, hinv.ordered, hwithin⟩
  rw [hinv.answers, hcuts, List.map_map]
  exact List.map_congr_left fun r hr => shown_item (hfits r (hsublist.subset hr))

/-- What the server does to have an event written to its subscriber `i`, of two. -/
def relay (i : ℕ) : List Move :=
  [.hub .advance, .hub .advance, .hub .advance, .hub (.own i .dispatch), .hub (.own i .deliver),
    .hub (.own i (.write true)), .arrive 4096]

def zeroChanges : List (EventType × Route) := [(.create, .zero), (.update, .zero), (.delete, .zero)]

def emitZero (type : EventType) : Move := .hub (.emit (item routeCodec (type, .zero)))

/-- The connection breaks after the first event, and there is a new one only after the second. -/
def reconnectingRun : List Move :=
  [.connect, emitZero .create] ++ relay 0 ++
    [.next, .fail, emitZero .update, .hub .advance, .hub .advance, .connect, emitZero .delete] ++
    relay 1 ++ [.next]

theorem reconnectingRun_state :
    (play (move routeCodec 8 4096) new reconnectingRun).hub.log = zeroChanges.map (item routeCodec) ∧
      (play (move routeCodec 8 4096) new reconnectingRun).blocks = [(0, 1), (2, 3)] := by
  decide +kernel

theorem reconnectingRun_good :
    Meets (move routeCodec 8 4096) FailsForGood (new : System Route) reconnectingRun := by
  decide +kernel

/-- The event in between is not seen, which the id of the last one does not prevent. -/
theorem received_in_order_reconnecting :
    (play (move routeCodec 8 4096) new reconnectingRun).results.filter Result.isAnswer =
      [change routeCodec (.create, .zero), change routeCodec (.delete, .zero)] := by
  have hfits : ∀ r ∈ zeroChanges, routeCodec.Fits r.2 := by simp [zeroChanges, routeCodec, Route.zero]
  have h := (received_in_order routeCodec 8 4096 reconnectingRun reconnectingRun_good zeroChanges
    (by decide) hfits reconnectingRun_state.1).1
  rw [h, reconnectingRun_state.2]
  rfl

/-- An event has arrived when all the bytes up to its end have. -/
theorem Reads.arrived_iff {hub : Stream.Hub.System} {conn : Connection}
    {sub : Stream.Hub.Subscription} (h : Reads hub conn sub) {a : Attempt}
    (ha : (sent sub.stream.attempts)[conn.read]? = some a) :
    (bytes ((sent sub.stream.attempts).take (conn.read + 1))).length ≤ conn.arrived ↔
      (raw a).encode <+: conn.input := by
  have htake : bytes ((sent sub.stream.attempts).take (conn.read + 1)) =
      bytes ((sent sub.stream.attempts).take conn.read) ++ (raw a).encode := by
    rw [List.take_add_one, ha, bytes_append]
    simp
  have harrived := congrArg List.length h.input
  rw [List.length_take, Nat.min_eq_left h.arrived, List.length_append] at harrived
  rw [htake, List.length_append]
  constructor
  · intro hle
    have hdrop : (sent sub.stream.attempts).drop conn.read =
        [a] ++ (sent sub.stream.attempts).drop (conn.read + 1) := by
      obtain ⟨hlt, rfl⟩ := List.getElem?_eq_some_iff.mp ha
      exact List.drop_eq_getElem_cons hlt
    have hinput := h.input_isPrefix
    rw [hdrop, bytes_append, bytes_singleton] at hinput
    exact List.prefix_of_prefix_length_le (List.prefix_append _ _) hinput (by omega)
  · intro hprefix
    have := hprefix.length_le
    omega

/-- What a call of `Next` returns on an open source. -/
theorem Invariant.next_results {s : System α} {conn : Connection}
    {sub : Stream.Hub.Subscription} (h : Invariant C cap s) (hsize : 2 ≤ size)
    (hlines : ∀ ev, .event ev ∈ s.hub.log → OneLine ev) (hopen : s.closed = false)
    (hconn : s.current = some conn) (hreads : Reads s.hub conn sub) :
    (∃ a, (sent sub.stream.attempts)[conn.read]? = some a ∧ (raw a).encode <+: conn.input ∧
        (s.next C size).results = s.results ++ [shown C (.event a.event)]) ∨
      (∀ a, (sent sub.stream.attempts)[conn.read]? = some a → ¬(raw a).encode <+: conn.input) ∧
        ((s.next C size).results = s.results ∨
          s.ended conn = true ∧ (s.next C size).results = s.results ++ [.eof]) := by
  rcases hreads.next_cases hsize (h.oneLine hreads hlines) with
    ⟨a, rest, ha, hinput, hnext⟩ | ⟨hnext, hnot⟩
  · refine .inl ⟨a, ha, hinput ▸ List.prefix_append _ _, ?_⟩
    simp only [System.next, hopen, hconn, hnext]
    rfl
  · refine .inr ⟨hnot, ?_⟩
    by_cases hended : s.ended conn = true
    · exact .inr ⟨hended, by simp [System.next, hopen, hconn, hnext, hended, System.report]⟩
    · exact .inl (by simp [System.next, hopen, hconn, hnext, hended])

/-- By the end of the response every event in it has arrived. -/
theorem Reads.all_of_ended {s : System α} {conn : Connection} {sub : Stream.Hub.Subscription}
    (h : Reads s.hub conn sub) (hended : s.ended conn = true)
    (hnot : ∀ a, (sent sub.stream.attempts)[conn.read]? = some a → ¬(raw a).encode <+: conn.input) :
    conn.read = sub.stream.attempts.length := by
  simp only [System.ended, h.found, decide_eq_true_eq] at hended
  obtain ⟨-, hok, harrived⟩ := hended
  have hsent : sent sub.stream.attempts = sub.stream.attempts := sent_eq_self hok
  have hread := h.read
  rw [hsent] at hread
  by_contra hne
  have hlt : conn.read < (sent sub.stream.attempts).length := by
    rw [hsent]
    omega
  have ha := List.getElem?_eq_getElem hlt
  have hwire : wire sub.stream.attempts =
      bytes ((sent sub.stream.attempts).take (conn.read + 1)) ++
        bytes ((sent sub.stream.attempts).drop (conn.read + 1)) := by
    rw [← bytes_append, List.take_append_drop, wire]
  apply hnot _ ha
  rw [← h.arrived_iff ha, harrived, hwire, List.length_append]
  exact Nat.le_add_right _ _

/-- `Next` does not wait for an event that has arrived, nor return one that has not: as long as
the source is open, and no write to a client has succeeded after one that failed, it returns the
next change that was sent exactly when all bytes of it have arrived. It reports the end of the
stream only after every event that the handler wrote. -/
theorem next_returns_arrived (C : Codec α) (cap size : ℕ) (ms : List Move)
    (hgood : Meets (move C cap size) FailsForGood new ms)
    (rows : List (EventType × α)) (hsize : 2 ≤ size) (hfits : ∀ r ∈ rows, C.Fits r.2)
    (hlog : (play (move C cap size) new ms).hub.log = rows.map (item C))
    (conn : Connection) (sub : Stream.Hub.Subscription)
    (hopen : (play (move C cap size) new ms).closed = false)
    (hconn : (play (move C cap size) new ms).current = some conn)
    (hsub : (play (move C cap size) new ms).hub.subscriptions[conn.subscription]? = some sub) :
    let s := play (move C cap size) new ms
    let s' := move C cap size s .next
    (∀ r, rows[conn.start + conn.read]? = some r → conn.read < (sent sub.stream.attempts).length →
      (s'.results = s.results ++ [change C r] ↔
        (bytes ((sent sub.stream.attempts).take (conn.read + 1))).length ≤ conn.arrived)) ∧
    (s'.results = s.results ++ [.eof] → conn.read = sub.stream.attempts.length) := by
  intro s s'
  have hlines := oneLine_of_rows hlog
  have hinv : Invariant C cap s := invariant_play hsize hgood hlines
  obtain ⟨sub', hreads⟩ := hinv.reads conn hconn
  obtain rfl : sub' = sub := Option.some.inj (hreads.found.symm.trans hsub)
  have hresults := hinv.next_results hsize hlines hopen hconn hreads
  constructor
  · intro r hr hsent
    have hsome := List.getElem?_eq_getElem hsent
    rw [hreads.arrived_iff hsome]
    rcases hresults with ⟨a, ha, harrived, hanswer⟩ | ⟨hnot, hwait | ⟨-, heof⟩⟩
    · have hitem := hinv.getElem?_log hreads ha
      rw [hlog, List.getElem?_map, hr, Option.map_some, Option.some.injEq] at hitem
      rw [← hitem, shown_item (hfits r (List.mem_of_getElem? hr))] at hanswer
      rw [ha, Option.some.injEq] at hsome
      rw [← hsome]
      exact ⟨fun _ => harrived, fun _ => hanswer⟩
    · refine ⟨fun hchange => ?_, fun harrived => absurd harrived (hnot _ hsome)⟩
      rw [show s'.results = _ from hwait] at hchange
      simp at hchange
    · refine ⟨fun hchange => ?_, fun harrived => absurd harrived (hnot _ hsome)⟩
      rw [show s'.results = _ from heof] at hchange
      simp [change] at hchange
  · intro heof
    rcases hresults with ⟨a, -, -, hanswer⟩ | ⟨hnot, hwait | ⟨hended, -⟩⟩
    · rw [show s'.results = _ from hanswer, List.append_cancel_left_eq, List.singleton_inj] at heof
      have hisAnswer : (shown C (.event a.event)).isAnswer = true := isAnswer_answer _
      rw [heof] at hisAnswer
      cases hisAnswer
    · rw [show s'.results = _ from hwait] at heof
      simp at heof
    · exact hreads.all_of_ended hended hnot

/-- An event is written, and nothing of it has arrived. -/
def waitingRun : List Move :=
  [.connect, emitZero .create, .hub .advance, .hub .advance, .hub (.own 0 .dispatch),
    .hub (.own 0 .deliver), .hub (.own 0 (.write true))]

theorem next_returns_arrived_waiting :
    ¬(move routeCodec 8 4096 (play (move routeCodec 8 4096) new waitingRun) .next).results =
      (play (move routeCodec 8 4096) new waitingRun).results ++ [change routeCodec (.create, .zero)] := by
  have hfits : ∀ r ∈ [(EventType.create, Route.zero)], routeCodec.Fits r.2 := by
    simp [routeCodec, Route.zero]
  have hgood : Meets (move routeCodec 8 4096) FailsForGood (new : System Route) waitingRun := by
    decide +kernel
  have h := (next_returns_arrived routeCodec 8 4096 waitingRun hgood [(.create, .zero)] (by decide)
    hfits rfl _ _ rfl rfl rfl).1 (.create, .zero) rfl (by decide)
  rw [h]
  decide +kernel

end Received

end RoutingApi.Client.EventSource
