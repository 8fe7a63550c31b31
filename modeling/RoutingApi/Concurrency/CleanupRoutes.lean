import RoutingApi.Concurrency.ControlPoints
import RoutingApi.Database.Pruning
import RoutingApi.Process.Traces

/-! The loop of `CleanupRoutes`. At each tick it starts a pass of each kind in a goroutine of its
own, unless the last pass of that kind is still in flight; requests are served meanwhile. -/
namespace RoutingApi.Concurrency.CleanupRoutes
open Relational Gorm Models Process Program Database

section Model
variable {E C κ ι : Type}

/-- What concerns one kind: the requests that are being served, the passes whose goroutines have
not returned, and the flag that the loop swaps. -/
structure Half (K : Kind E C κ) (ι : Type) where
  calls : Pool (Call E C) Call.Resp Err Unit (World K) ι
  passes : List (DB E C Unit)
  inFlight : ℕ

inductive Act (ι : Type) where
  | call (i : ι)
  | pass (n : ℕ)
  | release (n : ℕ)
  deriving DecidableEq, Repr

variable {K : Kind E C κ}

def Half.world (h : Half K ι) : World K := h.calls.world

def Half.wait (d : ℕ) (h : Half K ι) : Half K ι :=
  { h with calls := { h.calls with world := h.world.tick d } }

/-- `CompareAndSwapInt32` of the flag, and the `go` statement. -/
def Half.tick (h : Half K ι) : Half K ι :=
  if h.inFlight = 0 then { h with inFlight := 1, passes := h.passes ++ [pruneEntities K] } else h

variable [DecidableEq ι] (env : Env) (s : Schema C)

/-- A request makes its next call. -/
def Half.call (i : ι) (h : Half K ι) : Half K ι :=
  { h with calls := h.calls.move (handler env s) World.tick (.step i) }

/-- A pass makes its next call. -/
def Half.pass (n : ℕ) (h : Half K ι) : Half K ι :=
  match h.passes[n]? with
  | none => h
  | some p =>
    let r := p.advance (handler env s) h.world
    { h with calls := { h.calls with world := r.2 }, passes := h.passes.set n r.1 }

/-- A pass has returned, with or without an error, and its deferred `StoreInt32` is done. -/
def Half.release (n : ℕ) (h : Half K ι) : Half K ι :=
  match h.passes[n]? with
  | none => h
  | some p => if p.Finished then { h with passes := h.passes.eraseIdx n, inFlight := 0 } else h

def Half.act (h : Half K ι) : Act ι → Half K ι
  | .call i => h.call env s i
  | .pass n => h.pass env s n
  | .release n => h.release n

/-- Before the first tick. -/
def Half.start {ι : Type} [DecidableEq E] (w : World K) (jobs : ι → Job E) : Half K ι :=
  ⟨Concurrency.calls w jobs, [], 0⟩

structure Loop (ι τ : Type) where
  tcp : Half tcpKind ι
  http : Half routeKind τ
  running : Bool

inductive Move (ι τ : Type) where
  | tick
  | signal
  | wait (d : ℕ)
  | tcp (a : Act ι)
  | http (a : Act τ)
  deriving DecidableEq, Repr

/-- The uuids that each kind of call draws, the calls of it that fail, and the two schemas. -/
structure Setting where
  tcpEnv : Env
  httpEnv : Env
  tcpSchema : Schema TcpColumn
  httpSchema : Schema RouteColumn

/-- A pass that is in flight when the loop returns goes on. -/
def move {ι τ : Type} [DecidableEq ι] [DecidableEq τ] (e : Setting) (l : Loop ι τ) :
    Move ι τ → Loop ι τ
  | .tick => if l.running then { l with tcp := l.tcp.tick, http := l.http.tick } else l
  | .signal => { l with running := false }
  | .wait d => { l with tcp := l.tcp.wait d, http := l.http.wait d }
  | .tcp a => { l with tcp := l.tcp.act e.tcpEnv e.tcpSchema a }
  | .http a => { l with http := l.http.act e.httpEnv e.httpSchema a }

end Model

section Counts
variable {E C κ : Type} {K : Kind E C κ}

/-- How often a row with this guid has been announced as expired. -/
def announced (g : String) (w : World K) : ℕ :=
  w.log.countP fun ev => decide (ev.type = .expire ∧ K.guid ev.value = g)

def Write.upserts (K : Kind E C κ) (g : String) : Write C → Bool
  | .insert r => decide (K.guid (K.model.ofRow r) = g)
  | .update r => decide (K.guid (K.model.ofRow r) = g)
  | .remove _ => false

/-- How often a row with this guid has been inserted or updated. -/
def written (g : String) (w : World K) : ℕ := w.writes.countP (Write.upserts K g)

/-- Whether a row with this guid is stored, as a number. -/
def stored (g : String) (w : World K) : ℕ := if w.table.Stores (.text g) then 1 else 0

variable {w w' : World K} {s : Schema C} {g : String}

theorem stored_mono (h : w'.table.Stores (.text g) → w.table.Stores (.text g)) :
    stored g w' ≤ stored g w := by
  unfold stored
  split
  · rw [if_pos (h ‹_›)]
  · exact Nat.zero_le _

/-- Nothing is announced, and what is stored in addition has been written. -/
structure Pays (w w' : World K) : Prop where
  quiet : ∀ g, announced g w' = announced g w
  grows : ∀ g, written g w ≤ written g w'
  paid : ∀ g, stored g w' + written g w ≤ stored g w + written g w'

theorem announced_emits {evs : List (Event E)} (h : w.Emits w' evs) (g : String) :
    announced g w' = announced g w +
      evs.countP fun ev => decide (ev.type = .expire ∧ K.guid ev.value = g) := by
  unfold announced
  rw [h.log, List.countP_append]

theorem written_emits {evs : List (Event E)} (h : w.Emits w' evs) (g : String) :
    written g w' = written g w := by
  unfold written
  rw [h.writes]

theorem stored_emits {evs : List (Event E)} (h : w.Emits w' evs) (g : String) :
    stored g w' = stored g w := by
  unfold stored
  rw [h.table]

theorem Pays.emits {evs : List (Event E)} (h : w.Emits w' evs)
    (hevs : ∀ ev ∈ evs, ev.type ≠ .expire) : Pays w w' := by
  refine ⟨fun g => ?_, fun g => (written_emits h g).ge, fun g => ?_⟩
  · rw [announced_emits h, Nat.add_eq_left, List.countP_eq_zero]
    intro ev hev hexpire
    exact hevs ev hev (of_decide_eq_true hexpire).1
  · rw [stored_emits h, written_emits h]

theorem Pays.silent (h : w.Emits w' []) : Pays w w' := .emits h (by simp)

theorem Pays.inserts {e : E} (h : w.Inserts w' s e) : Pays w w' := by
  have hguid : K.guid (K.model.ofRow (K.model.insertRow s e)) = K.guid e := by
    rw [K.guid_ofRow, K.insertRow_pk]
    rfl
  have hwritten (g : String) : written g w' = written g w + if K.guid e = g then 1 else 0 := by
    unfold written
    rw [h.writes, List.countP_append, List.countP_singleton]
    simp [Write.upserts, hguid]
  refine ⟨fun g => ?_, fun g => ?_, fun g => ?_⟩
  · unfold announced
    rw [h.log]
  · rw [hwritten]
    omega
  · rw [hwritten]
    unfold stored
    rw [if_congr h.stores_iff rfl rfl]
    by_cases hg : K.guid e = g
    · subst hg
      simp
      omega
    · have hne : Cell.text g ≠ .text (K.guid e) := fun h => hg (Cell.text.inj h).symm
      simp [hg, hne]

/-- A row that is stored has been written again. -/
theorem Pays.rewrites {write : Write C} (hwrites : w'.writes = w.writes ++ [write])
    (hlog : w'.log = w.log) (hstores : ∀ c, w'.table.Stores c → w.table.Stores c) :
    Pays w w' := by
  have hwritten (g : String) : written g w ≤ written g w' := by
    unfold written
    rw [hwrites, List.countP_append]
    omega
  refine ⟨fun g => ?_, hwritten, fun g => ?_⟩
  · unfold announced
    rw [hlog]
  · have hle : stored g w' ≤ stored g w := stored_mono (hstores _)
    have hge := hwritten g
    omega

theorem Pays.updates {e : E} (h : w.Updates w' s e) : Pays w w' :=
  .rewrites h.writes h.log fun _ => h.stores_iff.mp

theorem Pays.overwrites {e : E} {x : Row C} (h : w.Overwrites w' s e x) : Pays w w' :=
  .rewrites h.writes h.log fun _ => h.stores_iff.mp

theorem stores_removes {p : String → Bool} (h : w.Removes w' p) :
    w'.table.Stores (.text g) ↔ w.table.Stores (.text g) ∧ p g = false := by
  have hguid {x : Row C} (hx : x ∈ w.table.rows) (hg : x K.pk = .text g) :
      K.guid (K.model.ofRow x) = g := Cell.text.inj ((w.typed x hx).pk.symm.trans hg)
  constructor
  · rintro ⟨x, hx, hg⟩
    obtain ⟨hx, hp⟩ := h.mem_rows.mp hx
    rw [hguid hx hg] at hp
    exact ⟨⟨x, hx, hg⟩, hp⟩
  · rintro ⟨⟨x, hx, hg⟩, hp⟩
    rw [← hguid hx hg] at hp
    exact ⟨x, h.mem_rows.mpr ⟨hx, hp⟩, hg⟩

theorem announced_removes {p : String → Bool} (h : w.Removes w' p) (g : String) :
    announced g w' = announced g w := by
  unfold announced
  rw [h.log]

theorem written_removes {p : String → Bool} (h : w.Removes w' p) (g : String) :
    written g w' = written g w := by
  unfold written
  rw [h.writes, World.remove, List.countP_append, Nat.add_eq_left, List.countP_eq_zero]
  intro write hwrite
  obtain ⟨x, -, rfl⟩ := List.mem_map.mp hwrite
  exact Bool.false_ne_true

theorem Pays.removes {p : String → Bool} (h : w.Removes w' p) : Pays w w' := by
  refine ⟨announced_removes h, fun g => (written_removes h g).ge, fun g => ?_⟩
  rw [written_removes h]
  have hle : stored g w' ≤ stored g w := stored_mono fun hs => ((stores_removes h).mp hs).1
  omega

/-- A SELECT returns each guid at most once, and only if it is stored. -/
theorem count_select (w : World K) (q : List (Cond C)) (g : String) :
    (((w.table.select q).map K.model.ofRow).map K.guid).count g ≤ stored g w := by
  set guids := ((w.table.select q).map K.model.ofRow).map K.guid
  have hcells : guids.map Cell.text = (w.table.select q).map fun x => x K.pk := by
    simp only [guids, List.map_map]
    apply List.map_congr_left
    intro x hx
    exact (w.typed x (Table.mem_select.mp hx).1).pk.symm
  have hnodup : guids.Nodup := by
    apply List.Nodup.of_map Cell.text
    rw [hcells]
    exact w.table.nodup.sublist (List.filter_sublist.map _)
  unfold stored
  split
  next => exact List.nodup_iff_count_le_one.mp hnodup g
  next hnot =>
    rw [Nat.le_zero, List.count_eq_zero]
    intro hg
    have hcell : Cell.text g ∈ guids.map Cell.text := List.mem_map_of_mem hg
    rw [hcells] at hcell
    obtain ⟨x, hx, hpk⟩ := List.mem_map.mp hcell
    exact hnot ⟨x, (Table.mem_select.mp hx).1, hpk⟩

end Counts

section Points
variable {E C κ : Type} {K : Kind E C κ}

/-- Where a request can stand. -/
def OfRequest : Point E → Prop
  | .announcing ev => ev.type ≠ .expire
  | .pruning => False
  | .scanning _ => False
  | .clearing _ => False
  | .expiring _ => False
  | _ => True

/-- Where a pass can stand. -/
def OfPass : Point E → Prop
  | .pruning => True
  | .scanning _ => True
  | .clearing _ => True
  | .expiring _ => True
  | .failed _ => True
  | _ => False

/-- How often the guid can still be announced for the writes there have been: by the pass that is
in flight, and because a row with it is stored. Before the pass has deleted its rows these are the
same row. -/
def due (g : String) (w : World K) : List (Point E) → ℕ
  | .clearing routes :: _ => max ((routes.map K.guid).count g) (stored g w)
  | .expiring routes :: _ => (routes.map K.guid).count g + stored g w
  | _ => stored g w

variable {env : Env} {s : Schema C} {w w' : World K} {p p' : Point E}

theorem due_pays (h : Pays w w') (g : String) (ps : List (Point E)) :
    due g w' ps + written g w ≤ due g w ps + written g w' := by
  have hgrows := h.grows g
  have hpaid := h.paid g
  unfold due
  split <;> omega

theorem stored_le_due (g : String) (ps : List (Point E)) : stored g w ≤ due g w ps := by
  unfold due
  split <;> omega

variable [DecidableEq E]

theorem OfRequest.step (h : OfRequest p) (hs : Step env s w p p' w') :
    OfRequest p' ∧ Pays w w' := by
  cases hs with
  | failed _ _ _ _ hw => exact ⟨trivial, .silent hw⟩
  | matched _ _ _ hw => exact ⟨trivial, .silent hw⟩
  | unmatched _ _ hw => exact ⟨trivial, .silent hw⟩
  | refreshed => exact ⟨trivial, .silent (.refl w)⟩
  | drewGuid => exact ⟨trivial, .silent w.emits_drawn⟩
  | stamped => exact ⟨trivial, .silent (.refl w)⟩
  | drewTag => exact ⟨trivial, .silent w.emits_drawn⟩
  | inserted _ _ hins => exact ⟨by simp [OfRequest], .inserts hins⟩
  | updated _ _ _ hup => exact ⟨by simp [OfRequest], .updates hup⟩
  | reinserted _ _ _ _ hins => exact ⟨by simp [OfRequest], .inserts hins⟩
  | overwritten _ _ _ _ _ hover => exact ⟨by simp [OfRequest], .overwrites hover⟩
  | located _ _ _ hw => exact ⟨trivial, .silent hw⟩
  | removed _ _ _ hrem => exact ⟨by simp [OfRequest], .removes hrem⟩
  | announced ev _ hw => exact ⟨trivial, .emits hw fun _ hev => List.mem_singleton.mp hev ▸ h⟩
  | finished _ _ => exact ⟨h, .silent (.refl w)⟩
  | looked => exact h.elim
  | scanned => exact h.elim
  | cleared => exact h.elim
  | expired => exact h.elim

/-- A pass announces only what was due. -/
theorem OfPass.step (h : OfPass p) (hs : Step env s w p p' w') :
    OfPass p' ∧ ∀ g, written g w' = written g w ∧
      announced g w' + due g w' [p'] ≤ announced g w + due g w [p] := by
  have hsilent {q : Point E} (hw : w.Emits w' []) (g : String)
      (hdue : due g w [q] ≤ due g w [p]) : written g w' = written g w ∧
        announced g w' + due g w' [q] ≤ announced g w + due g w [p] := by
    refine ⟨written_emits hw g, ?_⟩
    have hannounced := announced_emits hw g
    have hsame : due g w' [q] = due g w [q] := by
      unfold due
      split <;> rw [stored_emits hw]
    rw [List.countP_nil] at hannounced
    omega
  cases hs with
  | failed _ _ _ _ hw => exact ⟨trivial, fun g => hsilent hw g (stored_le_due g [p])⟩
  | looked => exact ⟨trivial, fun g => hsilent (.refl w) g le_rfl⟩
  | scanned now _ hw =>
    refine ⟨trivial, fun g => hsilent hw g ?_⟩
    exact max_le (count_select w _ g) le_rfl
  | cleared routes _ hrem =>
    refine ⟨trivial, fun g => ⟨written_removes hrem g, ?_⟩⟩
    rw [announced_removes hrem]
    -- a row that the pass will announce is no longer stored
    have hrow : (routes.map K.guid).count g + stored g w' ≤
        max ((routes.map K.guid).count g) (stored g w) := by
      by_cases hg : g ∈ routes.map K.guid
      · have hgone : stored g w' = 0 := by
          unfold stored
          rw [if_neg]
          intro hstores
          have hkept := ((stores_removes hrem).mp hstores).2
          exact of_decide_eq_false hkept (List.mem_append_right _ hg)
        omega
      · have hle := stored_mono (g := g) fun hs => ((stores_removes hrem).mp hs).1
        rw [List.count_eq_zero_of_not_mem hg]
        omega
    exact Nat.add_le_add_left hrow _
  | expired r rest _ hw =>
    refine ⟨trivial, fun g => ⟨written_emits hw g, ?_⟩⟩
    have hannounced := announced_emits hw g
    have hstored := stored_emits hw g
    simp only [due, List.map_cons, List.count_cons, List.countP_singleton, beq_iff_eq] at hannounced ⊢
    simp only [true_and, decide_eq_true_eq] at hannounced
    omega
  | finished _ _ => exact ⟨h, fun g => hsilent (.refl w) g le_rfl⟩
  | matched => exact h.elim
  | unmatched => exact h.elim
  | refreshed => exact h.elim
  | drewGuid => exact h.elim
  | stamped => exact h.elim
  | drewTag => exact h.elim
  | inserted => exact h.elim
  | updated => exact h.elim
  | reinserted => exact h.elim
  | overwritten => exact h.elim
  | located => exact h.elim
  | removed => exact h.elim
  | announced => exact h.elim

end Points

section Halves
variable {E C κ ι : Type} [DecidableEq E] {K : Kind E C κ} {env : Env} {s : Schema C}
variable {w₀ : World K} {h : Half K ι} {ps : List (Point E)}

/-- The flag tells whether a pass is in flight, of which there is at most one; and since the
beginning no guid was announced more often than it was written or stored then. -/
structure Orderly (env : Env) (s : Schema C) (w₀ : World K) (h : Half K ι) (ps : List (Point E)) :
    Prop where
  requests : (chart env s).At (fun _ pts => ∀ i, OfRequest (pts i)) h.calls
  passes : h.passes = ps.map (Point.prog K)
  inFlight : h.inFlight = ps.length
  alone : ps.length ≤ 1
  ofPass : ∀ p ∈ ps, OfPass p
  covered : ∀ g, announced g h.world + due g h.world ps + written g w₀ ≤
    written g h.world + announced g w₀ + stored g w₀

/-- Requests and time. -/
theorem Orderly.pays (hh : Orderly env s w₀ h ps)
    {calls : Pool (Call E C) Call.Resp Err Unit (World K) ι}
    (hcalls : (chart env s).At (fun _ pts => ∀ i, OfRequest (pts i)) calls)
    (hpays : Pays h.world calls.world) : Orderly env s w₀ { h with calls := calls } ps := by
  refine ⟨hcalls, hh.passes, hh.inFlight, hh.alone, hh.ofPass, fun g => ?_⟩
  show announced g calls.world + due g calls.world ps + written g w₀ ≤
    written g calls.world + announced g w₀ + stored g w₀
  have hcovered := hh.covered g
  have hdue := due_pays hpays g ps
  have hquiet := hpays.quiet g
  omega

theorem Orderly.wait (hh : Orderly env s w₀ h ps) (d : ℕ) : Orderly env s w₀ (h.wait d) ps := by
  obtain ⟨pts, hcalls, hpts⟩ := hh.requests
  refine hh.pays ⟨pts, ?_, hpts⟩ ⟨fun g => rfl, fun g => le_rfl, fun g => le_rfl⟩
  rw [hcalls]
  rfl

theorem Orderly.tick (hh : Orderly env s w₀ h ps) : ∃ ps', Orderly env s w₀ h.tick ps' := by
  unfold Half.tick
  split
  next hfree =>
    -- with the flag down no pass is in flight
    have hnone : ps = [] := List.length_eq_zero_iff.mp (hh.inFlight.symm.trans hfree)
    subst hnone
    refine ⟨[.pruning], hh.requests, ?_, rfl, le_rfl, ?_, hh.covered⟩
    · rw [hh.passes]
      rfl
    · intro p hp
      rw [List.mem_singleton.mp hp]
      trivial
  next => exact ⟨ps, hh⟩

/-- The goroutine with this number is the one in flight. -/
theorem Orderly.getElem?_passes (hh : Orderly env s w₀ h ps) {n : ℕ} {q : DB E C Unit}
    (hn : h.passes[n]? = some q) : ∃ p, n = 0 ∧ ps = [p] ∧ q = p.prog K := by
  rw [hh.passes, List.getElem?_map, Option.map_eq_some_iff] at hn
  obtain ⟨p, hp, rfl⟩ := hn
  obtain ⟨hlt, hget⟩ := List.getElem?_eq_some_iff.mp hp
  have halone := hh.alone
  have hone : ps.length = 1 := by omega
  obtain ⟨a, rfl⟩ := List.length_eq_one_iff.mp hone
  have hzero : n = 0 := by omega
  subst hzero
  exact ⟨a, rfl, rfl, by rw [← hget]; rfl⟩

theorem Orderly.pass (hh : Orderly env s w₀ h ps) (n : ℕ) :
    ∃ ps', Orderly env s w₀ (h.pass env s n) ps' := by
  unfold Half.pass
  split
  next => exact ⟨ps, hh⟩
  next q hq =>
    obtain ⟨p, rfl, rfl, rfl⟩ := hh.getElem?_passes hq
    obtain ⟨hnext, hstep⟩ := (hh.ofPass p List.mem_cons_self).step (chart_step env s h.world p)
    obtain ⟨pts, hcalls, hpts⟩ := hh.requests
    refine ⟨[(chart env s).next p h.world], ⟨pts, ?_, hpts⟩, ?_, hh.inFlight, le_rfl, ?_, ?_⟩
    · show { h.calls with world := (chart env s).step p h.world } = _
      rw [hcalls]
      rfl
    · show h.passes.set 0 _ = _
      rw [hh.passes, advance_fst]
      rfl
    · intro p' hp'
      rw [List.mem_singleton.mp hp']
      exact hnext
    · intro g
      obtain ⟨hwritten, hannounced⟩ := hstep g
      have hcovered := hh.covered g
      set w := (chart env s).step p h.world
      show announced g w + due g w _ + written g w₀ ≤ written g w + announced g w₀ + stored g w₀
      omega

theorem Orderly.release (hh : Orderly env s w₀ h ps) (n : ℕ) :
    ∃ ps', Orderly env s w₀ (h.release n) ps' := by
  unfold Half.release
  split
  next => exact ⟨ps, hh⟩
  next q hq =>
    split
    next =>
      obtain ⟨p, rfl, rfl, rfl⟩ := hh.getElem?_passes hq
      refine ⟨[], hh.requests, ?_, rfl, Nat.zero_le 1, by simp, fun g => ?_⟩
      · show h.passes.eraseIdx 0 = []
        rw [hh.passes]
        rfl
      · have hcovered := hh.covered g
        have hle := stored_le_due (w := h.world) g [p]
        show announced g h.world + stored g h.world + written g w₀ ≤
          written g h.world + announced g w₀ + stored g w₀
        omega
    next => exact ⟨ps, hh⟩

theorem Orderly.start {w : World K} {jobs : ι → Job E} (hjobs : ∀ i, jobs i ≠ .prune) :
    Orderly env s w (Half.start w jobs) [] := by
  refine ⟨?_, rfl, rfl, Nat.zero_le 1, by simp, fun g => ?_⟩
  · show (chart env s).At _ (calls w jobs)
    rw [calls_eq env s]
    refine ⟨_, rfl, fun i => ?_⟩
    show OfRequest (jobs i).start
    cases hjob : jobs i with
    | save m => trivial
    | delete m => trivial
    | prune => exact hjobs i hjob
  · show announced g w + stored g w + written g w ≤ written g w + announced g w + stored g w
    omega

variable [DecidableEq ι]

theorem Orderly.call (hh : Orderly env s w₀ h ps) (i : ι) :
    Orderly env s w₀ (h.call env s i) ps := by
  obtain ⟨pts, hcalls, hpts⟩ := hh.requests
  obtain ⟨hnext, hpays⟩ := (hpts i).step (chart_step env s h.world (pts i))
  have hmove : h.calls.move (handler env s) World.tick (.step i) = (chart env s).pool
      ((chart env s).step (pts i) h.world)
      (Function.update pts i ((chart env s).next (pts i) h.world)) := by
    rw [hcalls]
    exact Chart.move_step ..
  have hpts' : ∀ j, OfRequest (Function.update pts i ((chart env s).next (pts i) h.world) j) := by
    rw [Function.forall_update_iff]
    exact ⟨hnext, fun j _ => hpts j⟩
  unfold Half.call
  rw [hmove]
  exact hh.pays ⟨_, rfl, hpts'⟩ hpays

theorem Orderly.act (hh : Orderly env s w₀ h ps) (a : Act ι) :
    ∃ ps', Orderly env s w₀ (h.act env s a) ps' := by
  cases a with
  | call i => exact ⟨ps, hh.call i⟩
  | pass n => exact hh.pass n
  | release n => exact hh.release n

end Halves

section Announcements
variable {ι τ : Type} [DecidableEq ι] [DecidableEq τ] {e : Setting} {l : Loop ι τ}
variable {w : World tcpKind} {w' : World routeKind}

/-- Both halves are in order. -/
def InOrder (e : Setting) (w : World tcpKind) (w' : World routeKind) (l : Loop ι τ) : Prop :=
  (∃ ps, Orderly e.tcpEnv e.tcpSchema w l.tcp ps) ∧
    ∃ ps, Orderly e.httpEnv e.httpSchema w' l.http ps

theorem InOrder.move (h : InOrder e w w' l) (m : Move ι τ) : InOrder e w w' (move e l m) := by
  obtain ⟨⟨ps, htcp⟩, ps', hhttp⟩ := h
  cases m with
  | tick =>
    show InOrder e w w'
      (if l.running then { l with tcp := l.tcp.tick, http := l.http.tick } else l)
    split
    · exact ⟨htcp.tick, hhttp.tick⟩
    · exact ⟨⟨ps, htcp⟩, ps', hhttp⟩
  | signal => exact ⟨⟨ps, htcp⟩, ps', hhttp⟩
  | wait d => exact ⟨⟨ps, htcp.wait d⟩, ps', hhttp.wait d⟩
  | tcp a => exact ⟨htcp.act a, ps', hhttp⟩
  | http a => exact ⟨⟨ps, htcp⟩, hhttp.act a⟩

/-- The loop before its first tick, with requests to come. -/
def start (w : World tcpKind) (jobs : ι → Job TcpRouteMapping) (w' : World routeKind)
    (jobs' : τ → Job Route) : Loop ι τ :=
  ⟨.start w jobs, .start w' jobs', true⟩

theorem inOrder_play {jobs : ι → Job TcpRouteMapping} {jobs' : τ → Job Route}
    (hjobs : ∀ i, jobs i ≠ .prune) (hjobs' : ∀ i, jobs' i ≠ .prune) (ms : List (Move ι τ)) :
    InOrder e w w' (play (move e) (start w jobs w' jobs') ms) :=
  play_invariant (fun _ m h => h.move m) ⟨⟨[], .start hjobs⟩, [], .start hjobs'⟩

theorem Orderly.summary {E C κ ι : Type} [DecidableEq E] {K : Kind E C κ} {env : Env} {s : Schema C}
    {w₀ : World K} {h : Half K ι} {ps : List (Point E)} (hh : Orderly env s w₀ h ps) :
    h.passes.length = h.inFlight ∧ h.inFlight ≤ 1 ∧ ∀ g,
      announced g h.world + written g w₀ ≤ announced g w₀ + written g h.world + stored g w₀ := by
  have hlength : h.passes.length = h.inFlight := by
    rw [hh.passes, List.length_map, hh.inFlight]
  refine ⟨hlength, hh.inFlight.trans_le hh.alone, fun g => ?_⟩
  have hcovered := hh.covered g
  omega

/-- In every interleaving of the loop, its passes and the requests, with any calls failing, at most
one pass of each kind is in flight, and since the start no row has been announced as expired more
often than it was written, counting a row that was there at the start as written once. -/
theorem expiries_announced_once (e : Setting) (w : World tcpKind) (w' : World routeKind)
    (jobs : ι → Job TcpRouteMapping) (jobs' : τ → Job Route) (hjobs : ∀ i, jobs i ≠ .prune)
    (hjobs' : ∀ i, jobs' i ≠ .prune) (ms : List (Move ι τ)) :
    let l := play (move e) (start w jobs w' jobs') ms
    (l.tcp.passes.length = l.tcp.inFlight ∧ l.tcp.inFlight ≤ 1 ∧ ∀ g,
      announced g l.tcp.world + written g w ≤
        announced g w + written g l.tcp.world + stored g w) ∧
    (l.http.passes.length = l.http.inFlight ∧ l.http.inFlight ≤ 1 ∧ ∀ g,
      announced g l.http.world + written g w' ≤
        announced g w' + written g l.http.world + stored g w') := by
  intro l
  obtain ⟨⟨_, htcp⟩, _, hhttp⟩ : InOrder e w w' l := inOrder_play hjobs hjobs' ms
  exact ⟨htcp.summary, hhttp.summary⟩

/-- A setting in which nothing fails. -/
def Setting.quiet : Setting := ⟨.quiet, .quiet, .absent .anyKey, .absent .anyKey⟩

/-- A loop beside one registration for a second. -/
def besideOne : Loop (Fin 1) (Fin 1) :=
  start (.initial tcpKind) (fun _ => .delete .zero) (.initial routeKind) fun _ =>
    .save { route := "a.com", ip := "1.1.1.1", port := 80, ttl := some 1 }

/-- The second tick comes while the pass of the first is in flight. -/
def slowPass : List (Move (Fin 1) (Fin 1)) :=
  List.replicate 6 (.http (.call 0)) ++
    [.wait 5000000000, .tick, .http (.pass 0), .http (.pass 0), .tick, .http (.pass 0),
      .http (.pass 0), .http (.release 0), .wait 5000000000, .tick]

theorem expiries_announced_once_slow :
    let l := play (move .quiet) besideOne slowPass
    announced "u" l.http.world = 1 ∧ l.http.inFlight = 1 ∧ l.http.passes.length = l.http.inFlight ∧
      announced "u" l.http.world ≤ written "u" l.http.world := by
  intro l
  obtain ⟨-, hpasses, -, hle⟩ := expiries_announced_once .quiet (.initial tcpKind)
    (.initial routeKind) (fun _ : Fin 1 => .delete .zero) (fun _ : Fin 1 =>
      .save { route := "a.com", ip := "1.1.1.1", port := 80, ttl := some 1 })
    (by simp) (by simp) slowPass
  refine ⟨by decide +kernel, by decide +kernel, hpasses, ?_⟩
  have hcount := hle "u"
  exact hcount.trans_eq (Nat.zero_add _)

end Announcements

section Recovery
variable {E C κ ι : Type} [DecidableEq ι] {K : Kind E C κ} {env : Env} {s : Schema C}

/-- The acts of a pass. -/
def Act.ofPass : Act ι → Bool
  | .call _ => false
  | _ => true

/-- A pass that is left to itself runs to its end. -/
theorem play_pass (p : DB E C Unit) (h : Half K ι) (hp : h.passes = [p]) :
    ∃ k q, q.Finished ∧ play (Half.act env s) h (List.replicate k (.pass 0)) =
      { h with
        calls := { h.calls with world := (p.run (handler env s) h.world).2 }
        passes := [q] } := by
  induction p generalizing h with
  | ret a => exact ⟨0, .ret a, rfl, by rw [← hp]; rfl⟩
  | fail err => exact ⟨0, .fail err, rfl, by rw [← hp]; rfl⟩
  | call c next ih =>
    have hpass : h.pass env s 0 =
        { h with
          calls := { h.calls with world := (handler env s c h.world).2 }
          passes := [next (handler env s c h.world).1] } := by
      simp [Half.pass, hp]
    obtain ⟨k, q, hq, hplay⟩ := ih (handler env s c h.world).1 (h.pass env s 0) (by rw [hpass])
    refine ⟨k + 1, q, hq, ?_⟩
    rw [List.replicate_succ, play_cons]
    show play (Half.act env s) (h.pass env s 0) _ = _
    rw [hplay, hpass]
    rfl

theorem play_release (p : DB E C Unit) (h : Half K ι) (hp : h.passes = [p]) :
    ∃ acts, (∀ a ∈ acts, a.ofPass = true) ∧ play (Half.act env s) h acts =
      ⟨{ h.calls with world := (p.run (handler env s) h.world).2 }, [], 0⟩ := by
  obtain ⟨k, q, hq, hplay⟩ := play_pass p h hp
  refine ⟨List.replicate k (.pass 0) ++ [.release 0], ?_, ?_⟩
  · intro a ha
    rcases List.mem_append.mp ha with ha | ha
    · rw [List.eq_of_mem_replicate ha]
      rfl
    · rw [List.mem_singleton.mp ha]
      rfl
  · rw [play_append, hplay]
    simp [Half.act, Half.release, hq]

/-- The calls that a pass makes. -/
def Prunes : Call E C → Prop
  | .now => True
  | .find _ => True
  | .deleteIn _ => True
  | .emit _ => True
  | _ => False

theorem only_emitExpired (routes : List E) : (emitExpired routes : DB E C Unit).Only Prunes := by
  induction routes with
  | nil => trivial
  | cons r rest ih => exact Only.bind ⟨trivial, fun _ => trivial⟩ fun _ => ih

theorem OfPass.only [DecidableEq E] {p : Point E} (h : OfPass p) : (p.prog K).Only Prunes := by
  have hfind (q : List (Cond C)) : (find q : DB E C (List E)).Only Prunes :=
    Only.bind ⟨trivial, fun _ => trivial⟩ only_ofExcept
  have hdelete (guids : List String) : (deleteIn guids : DB E C Unit).Only Prunes :=
    Only.bind ⟨trivial, fun _ => trivial⟩ only_ofExcept
  have hclear (routes : List E) : (Point.prog K (.clearing routes)).Only Prunes :=
    (hdelete _).bind fun _ => only_emitExpired routes
  cases p with
  | pruning =>
    have hexpired : (findExpiredRoutes K).Only Prunes :=
      Only.bind ⟨trivial, fun _ => trivial⟩ fun _ => hfind _
    exact hexpired.bind hclear
  | scanning now => exact (hfind _).bind hclear
  | clearing routes => exact hclear routes
  | expiring routes => exact only_emitExpired routes
  | failed e => trivial
  | _ => exact h.elim

theorem calls_handler {c : Call E C} (hc : Prunes c) (w : World K) :
    w.calls ≤ (handler env s c w).2.calls := by
  have hclient {α : Type} {f : World K → Except Err α × World K}
      (hf : (f w.called).2.calls = w.calls + 1) : w.calls ≤ (w.client env f).2.calls := by
    unfold World.client
    split
    · exact Nat.le_succ _
    · rw [hf]
      exact Nat.le_succ _
  cases c with
  | now => exact le_rfl
  | find q => exact hclient rfl
  | deleteIn guids => exact hclient rfl
  | emit ev => exact le_rfl
  | _ => exact hc.elim

theorem calls_run {p : DB E C Unit} (hp : p.Only Prunes) (w : World K) :
    w.calls ≤ (p.run (handler env s) w).2.calls := by
  induction p generalizing w with
  | ret a => exact le_rfl
  | fail e => exact le_rfl
  | call c next ih => exact (calls_handler hp.1 w).trans (ih _ (hp.2 _) _)

/-- A pass that ends well leaves no row that expired more than a second ago. -/
theorem stored_pruneEntities {w : World K} (hfault : ∀ n ≥ w.calls, env.fault n = none) :
    ∀ e ∈ ((pruneEntities K).run (handler env s) w).2.stored,
      ((pruneEntities K).run (handler env s) w).2.now - second ≤ K.expiresAt e := by
  intro e he
  have hok : ((pruneEntities K).run (handler env s) w).1 = .ok () :=
    (pruneEntities_ok_iff w).mpr ⟨hfault _ le_rfl, hfault _ (Nat.le_succ _)⟩
  have hpruned : Pruned env w ((pruneEntities K).run (handler env s) w) := run_pruneEntities w
  generalize (pruneEntities K).run (handler env s) w = r at he hok hpruned ⊢
  cases hpruned with
  | failed => cases hok
  | pruned w₁ w' hrem hev =>
    have hnow : w'.now = w.now := hev.now.trans hrem.now
    have he : e ∈ w'.stored := he
    rw [hev.stored] at he
    obtain ⟨hold, hkept⟩ := hrem.mem_stored.mp he
    obtain ⟨x, hx, rfl⟩ := World.mem_stored.mp hold
    by_contra hexpired
    have hselected : x ∈ expiredRows K w :=
      (w.select_before _).mpr ⟨hx, by rw [hnow] at hexpired; exact not_le.mp hexpired⟩
    refine of_decide_eq_false hkept (List.mem_append_right _ ?_)
    exact List.mem_map_of_mem (List.mem_map_of_mem hselected)

/-- The pass in flight ends, and gives the flag back. -/
theorem Orderly.drain [DecidableEq E] {w₀ : World K} {h : Half K ι} {ps : List (Point E)}
    (hh : Orderly env s w₀ h ps) :
    ∃ acts w, (∀ a ∈ acts, a.ofPass = true) ∧ h.world.calls ≤ w.calls ∧
      play (Half.act env s) h acts = ⟨{ h.calls with world := w }, [], 0⟩ := by
  have halone := hh.alone
  match ps, hh with
  | [], hh =>
    refine ⟨[], h.world, by simp, le_rfl, ?_⟩
    obtain ⟨calls, passes, inFlight⟩ := h
    have hpasses : passes = [] := hh.passes
    have hflag : inFlight = 0 := hh.inFlight
    subst hpasses hflag
    rfl
  | [p], hh =>
    obtain ⟨acts, hacts, hplay⟩ := play_release (p.prog K) h hh.passes
    exact ⟨acts, _, hacts, calls_run (hh.ofPass p (by simp)).only _, hplay⟩
  | _ :: _ :: _, _ => simp at halone

/-- With the flag down, a tick and the pass that it starts. -/
theorem sweep (calls : Pool (Call E C) Call.Resp Err Unit (World K) ι)
    (hfault : ∀ n ≥ calls.world.calls, env.fault n = none) :
    ∃ acts, (∀ a ∈ acts, a.ofPass = true) ∧
      let h := play (Half.act env s) (Half.tick ⟨calls, [], 0⟩) acts
      ∀ e ∈ h.world.stored, h.world.now - second ≤ K.expiresAt e := by
  obtain ⟨acts, hacts, hplay⟩ := play_release (pruneEntities K)
    (Half.tick ⟨calls, [], 0⟩) rfl
  refine ⟨acts, hacts, ?_⟩
  rw [hplay]
  exact stored_pruneEntities hfault

end Recovery

section Loops
variable {ι τ : Type} [DecidableEq ι] [DecidableEq τ] {e : Setting}

/-- The moves of the loop and of its passes. -/
def Move.ofLoop : Move ι τ → Bool
  | .tick => true
  | .tcp a => a.ofPass
  | .http a => a.ofPass
  | _ => false

theorem play_tcp (l : Loop ι τ) (acts : List (Act ι)) : play (move e) l (acts.map .tcp) =
    { l with tcp := play (Half.act e.tcpEnv e.tcpSchema) l.tcp acts } := by
  induction acts generalizing l with
  | nil => rfl
  | cons a acts ih => exact ih _

theorem play_http (l : Loop ι τ) (acts : List (Act τ)) : play (move e) l (acts.map .http) =
    { l with http := play (Half.act e.httpEnv e.httpSchema) l.http acts } := by
  induction acts generalizing l with
  | nil => rfl
  | cons a acts ih => exact ih _

/-- Both halves are drained, the loop takes a tick, and the passes it starts go on. -/
theorem play_round {l : Loop ι τ} (hrunning : l.running = true) {h : Half tcpKind ι}
    {h' : Half routeKind τ} {acts₁ : List (Act ι)} {acts₂ : List (Act τ)}
    (hplay : play (Half.act e.tcpEnv e.tcpSchema) l.tcp acts₁ = h)
    (hplay' : play (Half.act e.httpEnv e.httpSchema) l.http acts₂ = h') (acts₃ : List (Act ι))
    (acts₄ : List (Act τ)) :
    play (move e) l
        (acts₁.map .tcp ++ (acts₂.map .http ++ (.tick :: (acts₃.map .tcp ++ acts₄.map .http)))) =
      { l with
        tcp := play (Half.act e.tcpEnv e.tcpSchema) h.tick acts₃
        http := play (Half.act e.httpEnv e.httpSchema) h'.tick acts₄ } := by
  subst hplay hplay'
  have htick (h : Half tcpKind ι) (h' : Half routeKind τ) :
      move e ⟨h, h', l.running⟩ .tick = ⟨h.tick, h'.tick, l.running⟩ := by
    rw [hrunning]
    rfl
  rw [play_append, play_tcp l, play_append, play_http, play_cons, htick, play_append, play_tcp,
    play_http]

/-- Whatever has happened, pruning does not get stuck: while the loop is running and once calls no
longer fail, the loop and its passes need no other moves than their own to leave no row that
expired more than a second ago. -/
theorem pruning_recovers (e : Setting) (w : World tcpKind) (w' : World routeKind)
    (jobs : ι → Job TcpRouteMapping) (jobs' : τ → Job Route) (hjobs : ∀ i, jobs i ≠ .prune)
    (hjobs' : ∀ i, jobs' i ≠ .prune) (ms : List (Move ι τ)) :
    let l := play (move e) (start w jobs w' jobs') ms
    l.running = true → (∀ n ≥ l.tcp.world.calls, e.tcpEnv.fault n = none) →
      (∀ n ≥ l.http.world.calls, e.httpEnv.fault n = none) →
      ∃ ms' : List (Move ι τ), (∀ m ∈ ms', m.ofLoop = true) ∧
        let l' := play (move e) l ms'
        (∀ m ∈ l'.tcp.world.stored, l'.tcp.world.now - second ≤ m.expiresAt) ∧
          ∀ r ∈ l'.http.world.stored, l'.http.world.now - second ≤ r.expiresAt := by
  intro l hrunning htcpFault hhttpFault
  obtain ⟨⟨_, htcp⟩, _, hhttp⟩ : InOrder e w w' l := inOrder_play hjobs hjobs' ms
  obtain ⟨acts₁, w₁, hacts₁, hcalls₁, hplay₁⟩ := htcp.drain
  obtain ⟨acts₂, w₂, hacts₂, hcalls₂, hplay₂⟩ := hhttp.drain
  obtain ⟨acts₃, hacts₃, hswept₃⟩ := sweep (s := e.tcpSchema) { l.tcp.calls with world := w₁ }
    fun n hn => htcpFault n (hcalls₁.trans hn)
  obtain ⟨acts₄, hacts₄, hswept₄⟩ := sweep (s := e.httpSchema) { l.http.calls with world := w₂ }
    fun n hn => hhttpFault n (hcalls₂.trans hn)
  refine ⟨acts₁.map .tcp ++ (acts₂.map .http ++ (.tick :: (acts₃.map .tcp ++ acts₄.map .http))),
    ?_, ?_⟩
  · intro m hm
    simp only [List.mem_append, List.mem_cons, List.mem_map] at hm
    rcases hm with ⟨a, ha, rfl⟩ | ⟨a, ha, rfl⟩ | rfl | ⟨a, ha, rfl⟩ | ⟨a, ha, rfl⟩
    · exact hacts₁ a ha
    · exact hacts₂ a ha
    · rfl
    · exact hacts₃ a ha
    · exact hacts₄ a ha
  · rw [play_round hrunning hplay₁ hplay₂]
    exact ⟨hswept₃, hswept₄⟩

theorem pruning_recovers_slow :
    let l := play (move .quiet) besideOne slowPass
    ∃ ms' : List (Move (Fin 1) (Fin 1)), (∀ m ∈ ms', m.ofLoop = true) ∧
      let l' := play (move .quiet) l ms'
      (∀ m ∈ l'.tcp.world.stored, l'.tcp.world.now - second ≤ m.expiresAt) ∧
        ∀ r ∈ l'.http.world.stored, l'.http.world.now - second ≤ r.expiresAt :=
  pruning_recovers .quiet (.initial tcpKind) (.initial routeKind) (fun _ : Fin 1 => .delete .zero)
    (fun _ : Fin 1 => .save { route := "a.com", ip := "1.1.1.1", port := 80, ttl := some 1 })
    (by simp) (by simp) slowPass (by decide +kernel)
    (fun _ _ => rfl) fun _ _ => rfl

end Loops
end RoutingApi.Concurrency.CleanupRoutes
