import RoutingApi.Database.History

/-! A subscriber that loads a snapshot and replays events, some of which the snapshot
already reflects, ends up with the live rows and with no key that is not stored. -/
namespace RoutingApi.Database
open Relational Gorm Models Process Program Replica

section Subscriber
variable {E C κ : Type} [DecidableEq κ] (K : Kind E C κ)

/-- The entries of a list that was loaded, by key. -/
def snapshot (loaded : List E) (k : κ) : Option E := loaded.find? fun e => decide (K.key e = k)

/-- The entries of a subscriber that loaded a list and then applied events, in terms of
what JSON shows of a row. -/
def subscriber (loaded : List E) (evs : List (Event E)) : κ → Option E :=
  replay (rules K) (snapshot K (loaded.map K.entity)) ((changes evs).map (Change.map K.entity))

theorem snapshot_entity (loaded : List E) :
    snapshot K (loaded.map K.entity) = fun k => (snapshot K loaded k).map K.entity := by
  funext k
  simp only [snapshot, List.find?_map, Function.comp_def, K.entity_key]

theorem subscriber_eq (loaded : List E) (evs : List (Event E)) : subscriber K loaded evs =
    fun k => (replay (rules K) (snapshot K loaded) (changes evs) k).map K.entity := by
  rw [subscriber, snapshot_entity]
  exact replay_map K.entity_key K.entity_tag rfl _ _

variable {K}

theorem snapshot_some {loaded : List E} {k : κ} {o : E} (h : snapshot K loaded k = some o) :
    o ∈ loaded ∧ K.key o = k := by
  refine ⟨List.mem_of_find?_eq_some h, ?_⟩
  have hk := List.find?_some h
  exact of_decide_eq_true hk

theorem snapshot_of_mem {loaded : List E} {e : E} (he : e ∈ loaded)
    (hinj : ∀ o ∈ loaded, K.key o = K.key e → o = e) : snapshot K loaded (K.key e) = some e := by
  cases hs : snapshot K loaded (K.key e) with
  | none =>
    have hnone := List.find?_eq_none.mp hs e he
    simp at hnone
  | some o =>
    obtain ⟨ho, hk⟩ := snapshot_some hs
    rw [hinj o ho hk]

end Subscriber

section Convergence
variable {E C κ : Type} [DecidableEq κ] [DecidableEq E] (K : Kind E C κ)

/-- Every run, cut at an instant from which on events are collected, at a later one at
which the list is read, and at the end, leaves the subscriber as documented. -/
def Converges (env : Env) (s : Schema C) : Prop :=
  ∀ (before between after : List (Op E)) (loaded : List E),
    let start := runOps env s before (World.initial K)
    let read := (readEntities K).run (handler env s) (runOps env s between start)
    let final := runOps env s after read.2
    read.1 = .ok loaded → Unwrapped K final.log →
      (∀ e ∈ final.stored, final.now < K.expiresAt e →
        subscriber K loaded (final.log.drop start.log.length) (K.key e) = some (K.entity e)) ∧
      ∀ k o, subscriber K loaded (final.log.drop start.log.length) k = some o →
        ∃ e ∈ final.stored, K.key e = k

variable {K} {env : Env} {s : Schema C}

omit [DecidableEq E] in
/-- The snapshot holds the live rows, and only rows that the log knows of. -/
theorem read_live {w : World K} {loaded : List E} (hw : Recorded K env w)
    (h : ((readEntities K).run (handler env s) w).1 = .ok loaded) :
    (∀ e ∈ w.stored, w.now < K.expiresAt e → snapshot K loaded (K.key e) = some e) ∧
      ∀ k o, snapshot K loaded k = some o → settle (rules K) (changes w.log) k = some o := by
  have hloaded := (run_readEntities h).1
  have hmem : ∀ e, e ∈ loaded ↔ e ∈ w.stored ∧ w.now < K.expiresAt e := by
    intro e
    simp only [hloaded, List.mem_map, w.select_after, World.mem_stored]
    constructor
    · rintro ⟨x, ⟨hx, hlive⟩, rfl⟩
      exact ⟨⟨x, hx, rfl⟩, hlive⟩
    · rintro ⟨⟨x, hx, rfl⟩, hlive⟩
      exact ⟨x, ⟨hx, hlive⟩, rfl⟩
  constructor
  · intro e he hlive
    apply snapshot_of_mem ((hmem e).mpr ⟨he, hlive⟩)
    intro o ho hk
    exact hw.history.key_inj ((hmem o).mp ho).1 he hk
  · intro k o ho
    obtain ⟨ho, hk⟩ := snapshot_some ho
    exact (hw.history.settled k o).mpr ⟨((hmem o).mp ho).1, hk⟩

theorem converges (hids : env.Uuids) (hexact : K.model.Exact s) : Converges K env s := by
  intro before between after loaded start read final hread hbound
  set mid := runOps env s between start with hmid
  obtain ⟨evs, hevs⟩ : ∃ evs, mid.log = start.log ++ evs := runOps_log between start
  obtain ⟨evs', hevs'⟩ : ∃ evs', final.log = read.2.log ++ evs' := runOps_log after read.2
  have hemits : mid.Emits read.2 [] := (run_readEntities hread).2
  have hlog : final.log = mid.log ++ evs' := by rw [hevs', hemits.log, List.append_nil]
  have hnow : mid.now ≤ final.now := hemits.now ▸ runOps_now after read.2
  have hdrop : final.log.drop start.log.length = evs ++ evs' := by
    rw [hlog, hevs, List.append_assoc, List.drop_left]
  -- the log agrees with the table at the instant of the read and at the end
  have hmidrec : Recorded K env mid := by
    have hb : Unwrapped K mid.log := (hlog ▸ hbound).of_append
    rw [hmid, ← runOps_append] at hb ⊢
    exact runOps_recorded hids hexact .initial _ hb
  have hrec : Recorded K env final :=
    runOps_recorded hids hexact (hmidrec.emits hemits) after hbound
  obtain ⟨hlive, hsnap⟩ := read_live hmidrec hread
  have hfinal : changes final.log = changes start.log ++ changes evs ++ changes evs' := by
    rw [hlog, hevs, changes_append, changes_append]
  have hmidlog : changes mid.log = changes start.log ++ changes evs := by
    rw [hevs, changes_append]
  have hreplay := replay_suffix (hfinal ▸ hrec.history.precedes) (hmidlog ▸ hsnap)
  rw [← hfinal, ← changes_append] at hreplay
  -- a key without events since the start is stored at the end as it was at the read
  have hkeep : ∀ k, (∀ c ∈ changes (evs ++ evs'), K.key c.entry ≠ k) →
      settle (rules K) (changes final.log) k = settle (rules K) (changes mid.log) k := by
    intro k hk
    rw [hlog, changes_append]
    apply settle_append_of_ne
    intro c hc
    exact hk c (by rw [changes_append]; exact List.mem_append_right _ hc)
  rw [hdrop, subscriber_eq]
  constructor
  · intro e he helive
    have hsettled := (hrec.history.settled (K.key e) e).mpr ⟨he, rfl⟩
    rcases hreplay (K.key e) with heq | ⟨hnone, heq⟩
    · simp only [heq, hsettled, Option.map_some]
    · have hmidstored := ((hmidrec.history.settled _ e).mp (hkeep _ hnone ▸ hsettled)).1
      simp only [heq, hlive e hmidstored (hnow.trans_lt helive), Option.map_some]
  · intro k o ho
    obtain ⟨e, he, -⟩ := Option.map_eq_some_iff.mp ho
    rcases hreplay k with heq | ⟨hnone, heq⟩
    · exact ⟨e, (hrec.history.settled k e).mp (heq ▸ he)⟩
    · refine ⟨e, (hrec.history.settled k e).mp ?_⟩
      rw [hkeep k hnone]
      exact hsnap k e (heq ▸ he)

end Convergence

/-- Snapshot plus replay converges, for HTTP routes on any schema and for TCP route
mappings on a schema that stores them exactly. -/
theorem snapshot_replay_converges (env : Env) (hids : env.Uuids) (s : Schema RouteColumn)
    (t : Schema TcpColumn) (ht : TcpRouteMapping.model.Exact t) :
    Converges routeKind env s ∧ Converges tcpKind env t :=
  ⟨converges hids (Route.model_exact s), converges hids ht⟩

section Sample
variable {E C κ : Type} [DecidableEq E] [DecidableEq κ] (K : Kind E C κ) (s : Schema C) (a b : E)

/-- Two entries are registered, of which `b` is refreshed before and after the list is read, while
`a` runs out, is pruned and is registered again. -/
def rejoined : World K :=
  let start := runOps .quiet s [.save a, .save b] (World.initial K)
  let read := (readEntities K).run (handler .quiet s) (runOps .quiet s [.save b] start)
  runOps .quiet s [.tick 3000000000, .prune, .save a, .save b] read.2

/-- A subscriber that collects events from the refresh on has both entries at the end, as they are
stored, and no others. -/
def KeepsUp : Prop :=
  let start := runOps .quiet s [.save a, .save b] (World.initial K)
  ∃ loaded, ((readEntities K).run (handler .quiet s) (runOps .quiet s [.save b] start)).1 =
      .ok loaded ∧
    (rejoined K s a b).log.map (·.type) = [.create, .create, .update, .expire, .create, .update] ∧
    (rejoined K s a b).stored.map K.key = [K.key b, K.key a] ∧
    (∀ e ∈ (rejoined K s a b).stored,
      subscriber K loaded ((rejoined K s a b).log.drop start.log.length) (K.key e) =
        some (K.entity e)) ∧
    ∀ k o, subscriber K loaded ((rejoined K s a b).log.drop start.log.length) k = some o →
      k = K.key b ∨ k = K.key a

variable {K s a b} in
theorem Converges.keepsUp (h : Converges K .quiet s)
    (htypes : (rejoined K s a b).log.map (·.type) =
      [.create, .create, .update, .expire, .create, .update])
    (hkeys : (rejoined K s a b).stored.map K.key = [K.key b, K.key a])
    (hlive : ∀ e ∈ (rejoined K s a b).stored, (rejoined K s a b).now < K.expiresAt e) :
    KeepsUp K s a b := by
  obtain ⟨loaded, hread⟩ := readEntities_ok (s := s) Env.quiet_faultless
    (runOps .quiet s [.save b] (runOps .quiet s [.save a, .save b] (World.initial K)))
  have hlength : (rejoined K s a b).log.length = 6 := by
    simpa using congrArg List.length htypes
  have hbound : Unwrapped K (rejoined K s a b).log :=
    unwrapped_of_length K (by rw [hlength]; norm_num)
  obtain ⟨hboth, hothers⟩ := h [.save a, .save b] [.save b]
    [.tick 3000000000, .prune, .save a, .save b] loaded hread hbound
  refine ⟨loaded, hread, htypes, hkeys, fun e he => hboth e he (hlive e he), fun k o hk => ?_⟩
  obtain ⟨e, he, rfl⟩ := hothers k o hk
  have hmem : K.key e ∈ (rejoined K s a b).stored.map K.key := List.mem_map_of_mem he
  simpa [hkeys] using hmem

end Sample

/-- A schema whose defaults are the zero values, as V8 meant it. -/
def zeroDefaults : Schema TcpColumn where
  columns := TcpRouteMapping.model.columns
  default := TcpRouteMapping.zero.toRow
  indexes := []
  conflictTarget := .anyKey

theorem snapshot_replay_converges_zeroDefaults :
    KeepsUp routeKind (.absent .anyKey) { route := "a.com", ttl := some 1 }
      { route := "b.com", ttl := some 60 } ∧
    KeepsUp tcpKind zeroDefaults { externalPort := 1024, ttl := some 1 }
      { externalPort := 1025, ttl := some 60 } := by
  obtain ⟨hroutes, hmappings⟩ := snapshot_replay_converges .quiet Env.quiet_uuids
    (.absent .anyKey) zeroDefaults fun _ _ => rfl
  exact ⟨hroutes.keepsUp (by decide +kernel) (by decide +kernel) (by decide +kernel),
    hmappings.keepsUp (by decide +kernel) (by decide +kernel) (by decide +kernel)⟩

end RoutingApi.Database
