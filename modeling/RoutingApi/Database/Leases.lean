import RoutingApi.Database.Convergence
import RoutingApi.Database.Pruning
import RoutingApi.Replica.Leases

/-! The table of routes as a table of leases: what a list shows are the leases that have not run
out, and nothing of how and when rows are removed. -/
namespace RoutingApi.Database
open Relational Gorm Models Process Program Replica

section Model
variable {E C κ : Type}

/-- What of a row is taken over from the request, and for how long a request asks. `Full` are the
requests that leave no field of this to what is stored. -/
structure View (K : Kind E C κ) (V : Type) where
  shown : E → V
  duration : E → ℤ
  Full : E → Prop
  new : ∀ g now m e t, Full m → K.withModel g now m = some e →
    shown (K.setTag t e) = shown m ∧ K.expiresAt (K.setTag t e) = now + duration m
  updated : ∀ now x m e, Full m → K.update now x m = some e →
    shown e = shown m ∧ K.expiresAt e = now + duration m
  total : ∀ m, Full m → (∀ g now, K.withModel g now m ≠ none) ∧ ∀ now x, K.update now x m ≠ none

variable {V : Type} {K : Kind E C κ} (W : View K V)

def View.lease (e : E) : Lease V := ⟨W.shown e, K.expiresAt e⟩

/-- The lease that a request asks for. -/
def View.asked (now : ℤ) (m : E) : Lease V := ⟨W.shown m, now + W.duration m⟩

variable [DecidableEq κ]

/-- The leases that the table holds. -/
def View.held (w : World K) : Leases κ V := fun k => (snapshot K w.stored k).map W.lease

variable [DecidableEq E] (env : Env) (s : Schema C)

/-- What an operation does to the leases, if it succeeds. Pruning does nothing. -/
def View.apply (w : World K) (op : Op E) (L : Leases κ V) : Leases κ V :=
  match op with
  | .save m =>
    match ((saveEntity K m).run (handler env s) w).1 with
    | .ok () => grant (K.key m) (W.asked w.now m) L
    | .error _ => L
  | .delete m =>
    match ((deleteEntity K m).run (handler env s) w).1 with
    | .ok () => revoke (K.key m) L
    | .error _ => L
  | .tick _ => L
  | .prune => L

/-- The leases after a run. -/
def View.granted : List (Op E) → World K → Leases κ V → Leases κ V
  | [], _, L => L
  | op :: ops, w, L => granted ops (op.perform env s w) (W.apply env s w op L)

end Model

section Invariant
variable {E C κ : Type} {K : Kind E C κ} {env : Env} {s : Schema C} {w w' w₁ : World K}

/-- Rows stand in the table as they were written, at most one for a key. -/
structure Kept (w : World K) : Prop where
  exact : ∀ x ∈ w.table.rows, K.model.toRow (K.model.ofRow x) = x
  unique : ∀ e ∈ w.stored, ∀ f ∈ w.stored, K.key e = K.key f → e = f
  guids : ∀ e ∈ w.stored, K.guid e ≠ ""

theorem Kept.initial : Kept (World.initial K) := by
  refine ⟨fun _ hx => ?_, fun e he => ?_, fun e he => ?_⟩
  · cases hx
  · cases he
  · cases he

/-- What is stored for the key of a request is found. -/
theorem Kept.select (h : Kept w) {m e : E} (he : e ∈ w.stored) (hk : K.key e = K.key m) :
    K.model.toRow e ∈ w.table.select (K.lookup m) := by
  obtain ⟨x, hx, rfl⟩ := World.mem_stored.mp he
  rw [h.exact x hx]
  refine Table.mem_select.mpr ⟨hx, ?_⟩
  have hlookup := K.lookup_toRow m _ hk
  rwa [h.exact x hx] at hlookup

theorem Kept.unmatched (h : Kept w) {m : E} (hm : w.Unmatched m) :
    ∀ e ∈ w.stored, K.key e ≠ K.key m := by
  intro e he hk
  have hsel := h.select he hk
  rcases hm with hnil | ⟨x, hx, hzero⟩
  · rw [hnil] at hsel
    cases hsel
  · rw [hx, List.mem_singleton] at hsel
    rw [← hsel, K.ofRow_toRow] at hzero
    exact h.guids e he (hzero ▸ K.guid_zero)

/-- No two rows are found for a key. -/
theorem Kept.select_length (h : Kept w) (m : E) : ¬2 ≤ (w.table.select (K.lookup m)).length := by
  intro hlen
  match hsel : w.table.select (K.lookup m) with
  | [] => simp [hsel] at hlen
  | [x] => simp [hsel] at hlen
  | x :: y :: rest =>
    obtain ⟨hx, hxm⟩ : x ∈ w.table.rows ∧ holdsAll (K.lookup m) x = true :=
      Table.mem_select.mp (by simp [hsel])
    obtain ⟨hy, hym⟩ : y ∈ w.table.rows ∧ holdsAll (K.lookup m) y = true :=
      Table.mem_select.mp (by simp [hsel])
    have hkey := (K.key_of_lookup m x hxm).trans (K.key_of_lookup m y hym).symm
    have hxy := h.unique _ (World.mem_stored.mpr ⟨x, hx, rfl⟩) _
      (World.mem_stored.mpr ⟨y, hy, rfl⟩) hkey
    have hnodup : (w.table.select (K.lookup m)).Nodup := w.table.nodup_rows.filter _
    rw [hsel, ← h.exact x hx, ← h.exact y hy, hxy] at hnodup
    simp at hnodup

theorem Kept.subset (h : Kept w) (hrows : ∀ x ∈ w'.table.rows, x ∈ w.table.rows) : Kept w' where
  exact x hx := h.exact x (hrows x hx)
  unique e he f hf := h.unique e (World.stored_mono hrows e he) f (World.stored_mono hrows f hf)
  guids e he := h.guids e (World.stored_mono hrows e he)

theorem Kept.emits {evs : List (Event E)} (h : Kept w) (hw : w.Emits w' evs) : Kept w' :=
  h.subset fun _ hx => hw.table ▸ hx

theorem Kept.updated (h : Kept w) {m e : E} {x : Row C} (hx : w.Matched m x)
    (hu : K.update w.now (K.model.ofRow x) m = some e) (hg : K.guid e ≠ "")
    (hup : w.Updates w' s e) : Kept w' := by
  have hmem : K.model.ofRow x ∈ w.stored := World.mem_stored.mpr ⟨x, hx.mem, rfl⟩
  have hguid : K.guid e = K.guid (K.model.ofRow x) := K.update_guid _ _ _ _ hu
  have hkey : K.key e = K.key (K.model.ofRow x) := K.update_key _ _ _ _ hu
  -- another row with the key of the new one would have been the row that was found
  have hother : ∀ y ∈ w.stored, K.guid y ≠ K.guid e → K.key y ≠ K.key e := by
    intro y hy hne hk
    have hyx := h.unique y hy _ hmem (hk.trans hkey)
    exact hne (hyx ▸ hguid.symm)
  refine ⟨?_, ?_, ?_⟩
  · intro y hy
    rcases hup.mem_rows.mp hy with ⟨hy, -⟩ | rfl
    · exact h.exact y hy
    · rw [K.ofRow_toRow]
  · intro a ha b hb hk
    rcases hup.mem_stored.mp ha with ⟨ha, hane⟩ | rfl
    · rcases hup.mem_stored.mp hb with ⟨hb, -⟩ | rfl
      · exact h.unique a ha b hb hk
      · exact absurd hk (hother a ha hane)
    · rcases hup.mem_stored.mp hb with ⟨hb, hbne⟩ | rfl
      · exact absurd hk.symm (hother b hb hbne)
      · rfl
  · intro y hy
    rcases hup.mem_stored.mp hy with ⟨hy, -⟩ | rfl
    · exact h.guids y hy
    · exact hg

theorem Kept.created (h : Kept w) (hexact : K.model.Exact s) {m e : E} (hm : w.Unmatched m)
    (hkey : K.key e = K.key m) (hg : K.guid e ≠ "") (hins : w.Inserts w' s e) : Kept w' := by
  have hrow := K.model.insertRow_exact hexact e
  have hstored : w'.stored = w.stored ++ [e] := by rw [hins.stored, hrow, K.ofRow_toRow]
  have hnew : ∀ y ∈ w.stored, K.key y ≠ K.key e := fun y hy => hkey ▸ h.unmatched hm y hy
  refine ⟨?_, ?_, ?_⟩
  · intro y hy
    rcases hins.mem_rows.mp hy with hy | rfl
    · exact h.exact y hy
    · rw [hrow, K.ofRow_toRow]
  · intro a ha b hb hk
    rw [hstored, List.mem_append, List.mem_singleton] at ha hb
    rcases ha with ha | rfl
    · rcases hb with hb | rfl
      · exact h.unique a ha b hb hk
      · exact absurd hk (hnew a ha)
    · rcases hb with hb | rfl
      · exact absurd hk.symm (hnew b hb)
      · rfl
  · intro y hy
    rw [hstored, List.mem_append, List.mem_singleton] at hy
    rcases hy with hy | rfl
    · exact h.guids y hy
    · exact hg

theorem Kept.effect (hids : env.Uuids) (hexact : K.model.Exact s) (h : Kept w)
    (hw : Effect env s w w') : Kept w' := by
  cases hw with
  | ticked d => exact ⟨h.exact, h.unique, h.guids⟩
  | idle _ hw => exact h.emits hw
  | updated m x e w₁ _ hx hu hg hup hev => exact (h.updated hx hu hg hup).emits hev
  | created m i j g u e₀ w₁ _ hm hi hij hj hg hu he hins hev =>
    refine (h.created hexact hm (Kind.new_key he _) ?_ hins).emits hev
    rw [Kind.new_guid he]
    exact hids.nonempty i g hg
  | deleted m x w₁ _ hx hg hr hev =>
    exact (h.subset fun y hy => (hr.mem_rows.mp hy).1).emits hev
  | pruned w₁ _ hr hev => exact (h.subset fun y hy => (hr.mem_rows.mp hy).1).emits hev

end Invariant

section Simulation
variable {E C κ V : Type} [DecidableEq κ] {K : Kind E C κ} {W : View K V} {env : Env}
  {s : Schema C} {w w' w₁ : World K} {L L' : Leases κ V}

theorem held_eq_some (h : Kept w) {k : κ} {l : Lease V} :
    W.held w k = some l ↔ ∃ e ∈ w.stored, K.key e = k ∧ W.lease e = l := by
  rw [View.held, Option.map_eq_some_iff]
  constructor
  · rintro ⟨e, he, rfl⟩
    exact ⟨e, (snapshot_some he).1, (snapshot_some he).2, rfl⟩
  · rintro ⟨e, he, rfl, rfl⟩
    exact ⟨e, snapshot_of_mem he fun o ho hk => h.unique o ho e he hk, rfl⟩

/-- The leases of a table are determined by its rows. -/
theorem held_eq (h : Kept w)
    (hL : ∀ k l, (∃ e ∈ w.stored, K.key e = k ∧ W.lease e = l) ↔ L k = some l) : W.held w = L := by
  funext k
  exact Option.ext fun l => (held_eq_some h).trans (hL k l)

theorem held_emits {evs : List (Event E)} (hw : w.Emits w' evs) : W.held w' = W.held w := by
  unfold View.held
  rw [hw.stored]

theorem update_eq_some {k j : κ} {o : Option (Lease V)} {l : Lease V} :
    Function.update L k o j = some l ↔ (j = k ∧ o = some l) ∨ (j ≠ k ∧ L j = some l) := by
  by_cases hj : j = k
  · subst hj
    simp [Function.update_self]
  · simp [hj]

/-- An update of a row is a new lease for its key. -/
theorem held_updated (h : Kept w) {m e : E} {x : Row C} (hx : w.Matched m x)
    (hu : K.update w.now (K.model.ofRow x) m = some e) (hg : K.guid e ≠ "")
    (hup : w.Updates w' s e) : W.held w' = grant (K.key m) (W.lease e) (W.held w) := by
  have hmem : K.model.ofRow x ∈ w.stored := World.mem_stored.mpr ⟨x, hx.mem, rfl⟩
  have hguid : K.guid e = K.guid (K.model.ofRow x) := K.update_guid _ _ _ _ hu
  have hkey : K.key e = K.key m := (K.update_key _ _ _ _ hu).trans hx.key
  apply held_eq (h.updated hx hu hg hup)
  intro k l
  rw [grant, update_eq_some, held_eq_some h]
  constructor
  · rintro ⟨y, hy, rfl, rfl⟩
    rcases hup.mem_stored.mp hy with ⟨hy, hne⟩ | rfl
    · refine .inr ⟨fun hk => hne ?_, y, hy, rfl, rfl⟩
      rw [h.unique y hy _ hmem (hk.trans hx.key.symm), hguid]
    · exact .inl ⟨hkey, rfl⟩
  · rintro (⟨rfl, hl⟩ | ⟨hne, y, hy, rfl, rfl⟩)
    · exact ⟨e, hup.mem_stored.mpr (.inr rfl), hkey, Option.some.inj hl⟩
    · refine ⟨y, hup.mem_stored.mpr (.inl ⟨hy, fun hyg => hne ?_⟩), rfl, rfl⟩
      rw [World.stored_inj hy hmem (hyg.trans hguid), hx.key]

theorem held_created (h : Kept w) (hexact : K.model.Exact s) {m e : E} (hm : w.Unmatched m)
    (hkey : K.key e = K.key m) (hg : K.guid e ≠ "") (hins : w.Inserts w' s e) :
    W.held w' = grant (K.key m) (W.lease e) (W.held w) := by
  have hstored : w'.stored = w.stored ++ [e] := by
    rw [hins.stored, K.model.insertRow_exact hexact e, K.ofRow_toRow]
  apply held_eq (h.created hexact hm hkey hg hins)
  intro k l
  rw [grant, update_eq_some, held_eq_some h, hstored]
  simp only [List.mem_append, List.mem_singleton]
  constructor
  · rintro ⟨y, hy | rfl, rfl, rfl⟩
    · exact .inr ⟨h.unmatched hm y hy, y, hy, rfl, rfl⟩
    · exact .inl ⟨hkey, rfl⟩
  · rintro (⟨rfl, hl⟩ | ⟨-, y, hy, rfl, rfl⟩)
    · exact ⟨e, .inr rfl, hkey, Option.some.inj hl⟩
    · exact ⟨y, .inl hy, rfl, rfl⟩

theorem held_deleted (h : Kept w) {m : E} {x : Row C} (hx : w.Matched m x)
    (hr : w.Removes w' fun g => decide (g = K.guid (K.model.ofRow x))) :
    W.held w' = revoke (K.key m) (W.held w) := by
  have hmem : K.model.ofRow x ∈ w.stored := World.mem_stored.mpr ⟨x, hx.mem, rfl⟩
  apply held_eq (h.subset fun y hy => (hr.mem_rows.mp hy).1)
  intro k l
  rw [revoke, update_eq_some, held_eq_some h]
  simp only [hr.mem_stored, decide_eq_false_iff_not]
  constructor
  · rintro ⟨y, ⟨hy, hne⟩, rfl, rfl⟩
    refine .inr ⟨fun hk => hne ?_, y, hy, rfl, rfl⟩
    rw [h.unique y hy _ hmem (hk.trans hx.key.symm)]
  · rintro (⟨-, hl⟩ | ⟨hne, y, hy, rfl, rfl⟩)
    · cases hl
    · refine ⟨y, ⟨hy, fun hyg => hne ?_⟩, rfl, rfl⟩
      rw [World.stored_inj hy hmem hyg, hx.key]

/-- A pass removes only what has run out. -/
theorem held_pruned (h : Kept w) (hr : w.Removes w' fun g =>
      decide (g ∈ prunedGuids K ((expiredRows K w).map K.model.ofRow))) :
    SameFrom w.now (W.held w') (W.held w) := by
  have hkept := h.subset fun y hy => (hr.mem_rows.mp hy).1
  apply sameFrom_of_forgotten
  intro k
  cases hw : W.held w k with
  | none =>
    refine .inl (Option.eq_none_iff_forall_ne_some.mpr fun l hl => ?_)
    obtain ⟨e, he, hk, hel⟩ := (held_eq_some hkept).mp hl
    have hsome := (held_eq_some h).mpr ⟨e, (hr.mem_stored.mp he).1, hk, hel⟩
    rw [hw] at hsome
    cases hsome
  | some l =>
    obtain ⟨e, he, rfl, rfl⟩ := (held_eq_some h).mp hw
    by_cases hgone : K.guid e ∈ prunedGuids K ((expiredRows K w).map K.model.ofRow)
    · refine .inr ⟨Option.eq_none_iff_forall_ne_some.mpr fun l hl => ?_, ?_⟩
      · obtain ⟨f, hf, hk, -⟩ := (held_eq_some hkept).mp hl
        obtain ⟨hf, hne⟩ := hr.mem_stored.mp hf
        rw [h.unique f hf e he hk, decide_eq_false_iff_not] at hne
        exact hne hgone
      · rintro l ⟨⟩
        obtain ⟨x, hx, rfl⟩ := World.mem_stored.mp he
        have hexpired := (mem_prunedGuids h.guids hx).symm.trans (decide_eq_true hgone)
        have hlt := of_decide_eq_true hexpired
        have hsecond : (0 : ℤ) ≤ second := by decide
        simp only [View.lease]
        omega
    · refine .inl ((held_eq_some hkept).mpr ⟨e, hr.mem_stored.mpr ⟨he, ?_⟩, rfl, rfl⟩)
      rw [decide_eq_false hgone]

variable [DecidableEq E]

theorem apply_sameFrom (h : SameFrom w.now L L') (op : Op E) :
    SameFrom w.now (W.apply env s w op L) (W.apply env s w op L') := by
  cases op with
  | save m =>
    simp only [View.apply]
    split
    · exact h.update _ _
    · exact h
  | delete m =>
    simp only [View.apply]
    split
    · exact h.update _ _
    · exact h
  | tick d => exact h
  | prune => exact h

/-- A save that succeeds grants a lease for its key, and it is the one asked for if the request is
full; one that fails changes nothing. -/
theorem held_save (W : View K V) (hids : env.Uuids) (hexact : K.model.Exact s) (h : Kept w) (m : E) :
    let r := (saveEntity K m).run (handler env s) w
    (r.1 = .ok () ∧ ∃ l, W.held r.2 = grant (K.key m) l (W.held w) ∧
        (W.Full m → l = W.asked w.now m)) ∨
      (∃ e, r.1 = .error e) ∧ W.held r.2 = W.held w := by
  intro r
  have hsaved : Saved env s m w r := run_saveEntity m w
  clear_value r
  cases hsaved with
  | failed msg w' hw _ => exact .inr ⟨⟨_, rfl⟩, held_emits hw⟩
  | duplicated w' hw _ => exact .inr ⟨⟨_, rfl⟩, held_emits hw⟩
  | panicked w' hw _ => exact .inr ⟨⟨_, rfl⟩, held_emits hw⟩
  | refused w' hw _ => exact .inr ⟨⟨_, rfl⟩, held_emits hw⟩
  | updated x e w₁ w' hx hu hg hup hev =>
    refine .inl ⟨rfl, W.lease e, ?_, fun hfull => ?_⟩
    · rw [held_emits hev, held_updated h hx hu hg hup]
    · obtain ⟨hshown, hexpires⟩ := W.updated _ _ _ _ hfull hu
      rw [View.lease, hshown, hexpires, View.asked]
  | created i j g u e₀ w₁ w' hm hi hij hj hg hu he hins hev =>
    have hne : K.guid (K.setTag ⟨u, 0⟩ e₀) ≠ "" := by
      rw [Kind.new_guid he]
      exact hids.nonempty i g hg
    refine .inl ⟨rfl, W.lease (K.setTag ⟨u, 0⟩ e₀), ?_, fun hfull => ?_⟩
    · rw [held_emits hev, held_created h hexact hm (Kind.new_key he _) hne hins]
    · obtain ⟨hshown, hexpires⟩ := W.new g w.now m e₀ ⟨u, 0⟩ hfull he
      rw [View.lease, hshown, hexpires, View.asked]

theorem held_delete (W : View K V) (env : Env) (s : Schema C) (h : Kept w) (m : E) :
    let r := (deleteEntity K m).run (handler env s) w
    (r.1 = .ok () ∧ W.held r.2 = revoke (K.key m) (W.held w)) ∨
      (∃ e, r.1 = .error e) ∧ W.held r.2 = W.held w := by
  intro r
  have hdeleted : Deleted env m w r := run_deleteEntity m w
  clear_value r
  cases hdeleted with
  | failed msg w' hw _ => exact .inr ⟨⟨_, rfl⟩, held_emits hw⟩
  | duplicated w' hw _ => exact .inr ⟨⟨_, rfl⟩, held_emits hw⟩
  | notFound w' hw _ => exact .inr ⟨⟨_, rfl⟩, held_emits hw⟩
  | keyless x w' hw _ _ => exact .inr ⟨⟨_, rfl⟩, held_emits hw⟩
  | deleted x w₁ w' hx hg hr hev => exact .inl ⟨rfl, by rw [held_emits hev, held_deleted h hx hr]⟩

omit [DecidableEq E] in
theorem held_prune (h : Kept w) :
    SameFrom w.now (W.held ((pruneEntities K).run (handler env s) w).2) (W.held w) := by
  have hpruned : Pruned env w ((pruneEntities K).run (handler env s) w) := run_pruneEntities w
  generalize (pruneEntities K).run (handler env s) w = r at hpruned
  cases hpruned with
  | failed msg w' hw _ => exact held_emits hw ▸ .refl _ _
  | pruned w₁ w' hr hev =>
    rw [held_emits hev]
    exact held_pruned h hr

/-- One operation on the table is the operation on the leases. -/
theorem held_perform (hids : env.Uuids) (hexact : K.model.Exact s) (h : Kept w) {op : Op E}
    (hfull : ∀ m, op = .save m → W.Full m) :
    SameFrom w.now (W.held (op.perform env s w)) (W.apply env s w op (W.held w)) := by
  cases op with
  | tick d => exact .refl _ _
  | save m =>
    simp only [Op.perform, View.apply]
    rcases held_save W hids hexact h m with ⟨hok, l, hheld, hl⟩ | ⟨⟨e, he⟩, hheld⟩
    · rw [hheld, hok, hl (hfull m rfl)]
      exact .refl _ _
    · rw [hheld, he]
      exact .refl _ _
  | delete m =>
    simp only [Op.perform, View.apply]
    rcases held_delete W env s h m with ⟨hok, hheld⟩ | ⟨⟨e, he⟩, hheld⟩
    · rw [hheld, hok]
      exact .refl _ _
    · rw [hheld, he]
      exact .refl _ _
  | prune => exact held_prune h

/-- Operations on other keys do not change what is seen under a key. -/
theorem live_perform_of_ne (hids : env.Uuids) (hexact : K.model.Exact s) (h : Kept w) {op : Op E}
    {k : κ} (hop : ∀ m, op = .save m ∨ op = .delete m → K.key m ≠ k) {t : ℤ} (ht : w.now ≤ t) :
    live t (W.held (op.perform env s w)) k = live t (W.held w) k := by
  cases op with
  | tick d => rfl
  | save m =>
    have hne : k ≠ K.key m := (hop m (.inl rfl)).symm
    rcases held_save W hids hexact h m with ⟨-, l, hheld, -⟩ | ⟨-, hheld⟩
    · rw [Op.perform, hheld]
      exact live_congr (Function.update_of_ne hne _ _)
    · rw [Op.perform, hheld]
  | delete m =>
    have hne : k ≠ K.key m := (hop m (.inr rfl)).symm
    rcases held_delete W env s h m with ⟨-, hheld⟩ | ⟨-, hheld⟩
    · rw [Op.perform, hheld]
      exact live_congr (Function.update_of_ne hne _ _)
    · rw [Op.perform, hheld]
  | prune => exact held_prune h t ht k

/-- A run of operations on the table is the run of the operations on the leases. -/
theorem held_runOps (hids : env.Uuids) (hexact : K.model.Exact s) (ops : List (Op E))
    (h : Kept w) (hL : SameFrom w.now (W.held w) L) (hfull : ∀ m, .save m ∈ ops → W.Full m) :
    Kept (runOps env s ops w) ∧
      SameFrom (runOps env s ops w).now (W.held (runOps env s ops w)) (W.granted env s ops w L) := by
  induction ops generalizing w L with
  | nil => exact ⟨h, hL⟩
  | cons op ops ih =>
    have heffect : Effect env s w (op.perform env s w) := op.effect w
    have hstep := held_perform hids hexact h fun m hm => hfull m (hm ▸ List.mem_cons_self)
    have hsame := (hstep.trans (apply_sameFrom hL op)).mono heffect.now
    exact ih (h.effect hids hexact heffect) hsame fun m hm => hfull m (List.mem_cons_of_mem _ hm)

end Simulation

section Listing
variable {E C κ V : Type} [DecidableEq κ] {K : Kind E C κ} {W : View K V} {env : Env}
  {s : Schema C} {w : World K}

/-- What is listed are the leases that have not run out, each once. -/
theorem listed_iff (h : Kept w) {loaded : List E}
    (hread : ((readEntities K).run (handler env s) w).1 = .ok loaded) :
    (loaded.map K.key).Nodup ∧
      ∀ k v, (∃ e ∈ loaded, K.key e = k ∧ W.shown e = v) ↔ live w.now (W.held w) k = some v := by
  have hloaded := (run_readEntities hread).1
  have hmem (e : E) : e ∈ loaded ↔ e ∈ w.stored ∧ w.now < K.expiresAt e := by
    simp only [hloaded, List.mem_map, w.select_after, World.mem_stored]
    constructor
    · rintro ⟨x, ⟨hx, hlive⟩, rfl⟩
      exact ⟨⟨x, hx, rfl⟩, hlive⟩
    · rintro ⟨⟨x, hx, rfl⟩, hlive⟩
      exact ⟨x, ⟨hx, hlive⟩, rfl⟩
  constructor
  · rw [hloaded, List.map_map]
    refine List.Nodup.map_on ?_ (w.table.nodup_rows.filter _)
    intro x hx y hy hk
    have hx := (w.select_after w.now).mp hx
    have hy := (w.select_after w.now).mp hy
    have hxy := h.unique _ (World.mem_stored.mpr ⟨x, hx.1, rfl⟩) _
      (World.mem_stored.mpr ⟨y, hy.1, rfl⟩) hk
    rw [← h.exact x hx.1, ← h.exact y hy.1, hxy]
  · intro k v
    rw [live_eq_some]
    constructor
    · rintro ⟨e, he, rfl, rfl⟩
      obtain ⟨he, hlive⟩ := (hmem e).mp he
      exact ⟨W.lease e, (held_eq_some h).mpr ⟨e, he, rfl, rfl⟩, hlive, rfl⟩
    · rintro ⟨l, hl, hlive, rfl⟩
      obtain ⟨e, he, rfl, rfl⟩ := (held_eq_some h).mp hl
      exact ⟨e, (hmem e).mpr ⟨he, hlive⟩, rfl, rfl⟩

end Listing

section Faultless
variable {E C κ V : Type} [DecidableEq κ] {K : Kind E C κ} {W : View K V} {env : Env}
  {s : Schema C} {w w' : World K}

/-- The guids in the table were drawn. -/
def GuidsDrawn (env : Env) (w : World K) : Prop :=
  ∀ e ∈ w.stored, ∃ i < w.uuids, env.newV4 i = .ok (K.guid e)

omit [DecidableEq κ] in
theorem GuidsDrawn.subset (h : GuidsDrawn env w) (hstored : ∀ e ∈ w'.stored, e ∈ w.stored)
    (huuids : w.uuids ≤ w'.uuids) : GuidsDrawn env w' := by
  intro e he
  obtain ⟨i, hi, hg⟩ := h e (hstored e he)
  exact ⟨i, hi.trans_le huuids, hg⟩

omit [DecidableEq κ] in
theorem GuidsDrawn.effect (h : GuidsDrawn env w) (hw : Effect env s w w') : GuidsDrawn env w' := by
  cases hw with
  | ticked d => exact h
  | idle _ hw => exact h.subset (fun e he => hw.stored ▸ he) hw.uuids
  | updated m x e w₁ _ hx hu hg hup hev =>
    have huuids := hup.uuids.trans hev.uuids
    intro y hy
    rw [hev.stored] at hy
    rcases hup.mem_stored.mp hy with ⟨hy, -⟩ | rfl
    · obtain ⟨i, hi, hg⟩ := h y hy
      exact ⟨i, hi.trans_le huuids, hg⟩
    · obtain ⟨i, hi, hg⟩ := h _ (World.mem_stored.mpr ⟨x, hx.mem, rfl⟩)
      exact ⟨i, hi.trans_le huuids, by rw [hg, K.update_guid _ _ _ _ hu]⟩
  | created m i j g u e₀ w₁ _ hm hi hij hj hg hu he hins hev =>
    have hnew : ∃ k < w'.uuids, env.newV4 k = .ok (K.guid (K.setTag ⟨u, 0⟩ e₀)) :=
      ⟨i, (hij.trans hj).trans_le hev.uuids, by rw [hg, Kind.new_guid he]⟩
    intro y hy
    rw [hev.stored, hins.stored, List.mem_append, List.mem_singleton] at hy
    rcases hy with hy | rfl
    · obtain ⟨k, hk, hg⟩ := h y hy
      exact ⟨k, hk.trans_le (hins.uuids.trans hev.uuids), hg⟩
    · rw [K.guid_ofRow, K.insertRow_pk]
      exact hnew
  | deleted m x w₁ _ hx hg hr hev =>
    refine h.subset (fun e he => ?_) (hr.uuids.trans hev.uuids)
    rw [hev.stored] at he
    exact (hr.mem_stored.mp he).1
  | pruned w₁ _ hr hev =>
    refine h.subset (fun e he => ?_) (hr.uuids.trans hev.uuids)
    rw [hev.stored] at he
    exact (hr.mem_stored.mp he).1

variable [DecidableEq E]

omit [DecidableEq κ] in
/-- Without faults and other constraints than the primary key, every save succeeds. -/
theorem saveEntity_ok (hids : env.Uuids) (henv : env.Faultless)
    (hdraw : ∀ i, ∃ u, env.newV4 i = .ok u) (hindexes : s.indexes = []) (h : Kept w)
    (hdrawn : GuidsDrawn env w) {m : E} (hnew : ∀ g now, K.withModel g now m ≠ none)
    (hupdate : ∀ now x, K.update now x m ≠ none) :
    ((saveEntity K m).run (handler env s) w).1 = .ok () := by
  by_cases hstored : ∃ e ∈ w.stored, K.key e = K.key m
  · obtain ⟨e, he, hk⟩ := hstored
    obtain ⟨x, hx, rfl⟩ := World.mem_stored.mp he
    have hguid := h.guids _ he
    have hselect : w.table.select (K.lookup m) = [x] := by
      apply Table.select_eq_singleton
      intro y
      constructor
      · rintro ⟨hy, hholds⟩
        have hyx := h.unique _ (World.mem_stored.mpr ⟨y, hy, rfl⟩) _ he
          ((K.key_of_lookup m y hholds).trans hk.symm)
        rw [← h.exact y hy, hyx, h.exact x hx]
      · rintro rfl
        have hmem := h.select he hk
        rw [h.exact y hx] at hmem
        exact Table.mem_select.mp hmem
    have hmatched : w.Matched m x := ⟨hselect, fun hzero => hguid (hzero ▸ K.guid_zero)⟩
    obtain ⟨e, hu⟩ := Option.ne_none_iff_exists'.mp (hupdate w.now (K.model.ofRow x))
    have hg : K.guid e ≠ "" := by rwa [K.update_guid _ _ _ _ hu]
    have hup : w.table.update s.indexes (K.model.toRow e) ≠ none := by
      have hsome : ∃ t, w.table.update s.indexes (K.model.toRow e) = some t :=
        Table.update_isSome (by simp [hindexes])
      obtain ⟨t, ht⟩ := hsome
      rw [ht]
      exact Option.some_ne_none t
    obtain ⟨-, hok, -⟩ := Saved.of_matched hmatched henv hu hg hup (run_saveEntity m w)
    exact hok
  · have hselect : w.table.select (K.lookup m) = [] := by
      apply List.eq_nil_iff_forall_not_mem.mpr
      intro x hx
      obtain ⟨hx, hholds⟩ := Table.mem_select.mp hx
      exact hstored ⟨_, World.mem_stored.mpr ⟨x, hx, rfl⟩, K.key_of_lookup m x hholds⟩
    obtain ⟨g, hg⟩ := hdraw w.uuids
    obtain ⟨u, hu⟩ := hdraw (w.uuids + 1)
    obtain ⟨e, he⟩ := Option.ne_none_iff_exists'.mp (hnew g w.now)
    have hfresh : ¬w.table.Stores (K.model.insertRow s (K.setTag ⟨u, 0⟩ e) K.pk) := by
      rintro ⟨x, hx, hpk⟩
      rw [K.insertRow_pk, Kind.new_guid he, (w.typed x hx).pk, Cell.text.injEq] at hpk
      obtain ⟨i, hi, hdrawn⟩ := hdrawn _ (World.mem_stored.mpr ⟨x, hx, rfl⟩)
      have := hids.inj i w.uuids g (hpk ▸ hdrawn) hg
      omega
    have hadmits : admits s.indexes w.table.rows (K.model.insertRow s (K.setTag ⟨u, 0⟩ e)) = true := by
      simp [hindexes, admits]
    obtain ⟨t, ht⟩ := Table.insert_isSome hfresh hadmits
    exact run_saveEntity_fresh hselect henv hg hu he ht

variable (W) in
/-- An operation on the leases and the time. -/
def View.step (p : ℤ × Leases κ V) : Op E → ℤ × Leases κ V
  | .tick d => (p.1 + d, p.2)
  | .save m => (p.1, grant (K.key m) (W.asked p.1 m) p.2)
  | .delete m => (p.1, revoke (K.key m) p.2)
  | .prune => p

omit [DecidableEq κ] [DecidableEq E] in
theorem Deleted.now {m : E} {r : Except Err Unit × World K} (h : Deleted env m w r) :
    r.2.now = w.now := by
  cases h with
  | failed _ _ hw _ => exact hw.now
  | duplicated _ hw _ => exact hw.now
  | notFound _ hw _ => exact hw.now
  | keyless _ _ hw _ _ => exact hw.now
  | deleted _ _ _ _ _ hr hev => exact hev.now.trans hr.now

omit [DecidableEq κ] [DecidableEq E] in
theorem Pruned.now {r : Except Err Unit × World K} (h : Pruned env w r) : r.2.now = w.now := by
  cases h with
  | failed _ _ hw _ => exact hw.now
  | pruned _ _ hr hev => exact hev.now.trans hr.now

theorem perform_now (op : Op E) (L : Leases κ V) :
    (op.perform env s w).now = (W.step (w.now, L) op).1 := by
  cases op with
  | tick d => rfl
  | save m => exact (run_saveEntity m w).now
  | delete m => exact (run_deleteEntity m w).now
  | prune => exact (run_pruneEntities w).now

/-- Without faults the operations succeed, but for deletes of what is not there. -/
theorem apply_eq_step (hids : env.Uuids) (henv : env.Faultless)
    (hdraw : ∀ i, ∃ u, env.newV4 i = .ok u) (hindexes : s.indexes = []) (h : Kept w)
    (hdrawn : GuidsDrawn env w) {op : Op E} (hfull : ∀ m, op = .save m → W.Full m) :
    W.apply env s w op (W.held w) = (W.step (w.now, W.held w) op).2 := by
  cases op with
  | tick d => rfl
  | prune => rfl
  | save m =>
    obtain ⟨hnew, hupdate⟩ := W.total m (hfull m rfl)
    rw [View.apply, saveEntity_ok hids henv hdraw hindexes h hdrawn hnew hupdate, View.step]
  | delete m =>
    have hdeleted : Deleted env m w ((deleteEntity K m).run (handler env s) w) := run_deleteEntity m w
    simp only [View.apply, View.step]
    generalize (deleteEntity K m).run (handler env s) w = r at hdeleted
    cases hdeleted with
    | failed msg w' hw hwhy =>
      obtain ⟨n, hn⟩ := hwhy
      rw [henv] at hn
      cases hn
    | duplicated w' hw hlen => exact absurd hlen (h.select_length m)
    | notFound w' hw hm =>
      have hnone : W.held w (K.key m) = none := by
        apply Option.eq_none_iff_forall_ne_some.mpr
        intro l hl
        obtain ⟨e, he, hk, -⟩ := (held_eq_some h).mp hl
        exact h.unmatched hm e he hk
      rw [revoke, ← hnone, Function.update_eq_self]
    | keyless x w' hw hx hguid =>
      exact absurd hguid (h.guids _ (World.mem_stored.mpr ⟨x, hx.mem, rfl⟩))
    | deleted x w₁ w' hx hg hr hev => rfl

/-- A run of operations on the table, without faults, as one on the leases. -/
theorem held_play (hids : env.Uuids) (henv : env.Faultless)
    (hdraw : ∀ i, ∃ u, env.newV4 i = .ok u) (hexact : K.model.Exact s) (hindexes : s.indexes = [])
    (ops : List (Op E)) {L : Leases κ V} (h : Kept w) (hdrawn : GuidsDrawn env w)
    (hL : SameFrom w.now (W.held w) L) (hfull : ∀ m, .save m ∈ ops → W.Full m) :
    Kept (runOps env s ops w) ∧ (runOps env s ops w).now = (play W.step (w.now, L) ops).1 ∧
      SameFrom (runOps env s ops w).now (W.held (runOps env s ops w))
        (play W.step (w.now, L) ops).2 := by
  induction ops generalizing w L with
  | nil => exact ⟨h, rfl, hL⟩
  | cons op ops ih =>
    have heffect : Effect env s w (op.perform env s w) := op.effect w
    have hop : ∀ m, op = .save m → W.Full m := fun m hm => hfull m (hm ▸ List.mem_cons_self)
    have hstep : SameFrom w.now (W.held (op.perform env s w)) (W.step (w.now, L) op).2 := by
      have hperform := held_perform hids hexact h hop
      rw [apply_eq_step hids henv hdraw hindexes h hdrawn hop] at hperform
      refine hperform.trans ?_
      cases op with
      | tick d => exact hL
      | save m => exact hL.update _ _
      | delete m => exact hL.update _ _
      | prune => exact hL
    have hrest := ih (h.effect hids hexact heffect) (hdrawn.effect heffect)
      (hstep.mono heffect.now) fun m hm => hfull m (List.mem_cons_of_mem _ hm)
    rw [perform_now op L] at hrest
    exact hrest

theorem play_without_prune (ops : List (Op E)) (p : ℤ × Leases κ V) :
    play W.step p (ops.filter (· ≠ .prune)) = play W.step p ops := by
  induction ops generalizing p with
  | nil => rfl
  | cons op ops ih =>
    by_cases hop : op = .prune
    · subst hop
      simpa [View.step] using ih p
    · simpa [hop] using ih (W.step p op)

end Faultless

section Routes

/-- A route takes its TTL and its log guid from the request that gives both. -/
def routeView : View routeKind (Option ℤ × String) where
  shown r := (r.ttl, r.logGuid)
  duration r := ttlDuration (r.ttl.getD 0)
  Full r := r.ttl ≠ none ∧ r.logGuid ≠ ""
  new g now m e t hfull he := by
    obtain ⟨ttl, httl, rfl⟩ := Option.map_eq_some_iff.mp he
    exact ⟨rfl, by simp [routeKind, httl]⟩
  updated now x m e hfull he := by
    obtain ⟨ttl, httl⟩ := Option.ne_none_iff_exists'.mp hfull.1
    simp only [routeKind, Route.updateRoute, httl, Option.map_some, Option.some.injEq] at he
    subst he
    simp [hfull.2, httl, routeKind]
  total m hfull := by
    obtain ⟨ttl, httl⟩ := Option.ne_none_iff_exists'.mp hfull.1
    simp [routeKind, Route.withModel, Route.updateRoute, httl]

/-- `ReadRoutes` after any run, with whatever calls failing in it, lists the leases that were
granted by the saves that succeeded, as far as they have not run out or been deleted: one route
for each key, with the TTL and the log guid of the last save. Two assumptions of the model matter
here: `expires_at` is stored to the nanosecond, where `FindExpiredRoutes` reckons with a database
that rounds it, and a `Client` call that fails has changed nothing. -/
theorem readRoutes_lists_leases (env : Env) (s : Schema RouteColumn) (ops : List (Op Route))
    (loaded : List Route) (hids : env.Uuids)
    (hfull : ∀ m, .save m ∈ ops → m.ttl ≠ none ∧ m.logGuid ≠ "")
    (hread : (readRoutes.run (handler env s) (runOps env s ops (.initial routeKind))).1 =
      .ok loaded) :
    let w := runOps env s ops (.initial routeKind)
    let granted := routeView.granted env s ops (.initial routeKind) fun _ => none
    (loaded.map Route.key).Nodup ∧
      ∀ k v, (∃ r ∈ loaded, r.key = k ∧ (r.ttl, r.logGuid) = v) ↔ live w.now granted k = some v := by
  intro w granted
  obtain ⟨hkept, hsame⟩ := held_runOps (W := routeView) hids (Route.model_exact s) ops
    Kept.initial (.refl _ _) hfull
  obtain ⟨hnodup, hlisted⟩ := listed_iff (W := routeView) hkept hread
  refine ⟨hnodup, fun k v => ?_⟩
  have hlive : live w.now (routeView.held w) k = live w.now granted k := hsame w.now le_rfl k
  exact (hlisted k v).trans (by rw [hlive])

/-- Two routes, of which one is refreshed and the other runs out and is pruned. -/
def leasedRun : List (Op Route) :=
  [.save { route := "a.com", ip := "1.1.1.1", port := 80, ttl := some 10, logGuid := "a" },
    .save { route := "b.com", ip := "1.1.1.1", port := 80, ttl := some 10, logGuid := "b" },
    .tick 5000000000,
    .save { route := "b.com", ip := "1.1.1.1", port := 80, ttl := some 60, logGuid := "c" },
    .tick 30000000000, .prune]

theorem full_leasedRun : ∀ m, .save m ∈ leasedRun → m.ttl ≠ none ∧ m.logGuid ≠ "" := by
  simp [leasedRun]

theorem readRoutes_lists_leasedRun :
    ∃ loaded, (readRoutes.run (handler .quiet (.absent .anyKey))
        (runOps .quiet (.absent .anyKey) leasedRun (.initial routeKind))).1 = .ok loaded ∧
      (loaded.map Route.key).Nodup ∧
      ∃ r ∈ loaded, r.key = ⟨"b.com", "1.1.1.1", 80, ""⟩ ∧ (r.ttl, r.logGuid) = (some 60, "c") := by
  obtain ⟨loaded, hread⟩ := readEntities_ok (s := .absent .anyKey) Env.quiet_faultless
    (runOps .quiet (.absent .anyKey) leasedRun (.initial routeKind))
  obtain ⟨hnodup, hlisted⟩ := readRoutes_lists_leases .quiet (.absent .anyKey) leasedRun loaded
    Env.quiet_uuids full_leasedRun hread
  exact ⟨loaded, hread, hnodup, (hlisted _ _).mpr (by decide +kernel)⟩

/-- What a list shows of a route, but for its modification tag. -/
def visible (r : Route) : Route.Key × Option ℤ × String := (r.key, r.ttl, r.logGuid)

/-- Without faults, what is listed after a run is what the operations ask for. -/
theorem listed_of_play {env : Env} {d : Migrations.Dialect} (hids : env.Uuids)
    (henv : env.Faultless) (hdraw : ∀ i, ∃ u, env.newV4 i = .ok u) (ops : List (Op Route))
    (hfull : ∀ m, .save m ∈ ops → m.ttl ≠ none ∧ m.logGuid ≠ "") :
    ∃ loaded, (readRoutes.run (handler env (Migrations.routeSchema d))
        (runOps env (Migrations.routeSchema d) ops (.initial routeKind))).1 = .ok loaded ∧
      (loaded.map visible).Nodup ∧
      ∀ k v, (k, v) ∈ loaded.map visible ↔
        live (play routeView.step (0, fun _ => none) ops).1
          (play routeView.step (0, fun _ => none) ops).2 k = some v := by
  obtain ⟨hkept, hnow, hleases⟩ := held_play (W := routeView) hids henv hdraw
    (Route.model_exact _) (Migrations.routeSchema_indexes d) ops Kept.initial
    (fun e he => by cases he) (.refl (0 : ℤ) fun _ => none) hfull
  have hzero : (World.initial routeKind).now = 0 := rfl
  rw [hzero] at hnow hleases
  obtain ⟨loaded, hread⟩ := readEntities_ok (s := Migrations.routeSchema d) henv
    (runOps env (Migrations.routeSchema d) ops (.initial routeKind))
  obtain ⟨hnodup, hlisted⟩ := listed_iff (W := routeView) hkept hread
  refine ⟨loaded, hread, ?_, fun k v => ?_⟩
  · have hfst : (loaded.map visible).map Prod.fst = loaded.map Route.key := by
      rw [List.map_map]
      rfl
    exact List.Nodup.of_map Prod.fst (hfst ▸ hnodup)
  · have hlive := hleases _ le_rfl k
    rw [hnow] at hlive
    rw [← hlive, ← hnow, ← hlisted k v, List.mem_map]
    constructor
    · rintro ⟨r, hr, heq⟩
      cases heq
      exact ⟨r, hr, rfl, rfl⟩
    · rintro ⟨r, hr, rfl, rfl⟩
      exact ⟨r, hr, rfl⟩

/-- When pruning passes run makes no difference to what is listed: two runs of the same other
operations list the same, if every save has a TTL and a log guid. Without a log guid, an update
keeps the one that is stored, and a save after a pass does not. -/
theorem pruning_is_not_listed (env : Env) (d : Migrations.Dialect) (ops ops' : List (Op Route))
    (hids : env.Uuids) (henv : env.Faultless) (hdraw : ∀ i, ∃ u, env.newV4 i = .ok u)
    (hsame : ops.filter (· ≠ .prune) = ops'.filter (· ≠ .prune))
    (hfull : ∀ m, .save m ∈ ops → m.ttl ≠ none ∧ m.logGuid ≠ "") :
    let s := Migrations.routeSchema d
    ∃ loaded loaded',
      (readRoutes.run (handler env s) (runOps env s ops (.initial routeKind))).1 = .ok loaded ∧
      (readRoutes.run (handler env s) (runOps env s ops' (.initial routeKind))).1 = .ok loaded' ∧
      (loaded.map visible).Perm (loaded'.map visible) := by
  intro s
  have hfull' : ∀ m, .save m ∈ ops' → m.ttl ≠ none ∧ m.logGuid ≠ "" := by
    intro m hm
    apply hfull
    have hmem : Op.save m ∈ ops'.filter (· ≠ .prune) := List.mem_filter.mpr ⟨hm, by simp⟩
    rw [← hsame] at hmem
    exact (List.mem_filter.mp hmem).1
  have hplay : play routeView.step (0, fun _ => none) ops =
      play routeView.step (0, fun _ => none) ops' := by
    rw [← play_without_prune ops, hsame, play_without_prune]
  obtain ⟨loaded, hread, hnodup, hlisted⟩ := listed_of_play (d := d) hids henv hdraw ops hfull
  obtain ⟨loaded', hread', hnodup', hlisted'⟩ := listed_of_play (d := d) hids henv hdraw ops' hfull'
  refine ⟨loaded, loaded', hread, hread', (List.perm_ext_iff_of_nodup hnodup hnodup').mpr ?_⟩
  rintro ⟨k, v⟩
  rw [hlisted, hlisted', hplay]

theorem pruning_is_not_listed_leasedRun :
    ∃ loaded loaded',
      (readRoutes.run (handler .quiet (Migrations.routeSchema .mysql))
        (runOps .quiet (Migrations.routeSchema .mysql) leasedRun (.initial routeKind))).1 =
          .ok loaded ∧
      (readRoutes.run (handler .quiet (Migrations.routeSchema .mysql))
        (runOps .quiet (Migrations.routeSchema .mysql) leasedRun.dropLast (.initial routeKind))).1 =
          .ok loaded' ∧
      (loaded.map visible).Perm (loaded'.map visible) :=
  pruning_is_not_listed .quiet .mysql leasedRun leasedRun.dropLast Env.quiet_uuids
    Env.quiet_faultless (fun _ => ⟨_, rfl⟩) (by decide) full_leasedRun

end Routes

end RoutingApi.Database
