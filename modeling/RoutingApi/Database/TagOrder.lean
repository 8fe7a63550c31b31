import RoutingApi.Database.History
import RoutingApi.Migration.Migrations

/-! Modification tags as an order on the history of a key. The index of a tag is the number of
updates that its row has had, modulo 2^32, so the order lasts until an index wraps around. -/
namespace RoutingApi.Database
open Relational Gorm Models Process Program
open Migrations (routeSchema)

section Order
variable {E C κ : Type} (K : Kind E C κ)

def Event.IsUpsert (ev : Event E) : Prop := ev.type = .create ∨ ev.type = .update

/-- The tags of two events, the earlier one first, order them if they are upserts of one key. -/
def InOrder (ev ev' : Event E) : Prop :=
  ev.IsUpsert → ev'.IsUpsert → K.key ev.value = K.key ev'.value →
    ModificationTag.succeededBy (some (K.tag ev.value)) (K.tag ev'.value) = true ∧
      ((K.tag ev.value).guid = (K.tag ev'.value).guid →
        ModificationTag.succeededBy (some (K.tag ev'.value)) (K.tag ev.value) = false)

/-- Tags order the history of every key. -/
def Ordered (log : List (Event E)) : Prop := log.Pairwise (InOrder K)

/-- The row `e` is the one that the event `o` announced as new, possibly updated since. -/
structure Descends (o : Event E) (e : E) : Prop where
  created : o.type = .create
  guid : K.guid o.value = K.guid e
  tag : (K.tag o.value).guid = (K.tag e).guid
  key : K.key o.value = K.key e

/-- What the events before it say about the tag of an event: that of a new row is fresh, and an
update counts the updates of its row. -/
structure Numbered (before : List (Event E)) (ev : Event E) : Prop where
  create : ev.type = .create → (K.tag ev.value).index = 0 ∧ (K.tag ev.value).guid ≠ "" ∧
    ∀ o ∈ before, K.guid o.value ≠ K.guid ev.value ∧
      (K.tag o.value).guid ≠ (K.tag ev.value).guid
  update : ev.type = .update → (∃ o ∈ before, Descends K o ev.value) ∧
    (K.tag ev.value).index = UInt32.ofNat (updates K (K.guid ev.value) before + 1)

variable {K} {log before after : List (Event E)} {ev o o' : Event E}

theorem updates_snoc (g : String) (log : List (Event E)) (ev : Event E) :
    updates K g (log ++ [ev]) =
      updates K g log + if ev.type = .update ∧ K.guid ev.value = g then 1 else 0 := by
  rw [updates_append]
  simp [updates, List.countP_singleton]

/-- A row that no event names has not been updated. -/
theorem updates_eq_zero {g : String} (h : ∀ o ∈ log, K.guid o.value ≠ g) : updates K g log = 0 := by
  rw [updates, List.countP_eq_zero]
  intro o ho hc
  exact h o ho (of_decide_eq_true hc).2

section Grounded
variable (h : Grounded (Numbered K) log)
include h

theorem numbered_of_mem (hev : ev ∈ log) : ∃ before, Numbered K before ev ∧ ∀ o ∈ before, o ∈ log := by
  obtain ⟨before, after, rfl⟩ := List.append_of_mem hev
  exact ⟨before, h before ev after rfl, fun o ho => List.mem_append_left _ ho⟩

/-- Every upsert descends from an event that created its row. -/
theorem descends_of_mem (hev : ev ∈ log) (hup : ev.IsUpsert) : ∃ o ∈ log, Descends K o ev.value := by
  rcases hup with hcreate | hupdate
  · exact ⟨ev, hev, hcreate, rfl, rfl, rfl⟩
  · obtain ⟨before, hnum, hsub⟩ := numbered_of_mem h hev
    obtain ⟨⟨o, ho, hdesc⟩, -⟩ := hnum.update hupdate
    exact ⟨o, hsub o ho, hdesc⟩

/-- Two rows that were created have different guids and different tags. -/
theorem created_inj (ho : o ∈ log) (ho' : o' ∈ log) (hc : o.type = .create)
    (hc' : o'.type = .create) (heq : K.guid o.value = K.guid o'.value ∨
      (K.tag o.value).guid = (K.tag o'.value).guid) : o = o' := by
  obtain ⟨before, after, hlog⟩ := List.append_of_mem ho
  have hmem := ho'
  rw [hlog, List.mem_append, List.mem_cons] at hmem
  rcases hmem with hmem | rfl | hmem
  · obtain ⟨-, -, hfresh⟩ := (h before o after hlog).create hc
    obtain ⟨hguid, htag⟩ := hfresh o' hmem
    rcases heq with heq | heq
    · exact absurd heq.symm hguid
    · exact absurd heq.symm htag
  · rfl
  · obtain ⟨mid, rest, rfl⟩ := List.append_of_mem hmem
    obtain ⟨-, -, hfresh⟩ :=
      (h (before ++ o :: mid) o' rest (by rw [hlog, List.append_assoc]; rfl)).create hc'
    obtain ⟨hguid, htag⟩ := hfresh o (by simp)
    rcases heq with heq | heq
    · exact absurd heq hguid
    · exact absurd heq htag

/-- Upserts whose tags have one guid are about one row. -/
theorem guid_of_tag {ev' : Event E} (hev : ev ∈ log) (hev' : ev' ∈ log) (hup : ev.IsUpsert)
    (hup' : ev'.IsUpsert) (htag : (K.tag ev.value).guid = (K.tag ev'.value).guid) :
    K.guid ev.value = K.guid ev'.value := by
  obtain ⟨o, ho, hdesc⟩ := descends_of_mem h hev hup
  obtain ⟨o', ho', hdesc'⟩ := descends_of_mem h hev' hup'
  have heq : o = o' := created_inj h ho ho' hdesc.created hdesc'.created
    (.inr (hdesc.tag.trans (htag.trans hdesc'.tag.symm)))
  subst heq
  exact hdesc.guid.symm.trans hdesc'.guid

theorem tag_guid_ne (hev : ev ∈ log) (hup : ev.IsUpsert) : (K.tag ev.value).guid ≠ "" := by
  obtain ⟨o, ho, hdesc⟩ := descends_of_mem h hev hup
  obtain ⟨before, hnum, -⟩ := numbered_of_mem h ho
  rw [← hdesc.tag]
  exact (hnum.create hdesc.created).2.1

end Grounded

/-- The index of an upsert counts the updates of its row up to it. -/
theorem Numbered.index (h : Numbered K before ev) (hup : ev.IsUpsert) :
    (K.tag ev.value).index = UInt32.ofNat (updates K (K.guid ev.value) (before ++ [ev])) := by
  rw [updates_snoc]
  rcases hup with hcreate | hupdate
  · obtain ⟨hindex, -, hfresh⟩ := h.create hcreate
    rw [hindex, updates_eq_zero fun o ho => (hfresh o ho).1]
    simp [hcreate]
  · rw [(h.update hupdate).2]
    simp [hupdate]

/-- While no index has wrapped around, the last event comes after all others. -/
theorem inOrder_last (h : Grounded (Numbered K) (log ++ [ev])) (hb : Unwrapped K (log ++ [ev]))
    (ho : o ∈ log) : InOrder K o ev := by
  intro hup hup' hkey
  by_cases htag : (K.tag o.value).guid = (K.tag ev.value).guid
  · have hmem : o ∈ log ++ [ev] := List.mem_append_left _ ho
    have hguid := guid_of_tag h hmem (by simp) hup hup' htag
    have hnum' : Numbered K log ev := h log ev [] rfl
    -- a new row would have a fresh tag, so the last event updates the row of the earlier one
    have hupdate : ev.type = .update := by
      rcases hup' with hcreate | hupdate
      · obtain ⟨-, -, hfresh⟩ := hnum'.create hcreate
        exact absurd htag (hfresh o ho).2
      · exact hupdate
    obtain ⟨before, mid, rfl⟩ := List.append_of_mem ho
    have hnum : Numbered K before o := h before o (mid ++ [ev]) (by simp)
    have hcount : updates K (K.guid ev.value) (before ++ o :: mid ++ [ev]) =
        updates K (K.guid ev.value) (before ++ [o]) + updates K (K.guid ev.value) mid + 1 := by
      rw [updates_snoc, if_pos ⟨hupdate, rfl⟩, ← updates_append, List.append_assoc]
      rfl
    have hbound := hb (K.guid ev.value)
    have hlt : (K.tag o.value).index < (K.tag ev.value).index := by
      rw [hnum.index hup, hnum'.index hup', hguid, UInt32.lt_iff_toNat_lt, UInt32.toNat_ofNat',
        UInt32.toNat_ofNat', Nat.mod_eq_of_lt hbound, Nat.mod_eq_of_lt (by omega)]
      omega
    refine ⟨ModificationTag.succeededBy_of_index hlt, fun _ => ?_⟩
    have hne := tag_guid_ne h hmem hup
    simp [ModificationTag.succeededBy, ← htag, hne, UInt32.le_of_lt hlt]
  · exact ⟨ModificationTag.succeededBy_of_guid htag, fun heq => absurd heq htag⟩

theorem ordered_of_unwrapped (h : Grounded (Numbered K) log) (hb : Unwrapped K log) :
    Ordered K log := by
  induction log using List.reverseRecOn with
  | nil => exact List.Pairwise.nil
  | append_singleton log ev ih =>
    refine List.pairwise_append.mpr ⟨ih h.of_append hb.of_append, List.pairwise_singleton _ _, ?_⟩
    intro o ho ev' hev'
    rw [List.mem_singleton.mp hev']
    exact inOrder_last h hb ho

/-- The update that makes an index wrap around is not in order with the creation of its row. -/
theorem unwrapped_of_ordered (h : Grounded (Numbered K) log) (ho : Ordered K log) :
    Unwrapped K log := by
  intro g
  by_contra hwrapped
  have hcount : 2 ^ 32 - 1 < updates K g log := by omega
  obtain ⟨before, ev, after, rfl, hev, hbefore⟩ := exists_of_lt_countP hcount
  obtain ⟨hupdate, rfl⟩ := of_decide_eq_true hev
  obtain ⟨⟨o, hmem, hdesc⟩, hindex⟩ := (h before ev after rfl).update hupdate
  have horder : InOrder K o ev :=
    (List.pairwise_append.mp ho).2.2 o hmem ev List.mem_cons_self
  obtain ⟨before', hnum, -⟩ := numbered_of_mem h (List.mem_append_left _ hmem)
  obtain ⟨hzero, hne, -⟩ := hnum.create hdesc.created
  have hsucc := (horder (.inl hdesc.created) (.inr hupdate) hdesc.key).1
  have hwrap : (K.tag ev.value).index = 0 := by
    rw [hindex, updates, hbefore]
    rfl
  simp [ModificationTag.succeededBy, ← hdesc.tag, hne, hzero, hwrap] at hsucc

theorem ordered_iff_unwrapped (h : Grounded (Numbered K) log) : Ordered K log ↔ Unwrapped K log :=
  ⟨unwrapped_of_ordered h, ordered_of_unwrapped h⟩

end Order

section Runs
variable {E C κ : Type} (K : Kind E C κ) (env : Env)

/-- The two uuids of a row are among the first `n` that were generated. -/
def Drawn (n : ℕ) (e : E) : Prop :=
  (∃ i < n, env.newV4 i = .ok (K.guid e)) ∧ ∃ i < n, env.newV4 i = .ok (K.tag e).guid

/-- The log numbers the updates of every row, and a stored row has the number of its last one. -/
structure Lineage (w : World K) : Prop where
  grounded : Grounded (Numbered K) w.log
  drawn : ∀ ev ∈ w.log, Drawn K env w.uuids ev.value
  descends : ∀ e ∈ w.stored, ∃ o ∈ w.log, Descends K o e
  index : ∀ e ∈ w.stored, (K.tag e).index = UInt32.ofNat (updates K (K.guid e) w.log)

variable {K env} {s : Schema C} {w w' w₁ : World K}

theorem Drawn.mono {n n' : ℕ} {e : E} (h : Drawn K env n e) (hn : n ≤ n') : Drawn K env n' e := by
  obtain ⟨⟨i, hi, hg⟩, j, hj, ht⟩ := h
  exact ⟨⟨i, hi.trans_le hn, hg⟩, j, hj.trans_le hn, ht⟩

theorem Lineage.initial : Lineage K env (World.initial K) :=
  ⟨grounded_nil, nofun, nofun, nofun⟩

section Steps
variable (h : Lineage K env w)
include h

theorem Lineage.stored_drawn {e : E} (he : e ∈ w.stored) :
    Drawn K env w.uuids e := by
  obtain ⟨o, ho, hdesc⟩ := h.descends e he
  have hdrawn := h.drawn o ho
  rwa [Drawn, hdesc.guid, hdesc.tag] at hdrawn

/-- Rows may go, with events about them that are no upserts. -/
theorem Lineage.removed {evs : List (Event E)} (hsub : ∀ e ∈ w'.stored, e ∈ w.stored)
    (hlog : w'.log = w.log ++ evs) (huuids : w.uuids ≤ w'.uuids)
    (hevs : ∀ ev ∈ evs, (ev.type = .delete ∨ ev.type = .expire) ∧ ev.value ∈ w.stored) :
    Lineage K env w' := by
  have hcount (g : String) : updates K g w'.log = updates K g w.log := by
    have hnone : updates K g evs = 0 := by
      rw [updates, List.countP_eq_zero]
      intro ev hev hc
      rcases (hevs ev hev).1 with htype | htype <;> simp [htype] at hc
    rw [hlog, updates_append, hnone, Nat.add_zero]
  refine ⟨?_, ?_, ?_, ?_⟩
  · rw [hlog]
    refine h.grounded.append fun ev hev before => ⟨fun hc => ?_, fun hu => ?_⟩
    · rcases (hevs ev hev).1 with htype | htype <;> rw [htype] at hc <;> cases hc
    · rcases (hevs ev hev).1 with htype | htype <;> rw [htype] at hu <;> cases hu
  · intro ev hev
    rw [hlog, List.mem_append] at hev
    rcases hev with hev | hev
    · exact (h.drawn ev hev).mono huuids
    · exact (h.stored_drawn (hevs ev hev).2).mono huuids
  · intro e he
    obtain ⟨o, ho, hdesc⟩ := h.descends e (hsub e he)
    exact ⟨o, by rw [hlog]; exact List.mem_append_left _ ho, hdesc⟩
  · intro e he
    rw [hcount, h.index e (hsub e he)]

theorem Lineage.emits (hw : w.Emits w' []) : Lineage K env w' := by
  apply h.removed _ hw.log hw.uuids (by simp)
  intro e he
  rwa [hw.stored] at he

/-- One upsert is logged, and the rows are old ones, apart from the one that it is about. -/
theorem Lineage.upserted {ev : Event E} (hlog : w'.log = w.log ++ [ev])
    (huuids : w.uuids ≤ w'.uuids) (hup : ev.IsUpsert) (hnum : Numbered K w.log ev)
    (hdrawn : Drawn K env w'.uuids ev.value)
    (hrows : ∀ e ∈ w'.stored, e = ev.value ∨
      e ∈ w.stored ∧ ¬(ev.type = .update ∧ K.guid ev.value = K.guid e)) : Lineage K env w' := by
  have hgrounded : Grounded (Numbered K) w'.log := by
    rw [hlog]
    exact h.grounded.concat hnum
  refine ⟨hgrounded, ?_, ?_, ?_⟩
  · intro o ho
    rw [hlog, List.mem_append, List.mem_singleton] at ho
    rcases ho with ho | rfl
    · exact (h.drawn o ho).mono huuids
    · exact hdrawn
  · intro e he
    rcases hrows e he with rfl | ⟨he, -⟩
    · exact descends_of_mem hgrounded (by simp [hlog]) hup
    · obtain ⟨o, ho, hdesc⟩ := h.descends e he
      exact ⟨o, by simp [hlog, ho], hdesc⟩
  · intro e he
    rcases hrows e he with rfl | ⟨he, hother⟩
    · rw [hlog, hnum.index hup]
    · rw [hlog, updates_snoc, if_neg hother, Nat.add_zero, h.index e he]

theorem Lineage.updated {now : ℤ} {m e : E} {x : Row C} (hx : x ∈ w.table.rows)
    (hu : K.update now (K.model.ofRow x) m = some e) (hup : w.Updates w₁ s e)
    (hev : w₁.Emits w' [⟨.update, e⟩]) : Lineage K env w' := by
  have hstored : K.model.ofRow x ∈ w.stored := World.mem_stored.mpr ⟨x, hx, rfl⟩
  have hguid : K.guid e = K.guid (K.model.ofRow x) := K.update_guid _ _ _ _ hu
  have htag : K.tag e = (K.tag (K.model.ofRow x)).increment := K.update_tag _ _ _ _ hu
  have hlog : w'.log = w.log ++ [⟨.update, e⟩] := by rw [hev.log, hup.log]
  have huuids : w.uuids ≤ w'.uuids := hup.uuids.trans hev.uuids
  have hindex : (K.tag e).index = UInt32.ofNat (updates K (K.guid e) w.log + 1) := by
    rw [htag, ModificationTag.increment_index, h.index _ hstored, hguid, UInt32.ofNat_add]
    rfl
  obtain ⟨o, ho, hdesc⟩ := h.descends _ hstored
  have hdesc : Descends K o e := ⟨hdesc.created, hdesc.guid.trans hguid.symm,
    by rw [hdesc.tag, htag]; rfl, hdesc.key.trans (K.update_key _ _ _ _ hu).symm⟩
  refine h.upserted hlog huuids (.inr rfl) ⟨nofun, fun _ => ⟨⟨o, ho, hdesc⟩, hindex⟩⟩ ?_ ?_
  · have hdrawn := (h.drawn o ho).mono huuids
    rwa [Drawn, hdesc.guid, hdesc.tag] at hdrawn
  · intro y hy
    rw [hev.stored, hup.mem_stored] at hy
    rcases hy with ⟨hy, hne⟩ | rfl
    · exact .inr ⟨hy, fun hc => hne hc.2.symm⟩
    · exact .inl rfl

theorem Lineage.created (hids : env.Uuids) (hexact : K.model.Exact s) {now : ℤ} {m e₀ : E}
    {i j : ℕ} {g u : String} (hi : w.uuids ≤ i) (hij : i < j) (hj : j < w₁.uuids)
    (hg : env.newV4 i = .ok g) (hu : env.newV4 j = .ok u) (he : K.withModel g now m = some e₀)
    (hins : w.Inserts w₁ s (K.setTag ⟨u, 0⟩ e₀))
    (hev : w₁.Emits w' [⟨.create, K.setTag ⟨u, 0⟩ e₀⟩]) : Lineage K env w' := by
  have hlog : w'.log = w.log ++ [⟨.create, K.setTag ⟨u, 0⟩ e₀⟩] := by rw [hev.log, hins.log]
  have huuids : w.uuids ≤ w'.uuids := hins.uuids.trans hev.uuids
  have hstored : w'.stored = w.stored ++ [K.setTag ⟨u, 0⟩ e₀] := by
    rw [hev.stored, hins.stored, K.model.insertRow_exact hexact, K.ofRow_toRow]
  have hguid : env.newV4 i = .ok (K.guid (K.setTag ⟨u, 0⟩ e₀)) := by rw [Kind.new_guid he, hg]
  have htag : K.tag (K.setTag ⟨u, 0⟩ e₀) = ⟨u, 0⟩ := K.setTag_tag _ _
  generalize K.setTag ⟨u, 0⟩ e₀ = e at hlog hstored hguid htag
  have hfresh := History.fresh hids hi (hi.trans hij.le) hguid hu htag h.drawn
  have hne : (K.tag e).guid ≠ "" := by
    rw [htag]
    exact hids.nonempty j u hu
  refine h.upserted hlog huuids (.inl rfl) ⟨fun _ => ⟨by rw [htag], hne, hfresh⟩, nofun⟩ ?_ ?_
  · have hj' : j < w'.uuids := hj.trans_le hev.uuids
    exact ⟨⟨i, hij.trans hj', hguid⟩, j, hj', by rw [htag]; exact hu⟩
  · intro y hy
    rw [hstored, List.mem_append, List.mem_singleton] at hy
    rcases hy with hy | rfl
    · exact .inr ⟨hy, nofun⟩
    · exact .inl rfl

/-- Every effect keeps the log and the rows in step. -/
theorem Lineage.effect (hids : env.Uuids) (hexact : K.model.Exact s) (hw : Effect env s w w') :
    Lineage K env w' := by
  cases hw with
  | ticked d => exact ⟨h.grounded, h.drawn, h.descends, h.index⟩
  | idle _ hw => exact h.emits hw
  | updated m x e w₁ _ hx hu _ hup hev => exact h.updated hx.mem hu hup hev
  | created m i j g u e₀ w₁ _ _ hi hij hj hg hu he hins hev =>
    exact h.created hids hexact hi hij hj hg hu he hins hev
  | deleted m x w₁ _ hx _ hr hev =>
    refine h.removed ?_ (by rw [hev.log, hr.log]) (hr.uuids.trans hev.uuids) ?_
    · intro y hy
      rw [hev.stored] at hy
      exact (hr.mem_stored.mp hy).1
    · intro ev hmem
      rw [List.mem_singleton.mp hmem]
      exact ⟨.inl rfl, World.mem_stored.mpr ⟨x, hx.mem, rfl⟩⟩
  | pruned w₁ _ hr hev =>
    refine h.removed ?_ (by rw [hev.log, hr.log]) (hr.uuids.trans hev.uuids) ?_
    · intro y hy
      rw [hev.stored] at hy
      exact (hr.mem_stored.mp hy).1
    · intro ev hmem
      obtain ⟨e, he, rfl⟩ := List.mem_map.mp hmem
      obtain ⟨x, hx, rfl⟩ := List.mem_map.mp he
      exact ⟨.inr rfl, World.mem_stored.mpr ⟨x, (Table.mem_select.mp hx).1, rfl⟩⟩

end Steps

theorem runOps_lineage [DecidableEq E] (hids : env.Uuids) (hexact : K.model.Exact s)
    (h : Lineage K env w) (ops : List (Op E)) : Lineage K env (runOps env s ops w) :=
  runOps_invariant (fun _ _ h hw => h.effect hids hexact hw) h ops

end Runs

section Routes

/-- Tags order the upserts of every key exactly as long as no route has been updated 2^32 times. -/
theorem tags_ordered_iff (env : Env) (hids : env.Uuids) (s : Schema RouteColumn)
    (ops : List (Op Route)) :
    Ordered routeKind (runOps env s ops (.initial routeKind)).log ↔
      Unwrapped routeKind (runOps env s ops (.initial routeKind)).log :=
  ordered_iff_unwrapped (runOps_lineage hids (Route.model_exact s) .initial ops).grounded

/-- A route of one instance, as a platform component registers it again and again. -/
def heartbeat : Route := { route := "a.com", ip := "1.1.1.1", port := 80, ttl := some 120 }

/-- The tags of a route that is registered twice, removed and registered again. -/
theorem tags_of_recreated_route :
    let log := (runOps .quiet (routeSchema .mysql)
      [.save heartbeat, .save heartbeat, .delete heartbeat, .save heartbeat]
        (.initial routeKind)).log
    log.map (·.type) = [.create, .update, .delete, .create] ∧ Ordered routeKind log := by
  intro log
  have htypes : log.map (·.type) = [.create, .update, .delete, .create] := by decide +kernel
  have hlength : log.length = 4 := by simpa using congrArg List.length htypes
  refine ⟨htypes, (tags_ordered_iff .quiet Env.quiet_uuids _ _).mpr ?_⟩
  exact unwrapped_of_length _ (by rw [hlength]; decide)

section Heartbeats
variable {env : Env} {s : Schema RouteColumn} {w : World routeKind} {m : Route}

/-- The table holds one route, which a save of `m` finds. -/
structure OnlyRow (m : Route) (w : World routeKind) (x : Row RouteColumn) : Prop where
  rows : w.table.rows = [x]
  matched : w.Matched m x
  guid : (Route.ofRow x).guid ≠ ""

/-- A save of the only route updates it. -/
theorem OnlyRow.save {x : Row RouteColumn} (h : OnlyRow m w x) (henv : env.Faultless)
    (httl : m.ttl ≠ none) :
    ∃ e, OnlyRow m (Op.perform env s (.save m) w) (Route.toRow e) ∧
      e.guid = (Route.ofRow x).guid ∧
      (Op.perform env s (.save m) w).log = w.log ++ [⟨.update, e⟩] := by
  obtain ⟨ttl, hsome⟩ := Option.ne_none_iff_exists'.mp httl
  obtain ⟨e, hu⟩ : ∃ e, routeKind.update w.now (Route.ofRow x) m = some e := by
    simp [routeKind, Route.updateRoute, hsome]
  have hguid : e.guid = (Route.ofRow x).guid := routeKind.update_guid _ _ _ _ hu
  have hkey : e.key = m.key := (routeKind.update_key _ _ _ _ hu).trans h.matched.key
  have hne : e.guid ≠ "" := by
    rw [hguid]
    exact h.guid
  have hpk : ∀ y ∈ w.table.rows, y .guid = Route.toRow e .guid := by
    intro y hy
    have hpk := (w.typed x h.matched.mem).pk
    rw [h.rows, List.mem_singleton] at hy
    rw [hy]
    exact hpk.trans (congrArg Cell.text hguid.symm)
  have hupdate : w.table.update s.indexes (Route.toRow e) ≠ none := by
    obtain ⟨t, ht⟩ : ∃ t, w.table.update s.indexes (Route.toRow e) = some t :=
      Table.update_isSome fun _ _ y hy hk => absurd (hpk y hy) hk
    rw [ht]
    exact Option.some_ne_none t
  obtain ⟨w₁, -, hup, hev⟩ :=
    Saved.of_matched h.matched henv hu hne hupdate (run_saveEntity (s := s) m w)
  have hrows : w₁.table.rows = [Route.toRow e] := by
    apply eq_singleton_of_nodup w₁.table.nodup_rows
    intro y
    rw [hup.mem_rows]
    exact ⟨fun hy => hy.resolve_left fun hy => hy.2 (hpk y hy.1), .inr⟩
  refine ⟨e, ⟨?_, (h.matched.updates hup hguid hkey hne).emits hev, ?_⟩, hguid, ?_⟩
  · exact (congrArg Table.rows hev.table).trans hrows
  · rw [Route.ofRow_toRow]
    exact hne
  · exact hev.log.trans (by rw [hup.log])

/-- Every further save of the route counts. -/
theorem OnlyRow.saves {x : Row RouteColumn} (h : OnlyRow m w x) (henv : env.Faultless)
    (httl : m.ttl ≠ none) (n : ℕ) :
    updates routeKind (Route.ofRow x).guid (runOps env s (List.replicate n (.save m)) w).log =
      updates routeKind (Route.ofRow x).guid w.log + n := by
  induction n generalizing w x with
  | zero => rfl
  | succ n ih =>
    obtain ⟨e, hnext, hguid, hlog⟩ := h.save (s := s) henv httl
    have hrun := ih hnext
    rw [Route.ofRow_toRow, hguid, hlog, updates_snoc, if_pos ⟨rfl, hguid⟩] at hrun
    rw [List.replicate_succ]
    exact hrun.trans (by omega)

/-- The first save creates the route. -/
theorem onlyRow_first : ∃ x,
    OnlyRow heartbeat (Op.perform .quiet (routeSchema .mysql) (.save heartbeat)
      (.initial routeKind)) x ∧
      updates routeKind (Route.ofRow x).guid (Op.perform .quiet (routeSchema .mysql)
        (.save heartbeat) (.initial routeKind)).log = 0 := by
  generalize hw : Op.perform .quiet (routeSchema .mysql) (.save heartbeat)
    (.initial routeKind) = w
  have hrows : w.stored.map (·.guid) = ["u"] := by
    rw [← hw]
    decide +kernel
  have hselect : (w.table.select (routeKind.lookup heartbeat)).length = 1 := by
    rw [← hw]
    decide +kernel
  have htypes : w.log.map (·.type) = [.create] := by
    rw [← hw]
    decide +kernel
  obtain ⟨x, hx⟩ : ∃ x, w.table.rows = [x] := by
    have hlength := congrArg List.length hrows
    rw [List.length_map, World.stored, List.length_map] at hlength
    exact List.length_eq_one_iff.mp hlength
  have hguid : (Route.ofRow x).guid = "u" := by
    rw [World.stored, hx] at hrows
    exact List.head_eq_of_cons_eq hrows
  have hne : (Route.ofRow x).guid ≠ "" := by
    rw [hguid]
    decide
  have hmatched : w.Matched heartbeat x := by
    refine ⟨?_, fun hzero => hne (congrArg Route.guid hzero)⟩
    rw [Table.select, hx] at hselect ⊢
    cases hold : holdsAll (routeKind.lookup heartbeat) x with
    | true => simp [hold]
    | false => simp [hold] at hselect
  refine ⟨x, ⟨hx, hmatched, hne⟩, ?_⟩
  rw [updates, List.countP_eq_zero]
  intro ev hev hc
  have htype : ev.type ∈ w.log.map (·.type) := List.mem_map_of_mem hev
  rw [htypes, List.mem_singleton] at htype
  simp [htype] at hc

/-- The first of the saves creates the route and the others update it. -/
theorem updates_heartbeats (n : ℕ) :
    ∃ g, updates routeKind g (runOps .quiet (routeSchema .mysql)
      (List.replicate (n + 1) (.save heartbeat)) (.initial routeKind)).log = n := by
  obtain ⟨x, honly, hzero⟩ := onlyRow_first
  have hcount := honly.saves (s := routeSchema .mysql) Env.quiet_faultless (by decide) n
  rw [hzero, Nat.zero_add] at hcount
  exact ⟨_, hcount⟩

end Heartbeats

/-- After 2^32 updates the tag of a route is the one it was created with. -/
theorem tags_wrap_around :
    ¬Ordered routeKind (runOps .quiet (routeSchema .mysql)
      (List.replicate (2 ^ 32 + 1) (.save heartbeat)) (.initial routeKind)).log := by
  have hlineage : Lineage routeKind .quiet (runOps .quiet (routeSchema .mysql)
      (List.replicate (2 ^ 32 + 1) (.save heartbeat)) (.initial routeKind)) :=
    runOps_lineage Env.quiet_uuids (Route.model_exact _) .initial _
  rw [ordered_iff_unwrapped hlineage.grounded]
  intro hunwrapped
  obtain ⟨g, hcount⟩ := updates_heartbeats (2 ^ 32)
  have hbound := hunwrapped g
  rw [hcount] at hbound
  exact lt_irrefl _ hbound

end Routes
end RoutingApi.Database
