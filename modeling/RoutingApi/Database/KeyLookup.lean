import RoutingApi.Database.Runs
import RoutingApi.Migration.Migrations

/-! Whether a TCP route mapping that has been saved is found again. The schema left by
the migrations has a NULL default for `host_tls_port`, and the lookup compares with `=`. -/
namespace RoutingApi.Database
open Relational Gorm Models Process Program Migrations

section Storage
variable {d : Dialect} {x : Row TcpColumn} {e m : TcpRouteMapping}

theorem insertRow_column {c : TcpColumn} (hport : c ≠ .hostTLSPort) (hinst : c ≠ .instanceId) :
    TcpRouteMapping.model.insertRow (tcpSchema d) e c = e.toRow c := by
  unfold Model.insertRow
  split
  next h =>
    rw [tcpSchema_default_null d h.1]
    rcases TcpRouteMapping.omitsZero_iff.mp h.1 with rfl | rfl | rfl | rfl
    · exact absurd rfl hport
    · exact h.2.symm
    · exact h.2.symm
    · exact absurd rfl hinst
  next => rfl

theorem insertRow_hostTLSPort : TcpRouteMapping.model.insertRow (tcpSchema d) e .hostTLSPort =
    if e.hostTLSPort = 0 then .null else .int e.hostTLSPort := by
  have homits : TcpRouteMapping.model.omitsZero .hostTLSPort = true := by decide
  split
  next h =>
    have hzero : TcpRouteMapping.model.toRow e .hostTLSPort =
        TcpRouteMapping.model.toRow TcpRouteMapping.model.zero .hostTLSPort := by
      show Cell.int e.hostTLSPort = Cell.int 0
      rw [h]
    exact (if_pos ⟨homits, hzero⟩).trans (tcpSchema_default_null d homits)
  next h => exact Model.insertRow_of_ne _ fun _ hc => h (Cell.int.inj hc)

variable (d x e) in
/-- How a mapping can stand in the table: as an INSERT leaves it, or as an UPDATE does. -/
def StoredAs : Prop :=
  x = TcpRouteMapping.model.insertRow (tcpSchema d) e ∨ (e.hostTLSPort ≠ 0 ∧ x = e.toRow)

namespace StoredAs

theorem ofRow (h : StoredAs d x e) : TcpRouteMapping.ofRow x = e := by
  rcases h with rfl | ⟨-, rfl⟩
  · exact TcpRouteMapping.ofRow_insertRow (fun c hc => tcpSchema_default_null d hc) e
  · exact TcpRouteMapping.ofRow_toRow e

theorem column (h : StoredAs d x e) (hport : e.hostTLSPort ≠ 0) {c : TcpColumn}
    (hc : c ≠ .instanceId) : x c = e.toRow c := by
  rcases h with rfl | ⟨-, rfl⟩
  · by_cases hc' : c = .hostTLSPort
    · subst hc'
      rw [insertRow_hostTLSPort, if_neg hport]
      rfl
    · exact insertRow_column hc' hc
  · rfl

theorem null (h : StoredAs d x e) (hport : e.hostTLSPort = 0) : x .hostTLSPort = .null := by
  rcases h with rfl | ⟨hne, -⟩
  · rw [insertRow_hostTLSPort, if_pos hport]
  · exact absurd hport hne

/-- The lookup sees a stored mapping when the keys agree and the TLS port is not zero. -/
theorem holds_iff (h : StoredAs d x e) :
    holdsAll (tcpLookup m) x = true ↔ e.key = m.key ∧ m.hostTLSPort ≠ 0 := by
  constructor
  · intro hm
    have hkey : e.key = m.key := h.ofRow ▸ tcpKind.key_of_lookup m x hm
    refine ⟨hkey, fun hz => ?_⟩
    have hport : e.hostTLSPort = 0 := (congrArg TcpRouteMapping.Key.hostTLSPort hkey).trans hz
    have hcell := (holds_tcpLookup.mp hm).2.2.2.2.1
    rw [h.null hport] at hcell
    cases hcell
  · rintro ⟨hkey, hne⟩
    have hport : e.hostTLSPort ≠ 0 := by
      rwa [show e.hostTLSPort = m.hostTLSPort from congrArg TcpRouteMapping.Key.hostTLSPort hkey]
    have hrow := holds_tcpLookup.mp (tcpKind.lookup_toRow m e hkey)
    rw [holds_tcpLookup]
    simp only [h.column hport, ne_eq, reduceCtorEq, not_false_eq_true]
    exact hrow

end StoredAs
end Storage

/-- What holds of `tcp_routes` when only one operation runs at a time. -/
structure TcpTable (d : Dialect) (t : Table TcpColumn.guid) : Prop where
  stored : ∀ x ∈ t.rows, ∃ e, e.guid ≠ "" ∧ StoredAs d x e
  respects : t.Respects (tcpSchema d).indexes
  unique : ∀ x ∈ t.rows, ∀ y ∈ t.rows,
    (TcpRouteMapping.ofRow x).key = (TcpRouteMapping.ofRow y).key →
    (TcpRouteMapping.ofRow x).hostTLSPort ≠ 0 → x = y

namespace TcpTable
variable {d : Dialect} {t t' : Table TcpColumn.guid} {e m : TcpRouteMapping} {x : Row TcpColumn}

theorem empty : TcpTable d .empty :=
  ⟨fun _ h => by simp at h, Table.respects_empty _, fun _ h => by simp at h⟩

theorem remove (h : TcpTable d t) (p : Row TcpColumn → Bool) : TcpTable d (t.remove p) where
  stored x hx := h.stored x (Table.mem_remove.mp hx).1
  respects := h.respects.remove p
  unique x hx y hy := h.unique x (Table.mem_remove.mp hx).1 y (Table.mem_remove.mp hy).1

theorem storedAs (h : TcpTable d t) (hx : x ∈ t.rows) :
    StoredAs d x (TcpRouteMapping.ofRow x) := by
  obtain ⟨e, -, he⟩ := h.stored x hx
  rwa [he.ofRow]

theorem guid_ne (h : TcpTable d t) (hx : x ∈ t.rows) : (TcpRouteMapping.ofRow x).guid ≠ "" := by
  obtain ⟨e, hg, he⟩ := h.stored x hx
  rwa [he.ofRow]

theorem key_iff (h : TcpTable d t) (hx : x ∈ t.rows) : holdsAll (tcpLookup m) x = true ↔
    (TcpRouteMapping.ofRow x).key = m.key ∧ m.hostTLSPort ≠ 0 := (h.storedAs hx).holds_iff

/-- An INSERT of a mapping whose lookup found nothing. -/
theorem insert (h : TcpTable d t) (hsel : t.select (tcpLookup m) = []) (hkey : e.key = m.key)
    (hg : e.guid ≠ "") (hins : t.insert (tcpSchema d).indexes
      (TcpRouteMapping.model.insertRow (tcpSchema d) e) = some t') : TcpTable d t' := by
  have hrows := (Table.insert_some hins).1
  have hnew : StoredAs d (TcpRouteMapping.model.insertRow (tcpSchema d) e) e := .inl rfl
  -- a stored row with the key of the new one is one that the lookup cannot see
  have hold : ∀ y ∈ t.rows, (TcpRouteMapping.ofRow y).key = e.key →
      (TcpRouteMapping.ofRow y).hostTLSPort = 0 := by
    intro y hy hk
    by_contra hne
    have hport : (TcpRouteMapping.ofRow y).hostTLSPort = m.hostTLSPort :=
      congrArg TcpRouteMapping.Key.hostTLSPort (hk.trans hkey)
    have hmem : y ∈ t.select (tcpLookup m) :=
      Table.mem_select.mpr ⟨hy, (h.key_iff hy).mpr ⟨hk.trans hkey, hport ▸ hne⟩⟩
    rw [hsel] at hmem
    cases hmem
  refine ⟨?_, h.respects.insert hins, ?_⟩
  · intro x hx
    rw [hrows, List.mem_append, List.mem_singleton] at hx
    rcases hx with hx | rfl
    · exact h.stored x hx
    · exact ⟨e, hg, hnew⟩
  · intro x hx y hy hk hne
    rw [hrows, List.mem_append, List.mem_singleton] at hx hy
    rcases hx with hx | rfl <;> rcases hy with hy | rfl
    · exact h.unique x hx y hy hk hne
    · exact absurd (hold x hx (by rw [hk, hnew.ofRow])) hne
    · rw [hnew.ofRow] at hk hne
      have hport : e.hostTLSPort = (TcpRouteMapping.ofRow y).hostTLSPort :=
        congrArg TcpRouteMapping.Key.hostTLSPort hk
      exact absurd (hport.trans (hold y hy hk.symm)) hne
    · rfl

section Update
variable (h : TcpTable d t) (hx : x ∈ t.rows) (hseen : holdsAll (tcpLookup m) x = true)
include h hx hseen

theorem seen_port : (TcpRouteMapping.ofRow x).hostTLSPort ≠ 0 := by
  obtain ⟨hk, hm⟩ := (h.key_iff hx).mp hseen
  rwa [show (TcpRouteMapping.ofRow x).hostTLSPort = m.hostTLSPort from
    congrArg TcpRouteMapping.Key.hostTLSPort hk]

variable {now : ℤ} (hu : TcpRouteMapping.updateTcpRouteMapping now (.ofRow x) m = some e)
include hu

theorem update_pk : x .guid = e.toRow .guid := by
  rw [(h.storedAs hx).column (h.seen_port hx hseen) (by decide)]
  exact congrArg Cell.text (tcpKind.update_guid _ _ _ _ hu).symm

/-- The update of a row that the lookup found leaves the indexed columns as they are. -/
theorem update_columns : ∀ ix ∈ (tcpSchema d).indexes, ∀ p ∈ ix.columns,
    e.toRow p.1 = x p.1 := by
  intro ix hix p hp
  rw [tcpSchema_indexes, List.mem_singleton] at hix
  subst hix
  have hidx : p.1 ≠ .instanceId ∧ e.toRow p.1 = (TcpRouteMapping.ofRow x).toRow p.1 := by
    obtain ⟨ttl, -, rfl⟩ := Option.map_eq_some_iff.mp hu
    simp only [idxTcpRoute, List.cons_append, List.nil_append, List.mem_cons,
      List.not_mem_nil, or_false] at hp
    rcases hp with rfl | rfl | rfl | rfl | rfl | rfl | rfl | rfl <;> exact ⟨nofun, rfl⟩
  rw [(h.storedAs hx).column (h.seen_port hx hseen) hidx.1, hidx.2]

theorem update_isSome : ∃ t', t.update (tcpSchema d).indexes e.toRow = some t' :=
  h.respects.update_isSome hx (h.update_pk hx hseen hu) (h.update_columns hx hseen hu)

/-- An UPDATE of the row that the lookup found. -/
theorem update (hup : t.update (tcpSchema d).indexes e.toRow = some t') : TcpTable d t' := by
  have hpk := h.update_pk hx hseen hu
  have hne := h.seen_port hx hseen
  have hguid : e.guid = (TcpRouteMapping.ofRow x).guid := tcpKind.update_guid _ _ _ _ hu
  have hkey : e.key = (TcpRouteMapping.ofRow x).key := tcpKind.update_key _ _ _ _ hu
  have hport : e.hostTLSPort ≠ 0 := by
    rwa [show e.hostTLSPort = (TcpRouteMapping.ofRow x).hostTLSPort from
      congrArg TcpRouteMapping.Key.hostTLSPort hkey]
  refine ⟨?_, h.respects.update hx hpk (h.update_columns hx hseen hu) hup, ?_⟩
  · intro y hy
    rcases (Table.update_some hup y).mp hy with ⟨hy, -⟩ | ⟨rfl, -⟩
    · exact h.stored y hy
    · exact ⟨e, hguid ▸ h.guid_ne hx, .inr ⟨hport, rfl⟩⟩
  · have hother : ∀ y ∈ t.rows, y .guid ≠ e.toRow .guid →
        (TcpRouteMapping.ofRow y).key ≠ e.key := by
      intro y hy hyk hk
      have hxy := h.unique x hx y hy (hkey.symm.trans hk.symm) hne
      exact hyk (hxy ▸ hpk)
    intro y hy z hz hk hyne
    rcases (Table.update_some hup y).mp hy with ⟨hy, hyk⟩ | ⟨rfl, -⟩ <;>
      rcases (Table.update_some hup z).mp hz with ⟨hz, hzk⟩ | ⟨rfl, -⟩
    · exact h.unique y hy z hz hk hyne
    · exact absurd (by rw [hk, TcpRouteMapping.ofRow_toRow]) (hother y hy hyk)
    · exact absurd (by rw [← hk, TcpRouteMapping.ofRow_toRow]) (hother z hz hzk)
    · rfl

end Update

/-- Every table reached by operations that run one after the other is of this kind. -/
theorem effect {env : Env} (hids : ∀ i u, env.newV4 i = .ok u → u ≠ "") {w w' : World tcpKind}
    (h : TcpTable d w.table) (hw : Effect env (tcpSchema d) w w') : TcpTable d w'.table := by
  cases hw with
  | ticked k => exact h
  | idle _ hw => exact hw.table ▸ h
  | updated m x e w₁ _ hx hu _ hup hev =>
    exact hev.table ▸ h.update hx.mem hx.holds hu hup.update
  | created m i j g u e₀ w₁ _ hx _ _ _ hg _ he hins hev =>
    have hsel : w.table.select (tcpLookup m) = [] := by
      rcases hx with hx | ⟨x, hx, hz⟩
      · exact hx
      · have hmem : x ∈ w.table.rows :=
          (Table.mem_select.mp (hx ▸ List.mem_singleton_self x)).1
        exact absurd (congrArg TcpRouteMapping.guid hz) (h.guid_ne hmem)
    have hguid : (tcpKind.setTag ⟨u, 0⟩ e₀).guid = g := Kind.new_guid he _
    have hkey : (tcpKind.setTag ⟨u, 0⟩ e₀).key = m.key := Kind.new_key he _
    rw [hev.table]
    exact h.insert hsel hkey (hguid ▸ hids i g hg) hins.insert
  | deleted m x w₁ _ _ _ hr hev => rw [hev.table, hr.table]; exact h.remove _
  | pruned w₁ _ hr hev => rw [hev.table, hr.table]; exact h.remove _

end TcpTable

theorem runOps_tcpTable (d : Dialect) {env : Env}
    (hids : ∀ i u, env.newV4 i = .ok u → u ≠ "") (ops : List (Op TcpRouteMapping)) :
    TcpTable d (runOps env (tcpSchema d) ops (World.initial tcpKind)).table :=
  runOps_invariant (I := fun w => TcpTable d w.table) (fun _ _ h hw => h.effect hids hw)
    TcpTable.empty ops

namespace TcpTable
variable {d : Dialect} {w : World tcpKind} {m : TcpRouteMapping} {x : Row TcpColumn}

theorem matched (h : TcpTable d w.table) (hx : x ∈ w.table.rows)
    (hkey : (TcpRouteMapping.ofRow x).key = m.key) (hne : m.hostTLSPort ≠ 0) :
    w.Matched m x := by
  have hseen : holdsAll (tcpLookup m) x = true := (h.key_iff hx).mpr ⟨hkey, hne⟩
  have hport : (TcpRouteMapping.ofRow x).hostTLSPort ≠ 0 := by
    rwa [show (TcpRouteMapping.ofRow x).hostTLSPort = m.hostTLSPort from
      congrArg TcpRouteMapping.Key.hostTLSPort hkey]
  refine ⟨Table.select_eq_singleton fun y => ⟨?_, ?_⟩, ?_⟩
  · rintro ⟨hy, hm⟩
    have hk := ((h.key_iff hy).mp hm).1
    exact (h.unique x hx y hy (hkey.trans hk.symm) hport).symm
  · rintro rfl
    exact ⟨hx, hseen⟩
  · intro hz
    exact h.guid_ne hx (congrArg TcpRouteMapping.guid hz)

theorem select_nil (h : TcpTable d w.table) (hz : m.hostTLSPort = 0) :
    w.table.select (tcpLookup m) = [] := by
  rw [List.eq_nil_iff_forall_not_mem]
  intro y hy
  obtain ⟨hy, hm⟩ := Table.mem_select.mp hy
  exact ((h.key_iff hy).mp hm).2 hz

variable {env : Env} (henv : env.Faultless)
include henv

/-- A save of a mapping that is found updates its row. -/
theorem resave (h : TcpTable d w.table) (hx : w.Matched m x) (httl : m.ttl ≠ none) :
    ∃ e : TcpRouteMapping, e.guid = (TcpRouteMapping.ofRow x).guid ∧
      ((saveTcpRouteMapping m).run (handler env (tcpSchema d)) w).1 = .ok () ∧
      ((saveTcpRouteMapping m).run (handler env (tcpSchema d)) w).2.writes =
        w.writes ++ [.update e.toRow] := by
  obtain ⟨ttl, httl⟩ := Option.ne_none_iff_exists'.mp httl
  obtain ⟨e, he⟩ : ∃ e, TcpRouteMapping.updateTcpRouteMapping w.now (.ofRow x) m = some e := by
    rw [TcpRouteMapping.updateTcpRouteMapping, httl]
    exact ⟨_, rfl⟩
  have hguid : e.guid = (TcpRouteMapping.ofRow x).guid := tcpKind.update_guid _ _ _ _ he
  obtain ⟨t', ht'⟩ := h.update_isSome hx.mem hx.holds he
  have hup : w.table.update (tcpSchema d).indexes (tcpKind.model.toRow e) ≠ none :=
    fun hn => Option.some_ne_none t' (ht'.symm.trans hn)
  have hg : e.guid ≠ "" := hguid ▸ h.guid_ne hx.mem
  obtain ⟨w₁, hok, hu, hev⟩ := (run_saveEntity m w).of_matched hx henv he hg hup
  exact ⟨e, hguid, hok, hev.writes.trans hu.writes⟩

/-- A delete of a mapping that is found removes its row and no other. -/
theorem delete_matched (h : TcpTable d w.table) (hx : w.Matched m x) :
    ((deleteTcpRouteMapping m).run (handler env (tcpSchema d)) w).1 = .ok () ∧
      ((deleteTcpRouteMapping m).run (handler env (tcpSchema d)) w).2.writes =
        w.writes ++ [.remove x] := by
  have hrun : Deleted env m w ((deleteTcpRouteMapping m).run (handler env (tcpSchema d)) w) :=
    run_deleteEntity m w
  obtain ⟨w₁, hok, hr, hev⟩ := hrun.of_matched hx henv (h.guid_ne hx.mem)
  refine ⟨hok, ?_⟩
  have hone := w.filter_guid hx.mem
  have hw := hev.writes.trans hr.writes
  rw [World.remove, hone] at hw
  exact hw

end TcpTable

/-- What a caller expects once `SaveTcpRouteMapping(m)` has taken `w` to `w'`: the row it
wrote is the only one for the key, the lookup returns it, another save updates it, and
a delete removes it. -/
def FoundAfterSave (s : Schema TcpColumn) (m : TcpRouteMapping) (w w' : World tcpKind) : Prop :=
  ∃ x ∈ w'.table.rows,
    (w'.writes = w.writes ++ [.insert x] ∨ w'.writes = w.writes ++ [.update x]) ∧
    (∀ y ∈ w'.table.rows, (TcpRouteMapping.ofRow y).key = m.key → y = x) ∧
    ∀ env : Env, env.Faultless →
      ((findExistingTcpRouteMapping m).run (handler env s) w').1 =
        .ok (TcpRouteMapping.ofRow x) ∧
      (∃ e : TcpRouteMapping, e.guid = (TcpRouteMapping.ofRow x).guid ∧
        ((saveTcpRouteMapping m).run (handler env s) w').1 = .ok () ∧
        ((saveTcpRouteMapping m).run (handler env s) w').2.writes =
          w'.writes ++ [.update e.toRow]) ∧
      ((deleteTcpRouteMapping m).run (handler env s) w').1 = .ok () ∧
      ((deleteTcpRouteMapping m).run (handler env s) w').2.writes = w'.writes ++ [.remove x]

/-- The row that a successful save writes is stored under the key of the request. -/
theorem Saved.written {d : Dialect} {env : Env} {m : TcpRouteMapping} {w : World tcpKind}
    {r : Except Err Unit × World tcpKind} (h : Saved env (tcpSchema d) m w r)
    (hok : r.1 = .ok ()) : ∃ x ∈ r.2.table.rows, (TcpRouteMapping.ofRow x).key = m.key ∧
      (r.2.writes = w.writes ++ [.insert x] ∨ r.2.writes = w.writes ++ [.update x]) := by
  cases h with
  | failed => cases hok
  | duplicated => cases hok
  | panicked => cases hok
  | refused => cases hok
  | updated x e w₁ w' hx hu _ hup hev =>
    refine ⟨e.toRow, ?_, ?_, .inr (hev.writes.trans hup.writes)⟩
    · rw [hev.table]
      exact hup.mem_rows.mpr (.inr rfl)
    · rw [TcpRouteMapping.ofRow_toRow]
      exact (tcpKind.update_key _ _ _ _ hu).trans hx.key
  | created i j g u e₀ w₁ w' _ _ _ _ _ _ he hins hev =>
    refine ⟨_, ?_, ?_, .inl (hev.writes.trans hins.writes)⟩
    · rw [hev.table]
      exact hins.mem_rows.mpr (.inr rfl)
    · have hrow : TcpRouteMapping.ofRow (TcpRouteMapping.model.insertRow (tcpSchema d)
          (tcpKind.setTag ⟨u, 0⟩ e₀)) = tcpKind.setTag ⟨u, 0⟩ e₀ :=
        TcpRouteMapping.ofRow_insertRow (fun c hc => tcpSchema_default_null d hc) _
      exact (congrArg TcpRouteMapping.key hrow).trans (Kind.new_key he _)

/-- On the migrated schema, after any operations run one after the other: two rows share
a key only if its TLS port is zero, and a save is found again exactly when the TLS port
of the request is not zero. -/
theorem saveTcpRouteMapping_found_iff (d : Dialect) (env : Env)
    (hids : ∀ i u, env.newV4 i = .ok u → u ≠ "") (ops : List (Op TcpRouteMapping))
    (m : TcpRouteMapping) (httl : m.ttl ≠ none) :
    let w := runOps env (tcpSchema d) ops (World.initial tcpKind)
    let r := (saveTcpRouteMapping m).run (handler env (tcpSchema d)) w
    (∀ x ∈ w.table.rows, ∀ y ∈ w.table.rows, x ≠ y →
      (TcpRouteMapping.ofRow x).key = (TcpRouteMapping.ofRow y).key →
      (TcpRouteMapping.ofRow x).hostTLSPort = 0) ∧
    (r.1 = .ok () → (FoundAfterSave (tcpSchema d) m w r.2 ↔ m.hostTLSPort ≠ 0)) := by
  intro w r
  have hw : TcpTable d w.table := runOps_tcpTable d hids ops
  have hsaved : Saved env (tcpSchema d) m w r := run_saveEntity m w
  have hr : TcpTable d r.2.table := hw.effect hids hsaved.effect
  refine ⟨fun x hx y hy hxy hk => ?_, fun hok => ⟨?_, fun hne => ?_⟩⟩
  · by_contra hne
    exact hxy (hw.unique x hx y hy hk hne)
  · rintro ⟨x, hx, -, -, hfollow⟩ hz
    -- with a zero port the lookup selects nothing, so it returns the zero struct
    obtain ⟨hfind, -⟩ := hfollow Env.quiet Env.quiet_faultless
    rcases run_findExisting_cases Env.quiet (tcpSchema d) m r.2 with
      ⟨e, hrun, -⟩ | ⟨-, hrun⟩ | ⟨y, hy, -⟩
    · rw [show (findExistingTcpRouteMapping m).run _ r.2 = _ from hrun] at hfind
      cases hfind
    · rw [show (findExistingTcpRouteMapping m).run _ r.2 = _ from hrun] at hfind
      exact hr.guid_ne hx (congrArg TcpRouteMapping.guid (Except.ok.inj hfind).symm)
    · rw [show r.2.table.select (tcpKind.lookup m) = [] from hr.select_nil hz] at hy
      cases hy
  · obtain ⟨x, hx, hkey, hwrites⟩ := hsaved.written hok
    have hm : r.2.Matched m x := hr.matched hx hkey hne
    refine ⟨x, hx, hwrites, fun y hy hyk => (hr.matched hy hyk hne).eq hm, fun env' henv' => ?_⟩
    have hfind := run_findExisting_matched (s := tcpSchema d) hm henv'
    exact ⟨congrArg Prod.fst hfind, hr.resave henv' hm httl, hr.delete_matched henv' hm⟩

/-- A mapping without a TLS port, as a client sends it. -/
def plainMapping : TcpRouteMapping :=
  { routerGroupGuid := "rg", hostIP := "10.0.0.1", hostPort := 80, externalPort := 1024,
    ttl := some 60 }

/-- Saved on a migrated MySQL database and then looked up, deleted and saved again. -/
theorem plainMapping_lost :
    let s := tcpSchema .mysql
    let r := (saveTcpRouteMapping plainMapping).run (handler .quiet s) (World.initial tcpKind)
    r.1 = .ok () ∧
      ((findExistingTcpRouteMapping plainMapping).run (handler .quiet s) r.2).1 =
        .ok TcpRouteMapping.zero ∧
      ((deleteTcpRouteMapping plainMapping).run (handler .quiet s) r.2).1 =
        .error deleteRouteError ∧
      ((saveTcpRouteMapping plainMapping).run (handler .quiet s) r.2).2.stored.map
        TcpRouteMapping.key = [plainMapping.key, plainMapping.key] := by
  decide +kernel

/-- With a TLS port the same mapping is found again. -/
theorem tlsMapping_found :
    let m := { plainMapping with hostTLSPort := 443 }
    let r := (saveTcpRouteMapping m).run (handler .quiet (tcpSchema .mysql))
      (World.initial tcpKind)
    r.1 = .ok () ∧ FoundAfterSave (tcpSchema .mysql) m (World.initial tcpKind) r.2 := by
  have hok : ((saveTcpRouteMapping { plainMapping with hostTLSPort := 443 }).run
      (handler .quiet (tcpSchema .mysql)) (World.initial tcpKind)).1 = .ok () := by
    decide +kernel
  have hfound := (saveTcpRouteMapping_found_iff .mysql .quiet Env.quiet_uuids.nonempty []
    { plainMapping with hostTLSPort := 443 } (by decide)).2 hok
  exact ⟨hok, hfound.mpr (by decide)⟩

end RoutingApi.Database
