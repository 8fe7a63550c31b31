import RoutingApi.Database.KeyLookup

/-! What a save of a TCP route mapping that is already stored takes from the request.
An update copies three of the six fields that a client supplies besides the key. -/
namespace RoutingApi.Database
open Relational Gorm Models Process Program Migrations

/-- The fields outside the key that a client supplies. -/
structure Supplied where
  instanceId : String
  sniRewriteHostname : Option String
  isolationSegment : String
  ttl : Option ℤ
  terminateFrontendTLS : Bool
  alpns : String
  deriving DecidableEq, Repr

def supplied (m : TcpRouteMapping) : Supplied :=
  ⟨m.instanceId, m.sniRewriteHostname, m.isolationSegment, m.ttl, m.terminateFrontendTLS, m.alpns⟩

/-- Those of them that `updateTcpRouteMapping` leaves as they were stored. -/
def kept (m : TcpRouteMapping) : String × Bool × String :=
  (m.instanceId, m.terminateFrontendTLS, m.alpns)

section Fields
variable {now : ℤ} {existing m e : TcpRouteMapping}

theorem supplied_update_iff (httl : m.ttl ≠ none)
    (hu : TcpRouteMapping.updateTcpRouteMapping now existing m = some e) :
    supplied e = supplied m ↔ kept existing = kept m := by
  obtain ⟨ttl, httl⟩ := Option.ne_none_iff_exists'.mp httl
  rw [TcpRouteMapping.updateTcpRouteMapping, httl] at hu
  cases hu
  simp [supplied, kept, httl]

theorem supplied_new {g : String} (t : ModificationTag)
    (he : TcpRouteMapping.withModel g now m = some e) :
    supplied (tcpKind.setTag t e) = supplied m := by
  obtain ⟨ttl, -, rfl⟩ := Option.map_eq_some_iff.mp he
  rfl

end Fields

/-- Every row stored for the key of `m`, and the event just emitted, show the fields of `m`. -/
def ShowsLastWriter (m : TcpRouteMapping) (w w' : World tcpKind) : Prop :=
  (∃ x ∈ w'.table.rows, (TcpRouteMapping.ofRow x).key = m.key) ∧
  (∀ x ∈ w'.table.rows, (TcpRouteMapping.ofRow x).key = m.key →
    supplied (.ofRow x) = supplied m) ∧
  ∃ ev : Event TcpRouteMapping, w'.log = w.log ++ [ev] ∧ ev.type.string = "Upsert" ∧
    supplied ev.value = supplied m

section Saves
variable {d : Dialect} {m : TcpRouteMapping} {w w₁ w' : World tcpKind}

theorem showsLastWriter_updated {x : Row TcpColumn} {e : TcpRouteMapping}
    (hdup : ∀ x ∈ w.table.rows, ∀ y ∈ w.table.rows,
      (TcpRouteMapping.ofRow x).key = (TcpRouteMapping.ofRow y).key → x = y)
    (hx : w.Matched m x)
    (hu : TcpRouteMapping.updateTcpRouteMapping w.now (.ofRow x) m = some e)
    (hup : w.Updates w₁ (tcpSchema d) e) (hev : w₁.Emits w' [⟨.update, e⟩]) :
    ShowsLastWriter m w w' ↔ supplied e = supplied m := by
  have hkey : e.key = m.key := (tcpKind.update_key _ _ _ _ hu).trans hx.key
  have hpk : x .guid = e.toRow .guid := by
    rw [show x .guid = _ from (w.typed x hx.mem).pk]
    exact congrArg Cell.text (tcpKind.update_guid _ _ _ _ hu).symm
  have hrow : e.toRow ∈ w'.table.rows := by
    rw [hev.table]
    exact hup.mem_rows.mpr (.inr rfl)
  have honly : ∀ y ∈ w'.table.rows, (TcpRouteMapping.ofRow y).key = m.key → y = e.toRow := by
    intro y hy hk
    rw [hev.table] at hy
    rcases hup.mem_rows.mp hy with ⟨hy, hne⟩ | rfl
    · have hyx := hdup y hy x hx.mem (hk.trans hx.key.symm)
      exact absurd (hyx ▸ hpk) hne
    · rfl
  constructor
  · rintro ⟨-, hall, -⟩
    have hshown := hall e.toRow hrow (by rw [TcpRouteMapping.ofRow_toRow, hkey])
    rwa [TcpRouteMapping.ofRow_toRow] at hshown
  · intro hs
    refine ⟨⟨_, hrow, by rw [TcpRouteMapping.ofRow_toRow, hkey]⟩, fun y hy hk => ?_,
      ⟨.update, e⟩, ?_, rfl, hs⟩
    · rw [honly y hy hk, TcpRouteMapping.ofRow_toRow, hs]
    · rw [hev.log, hup.log]

theorem showsLastWriter_created {e : TcpRouteMapping} (hkey : e.key = m.key)
    (hs : supplied e = supplied m) (hins : w.Inserts w₁ (tcpSchema d) e)
    (hev : w₁.Emits w' [⟨.create, e⟩]) :
    ShowsLastWriter m w w' ↔ ∀ x ∈ w.table.rows, (TcpRouteMapping.ofRow x).key = m.key →
      supplied (.ofRow x) = supplied m := by
  have hrows : w'.table.rows =
      w.table.rows ++ [TcpRouteMapping.model.insertRow (tcpSchema d) e] := by
    rw [hev.table, (Table.insert_some hins.insert).1]
    rfl
  have hnew : TcpRouteMapping.ofRow (TcpRouteMapping.model.insertRow (tcpSchema d) e) = e :=
    TcpRouteMapping.ofRow_insertRow (fun c hc => tcpSchema_default_null d hc) e
  constructor
  · rintro ⟨-, hall, -⟩ x hx
    exact hall x (hrows ▸ List.mem_append_left _ hx)
  · intro hall
    refine ⟨⟨_, hrows ▸ List.mem_append_right _ (List.mem_singleton_self _), ?_⟩, ?_,
      ⟨.create, e⟩, ?_, rfl, hs⟩
    · rw [hnew, hkey]
    · intro x hx hk
      rw [hrows, List.mem_append, List.mem_singleton] at hx
      rcases hx with hx | rfl
      · exact hall x hx hk
      · rw [hnew, hs]
    · rw [hev.log, hins.log]

end Saves

/-- A successful save is last-writer-wins exactly when what the table already held for
the key agrees with the request: the row that the lookup finds on the three fields that
are kept, a row that it misses on all six. -/
theorem saveTcpRouteMapping_last_writer_iff (d : Dialect) (env : Env) (w : World tcpKind)
    (hdup : ∀ x ∈ w.table.rows, ∀ y ∈ w.table.rows,
      (TcpRouteMapping.ofRow x).key = (TcpRouteMapping.ofRow y).key → x = y)
    (m : TcpRouteMapping) (httl : m.ttl ≠ none) :
    let r := (saveTcpRouteMapping m).run (handler env (tcpSchema d)) w
    r.1 = .ok () → (ShowsLastWriter m w r.2 ↔
      ∀ x ∈ w.table.rows, (TcpRouteMapping.ofRow x).key = m.key →
        (w.Matched m x → kept (.ofRow x) = kept m) ∧
        (¬w.Matched m x → supplied (.ofRow x) = supplied m)) := by
  intro r hok
  have hsaved : Saved env (tcpSchema d) m w r := run_saveEntity m w
  generalize hr : r = r' at hsaved hok
  cases hsaved with
  | failed => cases hok
  | duplicated => cases hok
  | panicked => cases hok
  | refused => cases hok
  | updated x e w₁ w' hx hu _ hup hev =>
    rw [showsLastWriter_updated hdup hx hu hup hev, supplied_update_iff httl hu]
    constructor
    · intro hk y hy hyk
      obtain rfl := hdup y hy x hx.mem (hyk.trans hx.key.symm)
      exact ⟨fun _ => hk, fun hn => absurd hx hn⟩
    · intro hall
      exact (hall x hx.mem hx.key).1 hx
  | created i j g u e₀ w₁ w' hun _ _ _ _ _ he hins hev =>
    rw [showsLastWriter_created (Kind.new_key he _) (supplied_new _ he) hins hev]
    constructor
    · intro hall x hx hk
      exact ⟨fun hm => absurd hun hm.not_unmatched, fun _ => hall x hx hk⟩
    · intro hall x hx hk
      exact (hall x hx hk).2 fun hm => hm.not_unmatched hun

/-- A backend with a TLS port, registered by the instance of the given id. -/
def backend (instanceId : String) : TcpRouteMapping :=
  { plainMapping with hostTLSPort := 443, instanceId := instanceId }

/-- The route of instance `a`, refreshed a second later by instance `b`. -/
theorem refresh_keeps_other_instance :
    let s := tcpSchema .mysql
    let w := (((saveTcpRouteMapping (backend "a")).run (handler .quiet s)
      (World.initial tcpKind)).2).tick 1000000000
    let r := (saveTcpRouteMapping (backend "b")).run (handler .quiet s) w
    r.1 = .ok () ∧ r.2.stored.map (fun e => (e.key, e.instanceId, e.expiresAt)) =
        [((backend "b").key, "a", 61000000000)] ∧
      r.2.log.map (fun ev => (ev.type, ev.value.instanceId)) =
        [(.create, "a"), (.update, "a")] := by
  decide +kernel

/-- A refresh by the instance that registered the route shows the request. -/
theorem refresh_by_same_instance :
    let w := ((saveTcpRouteMapping (backend "a")).run (handler .quiet (tcpSchema .mysql))
      (World.initial tcpKind)).2
    let r := (saveTcpRouteMapping (backend "a")).run (handler .quiet (tcpSchema .mysql)) w
    w.stored.length = 1 ∧ r.1 = .ok () ∧ ShowsLastWriter (backend "a") w r.2 := by
  intro w r
  have hlen : w.table.rows.length = 1 := by decide +kernel
  have hok : r.1 = .ok () := by decide +kernel
  have hsame : ∀ e ∈ w.stored, supplied e = supplied (backend "a") := by decide +kernel
  obtain ⟨row, hrow⟩ := List.length_eq_one_iff.mp hlen
  refine ⟨by rw [World.stored, List.length_map, hlen], hok,
    (saveTcpRouteMapping_last_writer_iff .mysql .quiet w ?_ _ (by decide) hok).mpr ?_⟩
  · intro x hx y hy _
    rw [hrow, List.mem_singleton] at hx hy
    rw [hx, hy]
  · intro x hx _
    have hx' := hsame _ (List.mem_map_of_mem hx)
    refine ⟨fun _ => ?_, fun _ => hx'⟩
    exact congrArg (fun f : Supplied => (f.instanceId, f.terminateFrontendTLS, f.alpns)) hx'

end RoutingApi.Database
