import RoutingApi.Handlers.Requests
import RoutingApi.Database.Runs

/-! Whether mappings that share an SNI hostname and an external port agree on terminating
TLS. An Upsert compares its mapping with the similar rows that are live, and an update
keeps the flag of the row it finds. -/
namespace RoutingApi.Handlers
open Relational Gorm Models Process Program Database Migrations

section Statements

/-- A request of a client, a prune pass, or time that passes. -/
inductive Action where
  | upsert (token : Except String Unit) (m : TcpRouteMapping)
  | delete (req : Request TcpRouteMapping)
  | prune
  | tick (d : ℕ)

def act (env : Env) (s : Schema TcpColumn) (maxTTL : ℤ) (w : World tcpKind) :
    Action → World tcpKind
  | .upsert token m =>
    ((TcpRouteMappingsHandler.upsert maxTTL ⟨token, .ok [m]⟩).run (handler env s) w).2
  | .delete req => ((TcpRouteMappingsHandler.delete req).run (handler env s) w).2
  | .prune => (pruneTcpRoutes.run (handler env s) w).2
  | .tick d => w.tick d

/-- Live rows with the same hostname, or both without one, and the same external port have
the same flag. -/
def FlagsAgree (w : World tcpKind) : Prop :=
  ∀ x ∈ w.stored, ∀ y ∈ w.stored, w.now < x.expiresAt → w.now < y.expiresAt →
    x.sniHostname = y.sniHostname → x.externalPort = y.externalPort →
    x.terminateFrontendTLS = y.terminateFrontendTLS

instance (w : World tcpKind) : Decidable (FlagsAgree w) :=
  inferInstanceAs (Decidable (∀ x ∈ w.stored, ∀ y ∈ w.stored, _ → _ → _ → _ → _))

/-- What the validation does not see: live rows without a hostname when the mapping has
none, and the expired row that the save is going to revive. Both have the mapping's flag. -/
def Unobjected (w : World tcpKind) : Action → Prop
  | .upsert _ m =>
    (m.sniHostname = none → ∀ y ∈ w.stored, y.sniHostname = none →
      y.externalPort = m.externalPort → w.now < y.expiresAt →
      y.terminateFrontendTLS = m.terminateFrontendTLS) ∧
    ∀ y ∈ (w.table.select (tcpLookup m)).map TcpRouteMapping.ofRow, ¬w.now < y.expiresAt →
      y.terminateFrontendTLS = m.terminateFrontendTLS
  | _ => True

instance (w : World tcpKind) : (a : Action) → Decidable (Unobjected w a)
  | .upsert _ m => inferInstanceAs (Decidable ((m.sniHostname = none → ∀ y ∈ w.stored, _ → _ → _ → _) ∧
      ∀ y ∈ (w.table.select (tcpLookup m)).map TcpRouteMapping.ofRow, _ → _))
  | .delete _ | .prune | .tick _ => isTrue trivial

end Statements

section Invariant
variable {d : Dialect} {env : Env} {maxTTL : ℤ} {w w' : World tcpKind} {m e : TcpRouteMapping}

/-- With the flags, the ports are stored as they read. -/
structure Agreed (w : World tcpKind) : Prop where
  flags : FlagsAgree w
  ports : ∀ x ∈ w.table.rows, x .externalPort = .int (TcpRouteMapping.ofRow x).externalPort.toNat

namespace Agreed
variable (h : Agreed w)
include h

theorem shrink (hrows : ∀ x ∈ w'.table.rows, x ∈ w.table.rows) (hnow : w.now ≤ w'.now) :
    Agreed w' := by
  have hstored := World.stored_mono hrows
  refine ⟨fun x hx y hy hlx hly => ?_, fun x hx => h.ports x (hrows x hx)⟩
  exact h.flags x (hstored x hx) y (hstored y hy) (hnow.trans_lt hlx) (hnow.trans_lt hly)

theorem emits {evs : List (Event TcpRouteMapping)} (hw : w.Emits w' evs) : Agreed w' :=
  h.shrink (fun _ hx => hw.table ▸ hx) hw.now.ge

/-- A row joins the table with the flag of the live rows it is similar to. -/
theorem write (hnow : w'.now = w.now) (he : ∀ y ∈ w.stored, w.now < y.expiresAt →
      y.sniHostname = e.sniHostname → y.externalPort = e.externalPort →
      y.terminateFrontendTLS = e.terminateFrontendTLS)
    (hrows : ∀ x ∈ w'.table.rows, x ∈ w.table.rows ∨ (TcpRouteMapping.ofRow x = e ∧
      x .externalPort = .int e.externalPort.toNat)) : Agreed w' := by
  have hstored : ∀ y ∈ w'.stored, y ∈ w.stored ∨ y = e := by
    intro y hy
    obtain ⟨x, hx, rfl⟩ := World.mem_stored.mp hy
    rcases hrows x hx with hx | ⟨hx, -⟩
    · exact .inl (World.mem_stored.mpr ⟨x, hx, rfl⟩)
    · exact .inr hx
  refine ⟨fun x hx y hy hlx hly hsni hport => ?_, fun x hx => ?_⟩
  · rw [hnow] at hlx hly
    rcases hstored x hx with hx | rfl <;> rcases hstored y hy with hy | rfl
    · exact h.flags x hx y hy hlx hly hsni hport
    · exact he x hx hlx hsni hport
    · exact (he y hy hly hsni.symm hport.symm).symm
    · rfl
  · rcases hrows x hx with hx | ⟨hx, hport⟩
    · exact h.ports x hx
    · rw [hx, hport]

/-- A live row that shares a hostname and the port with a mapping is one that the mapping
is compared with. -/
theorem similar {name : String} (hsni : m.sniHostname = some name) {x : Row TcpColumn}
    (hx : x ∈ w.table.rows) (hlive : w.now < (TcpRouteMapping.ofRow x).expiresAt)
    (hname : (TcpRouteMapping.ofRow x).sniHostname = m.sniHostname)
    (hport : (TcpRouteMapping.ofRow x).externalPort = m.externalPort) :
    x ∈ w.table.select (similarTo m w.now) := by
  have hcell : x .sniHostname = .text name := by
    have hread : textPtrOf (x .sniHostname) = some name := hname.trans hsni
    cases hc : x .sniHostname with
    | text t =>
      rw [hc] at hread
      exact congrArg Cell.text (Option.some.inj hread)
    | _ =>
      rw [hc] at hread
      cases hread
  have hexpiry : x .expiresAt = .time (TcpRouteMapping.ofRow x).expiresAt := (w.typed x hx).expiry
  refine Table.mem_select.mpr ⟨hx, ?_⟩
  simp [holdsAll, similarTo, Cond.holds, Cell.eqv, hcell, hsni, h.ports x hx, hport, hexpiry, hlive]

theorem deleted {r : Except Err Unit × World tcpKind} (hr : Deleted env m w r) : Agreed r.2 := by
  cases hr with
  | failed _ _ hw _ => exact h.emits hw
  | duplicated _ hw _ => exact h.emits hw
  | notFound _ hw _ => exact h.emits hw
  | keyless _ _ hw _ _ => exact h.emits hw
  | deleted x w₁ w' _ _ hrm hev =>
    exact (h.shrink (fun _ hy => (hrm.mem_rows.mp hy).1) hrm.now.ge).emits hev

theorem pruned {r : Except Err Unit × World tcpKind} (hr : Pruned env w r) : Agreed r.2 := by
  cases hr with
  | failed _ _ hw _ => exact h.emits hw
  | pruned w₁ w' hrm hev =>
    exact (h.shrink (fun _ hy => (hrm.mem_rows.mp hy).1) hrm.now.ge).emits hev

/-- A save of a mapping whose flag no similar live row objects to, and neither does the row
that it finds. -/
theorem saved {r : Except Err Unit × World tcpKind} (hr : Saved env (tcpSchema d) m w r)
    (hlive : ∀ y ∈ w.stored, w.now < y.expiresAt → y.sniHostname = m.sniHostname →
      y.externalPort = m.externalPort → y.terminateFrontendTLS = m.terminateFrontendTLS)
    (hfound : ∀ x, w.Matched m x →
      (TcpRouteMapping.ofRow x).terminateFrontendTLS = m.terminateFrontendTLS) : Agreed r.2 := by
  cases hr with
  | failed _ _ hw _ => exact h.emits hw
  | duplicated _ hw _ => exact h.emits hw
  | panicked _ hw _ => exact h.emits hw
  | refused _ hw _ => exact h.emits hw
  | updated x e w₁ w' hx hu _ hup hev =>
    have hkey : e.key = m.key := (tcpKind.update_key _ _ _ _ hu).trans hx.key
    have hsni : e.sniHostname = m.sniHostname := congrArg TcpRouteMapping.Key.sniHostname hkey
    have hport : e.externalPort = m.externalPort := congrArg TcpRouteMapping.Key.externalPort hkey
    have hflag : e.terminateFrontendTLS = m.terminateFrontendTLS := by
      rw [← hfound x hx]
      obtain ⟨ttl, -, rfl⟩ := Option.map_eq_some_iff.mp hu
      rfl
    refine (h.write (e := e) hup.now ?_ fun y hy => ?_).emits hev
    · rw [hsni, hport, hflag]
      exact hlive
    · rcases hup.mem_rows.mp hy with ⟨hy, -⟩ | rfl
      · exact .inl hy
      · exact .inr ⟨TcpRouteMapping.ofRow_toRow e, rfl⟩
  | created i j g u e₀ w₁ w' _ _ _ _ _ _ he hins hev =>
    have hfields : e₀.sniHostname = m.sniHostname ∧ e₀.externalPort = m.externalPort ∧
        e₀.terminateFrontendTLS = m.terminateFrontendTLS := by
      obtain ⟨ttl, -, rfl⟩ := Option.map_eq_some_iff.mp he
      exact ⟨rfl, rfl, rfl⟩
    obtain ⟨hsni, hport, hflag⟩ := hfields
    refine (h.write (e := tcpKind.setTag ⟨u, 0⟩ e₀) hins.now ?_ fun y hy => ?_).emits hev
    · show ∀ y ∈ w.stored, w.now < y.expiresAt → y.sniHostname = e₀.sniHostname →
        y.externalPort = e₀.externalPort → y.terminateFrontendTLS = e₀.terminateFrontendTLS
      rw [hsni, hport, hflag]
      exact hlive
    · rcases hins.mem_rows.mp hy with hy | rfl
      · exact .inl hy
      · exact .inr ⟨StoredAs.ofRow (d := d) (.inl rfl), insertRow_column nofun nofun⟩

/-- An Upsert that the condition admits. -/
theorem upsert {token : Except String Unit} (hQ : Unobjected w (.upsert token m)) :
    Agreed (act env (tcpSchema d) maxTTL w (.upsert token m)) := by
  rcases run_upsert_single token m w with hw | ⟨w₁, r, hw, hr, hw', hsim⟩
  · exact h.emits hw
  · obtain ⟨ttl, hm⟩ := m.setDefaults_eq maxTTL
    rw [hm] at hr hsim
    have hlive : ∀ y ∈ w.stored, w.now < y.expiresAt → y.sniHostname = m.sniHostname →
        y.externalPort = m.externalPort → y.terminateFrontendTLS = m.terminateFrontendTLS := by
      intro y hy hl hsni hport
      cases hname : m.sniHostname with
      | none => exact hQ.1 hname y hy (hsni.trans hname) hport hl
      | some name =>
        obtain ⟨x, hx, rfl⟩ := World.mem_stored.mp hy
        exact hsim x (h.similar hname hx hl hsni hport)
    have hagreed : Agreed r.2 := by
      refine (h.emits hw).saved hr ?_ fun x hx => ?_
      · rw [hw.stored, hw.now]
        exact hlive
      · have hsel : w.table.select (tcpLookup m) = [x] := hw.table ▸ hx.select
        have hmem : TcpRouteMapping.ofRow x ∈ w.stored :=
          World.mem_stored.mpr ⟨x, hw.table ▸ hx.mem, rfl⟩
        by_cases hl : w.now < (TcpRouteMapping.ofRow x).expiresAt
        · exact hlive _ hmem hl (congrArg TcpRouteMapping.Key.sniHostname hx.key)
            (congrArg TcpRouteMapping.Key.externalPort hx.key)
        · exact hQ.2 _ (by simp [hsel]) hl
    rw [act, hw']
    exact hagreed

theorem delete (req : Request TcpRouteMapping) :
    Agreed (act env (tcpSchema d) maxTTL w (.delete req)) := by
  unfold act TcpRouteMappingsHandler.delete Request.decode
  simp only
  split
  next => exact h
  next => exact h
  next _ routes _ _ =>
    obtain ⟨err, herr⟩ := validateDeleteTcpRouteMapping_returns routes
    simp only [herr, ofExcept_ok, ret_bind]
    cases err with
    | some err => exact h
    | none => exact (run_deleteAll (fun _ _ _ hw hr => hw.deleted hr) h routes).1

end Agreed

theorem agreed_act {a : Action} (h : Agreed w) (hQ : Unobjected w a) :
    Agreed (act env (tcpSchema d) maxTTL w a) := by
  cases a with
  | upsert token m => exact h.upsert hQ
  | delete req => exact h.delete req
  | prune => exact h.pruned (run_pruneEntities w)
  | tick n => exact h.shrink (fun _ hx => hx) (by simp [act, World.tick])

end Invariant

/-- Upserts of one mapping each, deletes, prune passes and the passing of time, from an
empty table: as long as nothing that the validation does not see objects to a mapping, the
live rows agree on terminating TLS in every state. -/
theorem frontend_tls_agrees (d : Dialect) (env : Env) (maxTTL : ℤ) (actions : List Action)
    (hactions : Meets (act env (tcpSchema d) maxTTL) Unobjected (World.initial tcpKind) actions) :
    Always (act env (tcpSchema d) maxTTL) FlagsAgree (World.initial tcpKind) actions := by
  have hstart : Agreed (World.initial tcpKind) :=
    ⟨(fun x hx => by cases hx), (fun x hx => by cases hx)⟩
  exact (always_of_meets (fun _ _ => agreed_act) hstart hactions).mono fun _ h => h.flags

/-- An environment with one router group. -/
def groupEnv : Env :=
  { Env.quiet with routerGroups := fun _ => [{ guid := "rg", name := "default-tcp", type := "tcp" }] }

/-- A mapping to a backend, terminating TLS or not. -/
def mappingTo (hostIP : String) (sni : Option String) (tls : Bool) (ttl : ℤ) : TcpRouteMapping :=
  { routerGroupGuid := "rg", hostIP := hostIP, hostPort := 80, hostTLSPort := 443,
    externalPort := 1024, sniHostname := sni, terminateFrontendTLS := tls, ttl := some ttl }

/-- Two backends without a hostname. -/
def withoutHostname : List Action :=
  [.upsert (.ok ()) (mappingTo "10.0.0.1" none false 60),
    .upsert (.ok ()) (mappingTo "10.0.0.2" none true 60)]

/-- A mapping expires, another one with the other flag is registered, and the first comes
back with the flag of the second. -/
def revived : List Action :=
  [.upsert (.ok ()) (mappingTo "10.0.0.1" (some "a.example.com") true 1), .tick 1500000000,
    .upsert (.ok ()) (mappingTo "10.0.0.2" (some "a.example.com") false 60),
    .upsert (.ok ()) (mappingTo "10.0.0.1" (some "a.example.com") false 60)]

/-- Both end with two live rows that disagree. -/
theorem frontend_tls_disagrees :
    let w := play (act groupEnv (tcpSchema .mysql) 120) (World.initial tcpKind) withoutHostname
    let w' := play (act groupEnv (tcpSchema .mysql) 120) (World.initial tcpKind) revived
    w.stored.map (fun m => (m.hostIP, m.sniHostname, m.terminateFrontendTLS)) =
        [("10.0.0.1", none, false), ("10.0.0.2", none, true)] ∧ ¬FlagsAgree w ∧
      w'.stored.map (fun m => (m.hostIP, m.sniHostname, m.terminateFrontendTLS)) =
        [("10.0.0.1", some "a.example.com", true), ("10.0.0.2", some "a.example.com", false)] ∧
      ¬FlagsAgree w' := by
  decide +kernel

/-- Backends with a hostname, of which the validation refuses the one with the other flag,
and one without. -/
def withHostname : List Action :=
  [.upsert (.ok ()) (mappingTo "10.0.0.1" (some "a.example.com") true 60),
    .upsert (.ok ()) (mappingTo "10.0.0.2" (some "a.example.com") false 60),
    .upsert (.ok ()) (mappingTo "10.0.0.3" none false 60), .tick 62000000000, .prune,
    .upsert (.ok ()) (mappingTo "10.0.0.2" (some "a.example.com") false 60)]

theorem frontend_tls_agrees_with_hostname :
    (play (act groupEnv (tcpSchema .mysql) 120) (World.initial tcpKind) withHostname).stored.map
        (fun m => (m.hostIP, m.terminateFrontendTLS)) = [("10.0.0.2", false)] ∧
      Always (act groupEnv (tcpSchema .mysql) 120) FlagsAgree (World.initial tcpKind)
        withHostname :=
  ⟨by decide +kernel, frontend_tls_agrees .mysql groupEnv 120 withHostname (by decide +kernel)⟩

end RoutingApi.Handlers
