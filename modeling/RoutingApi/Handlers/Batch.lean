import RoutingApi.Handlers.TableShape

/-! An Upsert of several mappings against Upserts of the same mappings one by one. In one request
everything is validated before the first write, so that no mapping is compared with the ones that
come with it. -/
namespace RoutingApi.Handlers
open Relational Gorm Models Process Program Database Migrations Duration

section Requests
variable (env : Env) (s : Schema TcpColumn) (maxTTL : ℤ)

def upsertOf (ms : List TcpRouteMapping) (w : World tcpKind) : Except Err Response × World tcpKind :=
  (TcpRouteMappingsHandler.upsert maxTTL ⟨.ok (), .ok ms⟩).run (handler env s) w

/-- The mappings one request each: the answers, and the world in the end. -/
def sendEach : List TcpRouteMapping → World tcpKind → List (Except Err Response) × World tcpKind
  | [], w => ([], w)
  | m :: ms, w =>
    let r := upsertOf env s maxTTL [m] w
    let rest := sendEach ms r.2
    (r.1 :: rest.1, rest.2)

/-- Answered 201. -/
def Created (r : Except Err Response) : Prop := ∃ response, r = .ok response ∧ response.status = .created

instance (r : Except Err Response) : Decidable (Created r) :=
  match r with
  | .ok response => decidable_of_iff (response.status = .created) (by simp [Created])
  | .error _ => .isFalse (by simp [Created])

/-- No call fails or finds the database locked, the router groups stay the same, and uuids are
drawn as they should. -/
structure Calm (groups : List RouterGroupDB) : Prop where
  faultless : env.Faultless
  unlocked : ∀ n, env.readLocked n = false
  groups : ∀ n, env.routerGroups n = groups
  uuids : env.Uuids
  drawn : ∀ i, ∃ g, env.newV4 i = .ok g

/-- The uuids to come are not in the table. -/
def Undrawn (w : World tcpKind) : Prop :=
  ∀ i g, w.uuids ≤ i → env.newV4 i = .ok g → ¬w.table.Stores (.text g)

/-- The guids of the table. -/
def guidsOf (w : World tcpKind) : List Cell := w.table.rows.map fun x => x .guid

end Requests

section Following
variable {env : Env} {d : Dialect} {maxTTL : ℤ} {guids : List Cell} {w w₁ : World tcpKind}
  {v : Passed maxTTL}

/-- The given guids are still stored, the others were generated, and more can be. -/
structure Following (env : Env) (guids : List Cell) (w : World tcpKind) : Prop where
  known : ∀ g ∈ guids, w.table.Stores g
  generated : ∀ x ∈ w.table.rows, x .guid ∈ guids ∨ x .guid ≠ .text ""
  undrawn : Undrawn env w

theorem known_guidsOf (w : World tcpKind) : ∀ g ∈ guidsOf w, w.table.Stores g := by
  intro g hg
  exact List.mem_map.mp hg

theorem Following.start (h : Undrawn env w) : Following env (guidsOf w) w where
  known := known_guidsOf w
  generated _ hx := .inl (List.mem_map_of_mem hx)
  undrawn := h

theorem Following.emits (h : Following env guids w) {evs : List (Event TcpRouteMapping)}
    (hw : w.Emits w₁ evs) : Following env guids w₁ where
  known := hw.table ▸ h.known
  generated := hw.table ▸ h.generated
  undrawn i g hi hg := hw.table ▸ h.undrawn i g (hw.uuids.trans hi) hg

theorem shape_emits (guids : List Cell) {evs : List (Event TcpRouteMapping)} (hw : w.Emits w₁ evs) :
    shape guids w₁ = shape guids w := by
  rw [shape, shape, hw.table]

theorem Saved.stores {m : TcpRouteMapping} {r : Except Err Unit × World tcpKind}
    (h : Saved env (tcpSchema d) m w r) {c : Cell} (hc : w.table.Stores c) : r.2.table.Stores c := by
  cases h with
  | failed _ _ hw _ => rwa [hw.table]
  | duplicated _ hw _ => rwa [hw.table]
  | panicked _ hw _ => rwa [hw.table]
  | refused _ hw _ => rwa [hw.table]
  | updated _ _ _ _ _ _ _ hup hev =>
    rw [hev.table]
    exact hup.stores_iff.mpr hc
  | created _ _ _ _ _ _ _ _ _ _ _ _ _ _ hins hev =>
    rw [hev.table]
    exact hins.stores_iff.mpr (.inl hc)

theorem Following.saved (h : Following env guids w) (hids : env.Uuids) {m : TcpRouteMapping}
    {r : Except Err Unit × World tcpKind} (hr : Saved env (tcpSchema d) m w r) :
    Following env guids r.2 := by
  cases hr with
  | failed _ _ hw _ => exact h.emits hw
  | duplicated _ hw _ => exact h.emits hw
  | panicked _ hw _ => exact h.emits hw
  | refused _ hw _ => exact h.emits hw
  | updated x e w₂ _ hx hu hg hup hev =>
    have hw₂ : Following env guids w₂ := by
      refine ⟨fun g hg => hup.stores_iff.mpr (h.known g hg), fun y hy => ?_, fun i g hi hdrawn => ?_⟩
      · rcases hup.mem_rows.mp hy with ⟨hy, -⟩ | rfl
        · exact h.generated y hy
        · exact .inr fun hempty => hg (Cell.text.inj hempty)
      · rw [hup.stores_iff]
        exact h.undrawn i g (hup.uuids.trans hi) hdrawn
    exact hw₂.emits hev
  | created i j g u e₀ w₂ _ hx hi hij hj hg hu he hins hev =>
    have hguid := Kind.new_guid (K := tcpKind) he ⟨u, 0⟩
    have hw₂ : Following env guids w₂ := by
      refine ⟨fun c hc => hins.stores_iff.mpr (.inl (h.known c hc)), fun y hy => ?_,
        fun k g' hk hdrawn => ?_⟩
      · rcases hins.mem_rows.mp hy with hy | rfl
        · exact h.generated y hy
        · have hpk : tcpKind.model.insertRow (tcpSchema d) (tcpKind.setTag ⟨u, 0⟩ e₀) .guid =
              .text g := (tcpKind.insertRow_pk _ _).trans (congrArg Cell.text hguid)
          rw [hpk]
          exact .inr fun hempty => hids.nonempty i g hg (Cell.text.inj hempty)
      · rw [hins.stores_iff, not_or, hguid]
        refine ⟨h.undrawn k g' (hins.uuids.trans hk) hdrawn, fun hsame => ?_⟩
        cases hsame
        have hki := hids.inj k i _ hdrawn hg
        omega
    exact hw₂.emits hev

/-- If nothing goes wrong outside, a save succeeds when the store takes the write. -/
theorem run_save_ok (hmax : maxTTL ≤ 9223372036) {groups : List RouterGroupDB}
    (hcalm : Calm env groups) (hw : Following env guids w)
    (hsome : ((store d w.now maxTTL).upsert v (shape guids w)).isSome) :
    ((saveTcpRouteMapping v.1).run (handler env (tcpSchema d)) w).1 = .ok () := by
  match hsel : w.table.select (tcpLookup v.1) with
  | [] =>
    obtain ⟨g, hg⟩ := hcalm.drawn w.uuids
    obtain ⟨u, hu⟩ := hcalm.drawn (w.uuids + 1)
    obtain ⟨ttl, httl, -⟩ := v.ttl hmax
    obtain ⟨e, he⟩ : ∃ e, v.1.withModel g w.now = some e := by
      rw [TcpRouteMapping.withModel, httl]
      exact ⟨_, rfl⟩
    rw [upsert_unmatched (u := u) hsel hw.known he (hw.undrawn _ g le_rfl hg)] at hsome
    cases hins : w.table.insert (tcpSchema d).indexes (TcpRouteMapping.model.insertRow (tcpSchema d)
        (tcpKind.setTag ⟨u, 0⟩ e)) with
    | none => simp [hins] at hsome
    | some t => exact run_saveEntity_fresh hsel hcalm.faultless hg hu he hins
  | [x] =>
    have hmem : x ∈ w.table.select (tcpLookup v.1) := by
      rw [hsel]
      exact List.mem_singleton_self x
    obtain ⟨hrow, hhit⟩ := Table.mem_select.mp hmem
    have hx : w.Matched v.1 x := ⟨hsel, v.nonzero hhit⟩
    rw [upsert_matched hmax hsel] at hsome
    split at hsome
    next => cases hsome
    next hempty =>
      obtain ⟨hupdate, -⟩ := v.refreshed w.now hmax x
      have hguid : (refreshed w.now v.1 x).guid ≠ "" := by
        have hsame : (refreshed w.now v.1 x).guid = (TcpRouteMapping.ofRow x).guid :=
          tcpKind.update_guid _ _ _ _ hupdate
        have hpk : x .guid = .text (TcpRouteMapping.ofRow x).guid := (w.typed x hrow).pk
        have hnonempty : x .guid ≠ .text "" := by
          rcases hw.generated x hrow with hknown | hnonempty
          · rwa [anonymous_known hknown] at hempty
          · exact hnonempty
        rw [hsame]
        exact fun h => hnonempty (hpk.trans (congrArg Cell.text h))
      have htable : w.table.update (tcpSchema d).indexes (refreshed w.now v.1 x).toRow ≠ none := by
        intro hnone
        simp [hnone] at hsome
      obtain ⟨-, hok, -⟩ := (run_saveEntity v.1 w).of_matched hx hcalm.faultless hupdate hguid htable
      exact hok
  | x :: y :: rest =>
    have hmany : (store d w.now maxTTL).upsert v (shape guids w) = none := by
      rw [Upserts.upsert, shape_filter, hsel]
      rfl
    rw [hmany] at hsome
    cases hsome

end Following

section Batch
variable {env : Env} {d : Dialect} {maxTTL : ℤ} {guids : List Cell} {w : World tcpKind}

/-- The loop of an Upsert that is answered 201 makes all the writes. -/
theorem saveAll_upserts (hmax : maxTTL ≤ 9223372036) {vs : List (Passed maxTTL)}
    (hknown : ∀ g ∈ guids, w.table.Stores g)
    (h : Created ((saveAll saveTcpRouteMapping (vs.map Subtype.val)).run
      (handler env (tcpSchema d)) w).1) :
    (store d w.now maxTTL).upsertAll vs (shape guids w) =
      some (shape guids ((saveAll saveTcpRouteMapping (vs.map Subtype.val)).run
        (handler env (tcpSchema d)) w).2) := by
  induction vs generalizing w with
  | nil => rfl
  | cons v vs ih =>
    have hsaved : Saved env (tcpSchema d) v.1 w
        ((saveTcpRouteMapping v.1).run (handler env (tcpSchema d)) w) := run_saveEntity v.1 w
    obtain ⟨ttl, httl, -⟩ := v.ttl hmax
    have hcaught := Saved.recoverable (timed_tcp (by simp [httl])) hsaved
    rw [List.map_cons, saveAll, run_bind_ok (run_attempt_caught hcaught)] at h ⊢
    cases hr : ((saveTcpRouteMapping v.1).run (handler env (tcpSchema d)) w).1 with
    | error err =>
      rw [hr] at h
      obtain ⟨response, hresponse, hstatus⟩ := h
      cases hresponse
      cases hstatus
    | ok _ =>
      rw [hr] at h
      have hstores : ∀ g ∈ guids, ((saveTcpRouteMapping v.1).run
          (handler env (tcpSchema d)) w).2.table.Stores g :=
        fun g hg => Saved.stores hsaved (hknown g hg)
      have hrest := ih hstores h
      rw [hsaved.now] at hrest
      rw [Upserts.upsertAll, Saved.upserts hmax hknown hsaved hr, Option.bind_some, hrest]

/-- A mapping that passed its checks is admitted if its group exists and its flag is that of the
similar rows. -/
theorem admitted_iff (guids : List Cell) {groups : List RouterGroup} {v : Passed maxTTL} :
    Admitted maxTTL groups w v.1 ↔ (∃ g ∈ groups, v.1.routerGroupGuid = g.guid) ∧
      Upserts.Accepts (sees w.now) flagOf wanted (shape guids w) v := by
  have hsimilar : Upserts.Accepts (sees w.now) flagOf wanted (shape guids w) v ↔
      ∀ r ∈ (w.table.select (similarTo v.1 w.now)).map TcpRouteMapping.ofRow,
        v.1.terminateFrontendTLS = r.terminateFrontendTLS := by
    rw [Upserts.Accepts, shape, List.forall_mem_map, List.forall_mem_map]
    simp only [sees, flagOf, wanted, similar_anonymous, flag_anonymous, Table.mem_select, and_imp]
    exact forall₃_congr fun x _ _ => eq_comm
  rw [Admitted, validateCreateTcpRouteMapping_accepts, hsimilar]
  exact and_iff_right v.2

theorem toPassed {ms : List TcpRouteMapping}
    (h : ∀ m ∈ ms, validateTcpRouteMapping m true maxTTL = .ok none) :
    ∃ vs : List (Passed maxTTL), vs.map Subtype.val = ms :=
  ⟨ms.pmap Subtype.mk h, by simp [List.map_pmap]⟩

/-- One request of several mappings that is answered 201: each of them was admitted before the
first write, and all the writes were made. -/
theorem batch_created (hmax : maxTTL ≤ 9223372036) {groups : List RouterGroupDB}
    (hgroups : ∀ n, env.routerGroups n = groups) {ms : List TcpRouteMapping}
    (h : Created (upsertOf env (tcpSchema d) maxTTL ms w).1) :
    ∃ vs : List (Passed maxTTL), vs.map Subtype.val = ms.map (TcpRouteMapping.setDefaults maxTTL) ∧
      (∀ v ∈ vs, Admitted maxTTL (groups.map RouterGroupDB.toRouterGroup) w v.1) ∧
      (store d w.now maxTTL).upsertAll vs (shape (guidsOf w) w) =
        some (shape (guidsOf w) (upsertOf env (tcpSchema d) maxTTL ms w).2) := by
  have hrun : Upserted env (tcpSchema d) maxTTL ⟨.ok (), .ok ms⟩ w
      (upsertOf env (tcpSchema d) maxTTL ms w) := run_upsert env (tcpSchema d) maxTTL _ w
  generalize upsertOf env (tcpSchema d) maxTTL ms w = result at h hrun
  cases hrun with
  | refused response w₁ _ hstatus _ =>
    obtain ⟨response', heq, hcreated⟩ := h
    cases heq
    exact absurd hcreated hstatus
  | saving ms' n w₁ hreq hw hadmitted =>
    cases hreq
    rw [hgroups] at hadmitted
    obtain ⟨vs, hvs⟩ := toPassed fun m hm => (validateCreateTcpRouteMapping_accepts.mp
      (hadmitted m hm)).1
    rw [← hvs] at h hadmitted ⊢
    have hknown : ∀ g ∈ guidsOf w, w₁.table.Stores g := hw.table ▸ known_guidsOf w
    have hall := saveAll_upserts hmax hknown h
    rw [hw.now, shape_emits _ hw] at hall
    exact ⟨vs, rfl, fun v hv => hadmitted v.1 (List.mem_map_of_mem hv), hall⟩

end Batch

section OneByOne
variable {env : Env} {d : Dialect} {maxTTL : ℤ} {guids : List Cell} {w : World tcpKind}
  {groups : List RouterGroupDB} (hmax : maxTTL ≤ 9223372036) (hcalm : Calm env groups)
include hmax hcalm

/-- One request of one mapping, whose write the store takes: it is answered 201 if the similar rows
have the wanted flag, and then the write was made. -/
theorem run_single {m : TcpRouteMapping} {v : Passed maxTTL} (hm : v.1 = m.setDefaults maxTTL)
    (hgroup : ∃ g ∈ groups.map RouterGroupDB.toRouterGroup, v.1.routerGroupGuid = g.guid)
    (hw : Following env guids w) {rows : List (Row TcpColumn)}
    (hup : (store d w.now maxTTL).upsert v (shape guids w) = some rows) :
    let r := upsertOf env (tcpSchema d) maxTTL [m] w
    (Created r.1 ↔ Upserts.Accepts (sees w.now) flagOf wanted (shape guids w) v) ∧
      (Created r.1 → Following env guids r.2 ∧ r.2.now = w.now ∧ shape guids r.2 = rows) := by
  intro r
  have hrun : Upserted env (tcpSchema d) maxTTL ⟨.ok (), .ok [m]⟩ w r :=
    run_upsert env (tcpSchema d) maxTTL _ w
  generalize r = result at hrun
  clear r
  cases hrun with
  | refused response w₁ hw₁ hstatus hwhy =>
    have hnot : ¬Created (.ok response) := by
      rintro ⟨response', heq, hcreated⟩
      cases heq
      exact hstatus hcreated
    refine ⟨⟨fun h => absurd h hnot, fun haccepts => ?_⟩, fun h => absurd h hnot⟩
    exfalso
    rcases hwhy [m] rfl with ⟨n, hfault | hlocked⟩ | ⟨n, a, ha, hrefused⟩
    · exact hfault (hcalm.faultless n)
    · rw [hcalm.unlocked] at hlocked
      cases hlocked
    · rw [List.map_singleton, List.mem_singleton, ← hm] at ha
      subst ha
      rw [hcalm.groups] at hrefused
      exact hrefused ((admitted_iff guids).mpr ⟨hgroup, haccepts⟩)
  | saving ms n w₁ hreq hw₁ hadmitted =>
    cases hreq
    rw [List.map_singleton, ← hm] at hadmitted ⊢
    rw [← hw₁.now, ← shape_emits guids hw₁] at hup
    have hfollowing := hw.emits hw₁
    have hsaved : Saved env (tcpSchema d) v.1 w₁
        ((saveTcpRouteMapping v.1).run (handler env (tcpSchema d)) w₁) := run_saveEntity v.1 w₁
    have hok := run_save_ok hmax hcalm hfollowing (by rw [hup]; rfl)
    have hcaught : ∀ e, ((saveTcpRouteMapping v.1).run (handler env (tcpSchema d)) w₁).1 = .error e →
        e.recoverable = true := by
      rw [hok]
      nofun
    have hresult : (saveAll saveTcpRouteMapping [v.1]).run (handler env (tcpSchema d)) w₁ =
        (.ok ⟨.created, none⟩, ((saveTcpRouteMapping v.1).run (handler env (tcpSchema d)) w₁).2) := by
      rw [saveAll, run_bind_ok (run_attempt_caught hcaught), hok]
      rfl
    have haccepts := ((admitted_iff guids).mp (hadmitted v.1 (List.mem_singleton_self _))).2
    have hshape := Saved.upserts hmax hfollowing.known hsaved hok
    rw [hup] at hshape
    rw [hresult]
    exact ⟨iff_of_true ⟨_, rfl, rfl⟩ haccepts, fun _ => ⟨hfollowing.saved hcalm.uuids hsaved,
      hsaved.now.trans hw₁.now, (Option.some.inj hshape).symm⟩⟩

/-- One request for each mapping, where the store takes all the writes. -/
theorem sendEach_created {vs : List (Passed maxTTL)} {ms : List TcpRouteMapping}
    (hms : vs.map Subtype.val = ms.map (TcpRouteMapping.setDefaults maxTTL))
    (hgroup : ∀ v ∈ vs, ∃ g ∈ groups.map RouterGroupDB.toRouterGroup, v.1.routerGroupGuid = g.guid)
    (hw : Following env guids w) {rows : List (Row TcpColumn)}
    (hall : (store d w.now maxTTL).upsertAll vs (shape guids w) = some rows) :
    let each := sendEach env (tcpSchema d) maxTTL ms w
    ((∀ r ∈ each.1, Created r) ↔
      (store d w.now maxTTL).AcceptedEach (sees w.now) flagOf wanted vs (shape guids w)) ∧
    ((∀ r ∈ each.1, Created r) → shape guids each.2 = rows) := by
  induction vs generalizing ms w with
  | nil =>
    have hnil : ms = [] := List.map_eq_nil_iff.mp hms.symm
    subst hnil
    exact ⟨by simp [sendEach, Upserts.AcceptedEach], fun _ => Option.some.inj hall⟩
  | cons v vs ih =>
    obtain ⟨m, ms, rfl, hm, hms⟩ := List.map_eq_cons_iff.mp hms.symm
    obtain ⟨rows₁, hup, hall⟩ := Option.bind_eq_some_iff.mp hall
    obtain ⟨hgroup, hgroups⟩ := List.forall_mem_cons.mp hgroup
    obtain ⟨hone, hthen⟩ := run_single hmax hcalm hm.symm hgroup hw hup
    -- what the requests after the first one do once it is answered 201
    have hrest (hcreated : Created (upsertOf env (tcpSchema d) maxTTL [m] w).1) := by
      obtain ⟨hw₁, hnow, hshape⟩ := hthen hcreated
      rw [← hnow, ← hshape] at hall
      exact ih hms.symm hgroups hw₁ hall
    simp only [sendEach, List.forall_mem_cons]
    constructor
    · rw [Upserts.AcceptedEach, hone]
      refine and_congr_right fun haccepts => ?_
      obtain ⟨-, hnow, hshape⟩ := hthen (hone.mpr haccepts)
      rw [(hrest (hone.mpr haccepts)).1, hnow, hshape, hup]
      simp
    · rintro ⟨hcreated, hothers⟩
      exact (hrest hcreated).2 hothers

end OneByOne

/-- The flag that a mapping leaves: that of the row it is found under, or its own. -/
def flagLeft (w : World tcpKind) (a : TcpRouteMapping) : Bool :=
  match w.table.select (tcpLookup a) with
  | [x] => (TcpRouteMapping.ofRow x).terminateFrontendTLS
  | _ => a.terminateFrontendTLS

theorem flagIn_eq {d : Dialect} {maxTTL now : ℤ} {guids : List Cell} {w : World tcpKind}
    (v : Passed maxTTL) :
    (store d now maxTTL).flagIn flagOf wanted (shape guids w) v = flagLeft w v.1 := by
  rw [Upserts.flagIn, shape_filter, flagLeft]
  cases w.table.select (tcpLookup v.1) with
  | nil => rfl
  | cons x rows =>
    cases rows with
    | nil => exact flag_anonymous x
    | cons y rows => rfl

/-- The TTL has no part in it. -/
theorem flagLeft_setDefaults (maxTTL : ℤ) (w : World tcpKind) (a b : TcpRouteMapping) :
    (Clash (a.setDefaults maxTTL) (b.setDefaults maxTTL) →
      flagLeft w (a.setDefaults maxTTL) = (b.setDefaults maxTTL).terminateFrontendTLS) ↔
      (Clash a b → flagLeft w a = b.terminateFrontendTLS) := by
  obtain ⟨t, ha⟩ := a.setDefaults_eq maxTTL
  obtain ⟨u, hb⟩ := b.setDefaults_eq maxTTL
  rw [ha, hb]
  rfl

/-- A list that is answered 201 in one request: sent one by one each mapping is answered 201 and the
table is the same up to generated guids, exactly if no mapping leaves a flag that a later one,
which is compared with it, does not have. -/
theorem batch_one_by_one_iff (d : Dialect) (env env' : Env) (groups : List RouterGroupDB)
    (hgroups : ∀ n, env.routerGroups n = groups) (hcalm : Calm env' groups) (MaxTTL : Int64)
    (w : World tcpKind) (hundrawn : Undrawn env' w) (ms : List TcpRouteMapping)
    (hbatch : Created (upsertOf env (tcpSchema d) (wholeSeconds MaxTTL) ms w).1) :
    let batch := upsertOf env (tcpSchema d) (wholeSeconds MaxTTL) ms w
    let each := sendEach env' (tcpSchema d) (wholeSeconds MaxTTL) ms w
    ((∀ r ∈ each.1, Created r) ∧ shape (guidsOf w) each.2 = shape (guidsOf w) batch.2) ↔
      ms.Pairwise fun a b => Clash a b → flagLeft w a = b.terminateFrontendTLS := by
  intro batch each
  have hmax := wholeSeconds_le MaxTTL
  obtain ⟨vs, hvs, hadmitted, hall⟩ := batch_created hmax hgroups hbatch
  have haccepts (v) (hv : v ∈ vs) := (admitted_iff (guidsOf w)).mp (hadmitted v hv)
  have hfirst : ∀ v ∈ vs, Upserts.Accepts (sees w.now) flagOf wanted (shape (guidsOf w) w) v :=
    fun v hv => (haccepts v hv).2
  obtain ⟨heach, hsame⟩ := sendEach_created hmax hcalm hvs (fun v hv => (haccepts v hv).1)
    (Following.start hundrawn) hall
  have hiff := (store_flagged d w.now hmax).acceptedEach_iff (by rw [hall]; rfl) hfirst
  rw [and_iff_left_of_imp hsame, heach, hiff]
  simp only [flagIn_eq]
  have hpairs : (vs.map Subtype.val).Pairwise (fun a b => Clash a b → flagLeft w a =
      b.terminateFrontendTLS) ↔ ms.Pairwise fun a b => Clash a b → flagLeft w a =
      b.terminateFrontendTLS := by
    rw [hvs, List.pairwise_map]
    simp only [flagLeft_setDefaults]
  rw [← hpairs, List.pairwise_map]
  rfl

theorem wholeSeconds_two_minutes : wholeSeconds (Int64.ofInt 120000000000) = 120 :=
  wholeSeconds_of_lt (s := 120) (n := 0) (by decide) (by decide) (by decide)

/-- Two backends of one hostname and port, of which only one terminates TLS. -/
def disagreeing : List TcpRouteMapping :=
  [mappingTo "10.0.0.1" (some "a.example.com") true 60,
    mappingTo "10.0.0.2" (some "a.example.com") false 60]

/-- In one request both are stored; one by one the second is refused. -/
theorem batch_skips_comparison :
    let maxTTL := wholeSeconds (Int64.ofInt 120000000000)
    let batch := upsertOf groupEnv (tcpSchema .mysql) maxTTL disagreeing (World.initial tcpKind)
    let each := sendEach groupEnv (tcpSchema .mysql) maxTTL disagreeing (World.initial tcpKind)
    Created batch.1 ∧ each.1.map (fun r => decide (Created r)) = [true, false] ∧
      batch.2.stored.map (fun m => (m.hostIP, m.terminateFrontendTLS)) =
        [("10.0.0.1", true), ("10.0.0.2", false)] ∧
      each.2.stored.map (fun m => (m.hostIP, m.terminateFrontendTLS)) = [("10.0.0.1", true)] := by
  rw [wholeSeconds_two_minutes]
  decide +kernel

/-- Backends that agree, one of them twice. -/
def agreeing : List TcpRouteMapping :=
  [mappingTo "10.0.0.1" (some "a.example.com") true 60,
    mappingTo "10.0.0.2" (some "a.example.com") true 60,
    mappingTo "10.0.0.1" (some "a.example.com") true 90]

theorem groupEnv_calm :
    Calm groupEnv [{ guid := "rg", name := "default-tcp", type := "tcp" }] where
  faultless _ := rfl
  unlocked _ := rfl
  groups _ := rfl
  uuids := ⟨Env.quiet_uuids.nonempty, Env.quiet_uuids.inj⟩
  drawn _ := ⟨_, rfl⟩

theorem batch_one_by_one_agreeing :
    let batch := upsertOf groupEnv (tcpSchema .mysql) 120 agreeing (World.initial tcpKind)
    let each := sendEach groupEnv (tcpSchema .mysql) 120 agreeing (World.initial tcpKind)
    batch.2.stored.map (fun m => (m.hostIP, m.ttl)) = [("10.0.0.1", some 90), ("10.0.0.2", some 60)] ∧
      (∀ r ∈ each.1, Created r) ∧ shape [] each.2 = shape [] batch.2 := by
  intro batch each
  have hundrawn : Undrawn groupEnv (World.initial tcpKind) := by
    rintro i g hi hg ⟨x, hx, -⟩
    cases hx
  have hbatch : Created (upsertOf groupEnv (tcpSchema .mysql)
      (wholeSeconds (Int64.ofInt 120000000000)) agreeing (World.initial tcpKind)).1 := by
    rw [wholeSeconds_two_minutes]
    decide +kernel
  have heach := (batch_one_by_one_iff .mysql groupEnv groupEnv _ (fun _ => rfl) groupEnv_calm
    (Int64.ofInt 120000000000) (World.initial tcpKind) hundrawn agreeing hbatch).mpr (by decide)
  rw [wholeSeconds_two_minutes] at heach
  exact ⟨by decide +kernel, heach⟩

end RoutingApi.Handlers
