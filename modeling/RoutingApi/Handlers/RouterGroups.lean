import RoutingApi.Database.RouterGroups
import RoutingApi.Handlers.Requests

/-! The router group requests: what each of them answers and does to the table, and what
holds of the table over any number of them. -/
namespace RoutingApi.Handlers
open Relational Models Process Program Groups Migrations
open Database (Err Env)

/-- The JSON of a router group, which leaves out the embedded `Model`. -/
structure RouterGroupJson where
  guid : String
  name : String
  type : String
  reservablePorts : String
  deriving DecidableEq, Repr

namespace RouterGroupJson

def ofRouterGroup (rg : RouterGroup) : RouterGroupJson :=
  ⟨rg.guid, rg.name, rg.type, rg.reservablePorts⟩

def toRouterGroup (rg : RouterGroupJson) : RouterGroup :=
  ⟨"", rg.guid, rg.name, rg.type, rg.reservablePorts⟩

/-- The JSON of the group that a row holds. -/
def ofDB (rg : RouterGroupDB) : RouterGroupJson := ofRouterGroup rg.toRouterGroup

end RouterGroupJson

namespace RouterGroupsHandler

/-- A response to a router group request. Deleting a missing group answers 404 without a
body. -/
inductive Answer where
  | groups (routerGroups : List RouterGroupJson)
  | group (routerGroup : RouterGroupJson)
  | created (routerGroup : RouterGroupJson)
  | noContent
  | failed (response : Response)
  | notFound (message : Option String)
  | guidGenerationError (message : String)
  deriving DecidableEq, Repr

def Answer.code : Answer → ℕ
  | .groups _ => 200
  | .group _ => 200
  | .created _ => 201
  | .noContent => 204
  | .failed response => response.status.code
  | .notFound _ => 404
  | .guidGenerationError _ => 500

section Handlers
variable (cfg : PortSettings)

/-- The beginning that the writing requests with a body share. -/
def decoded (token : Except String Unit) (body : Except String RouterGroupJson)
    (handle : RouterGroupJson → GroupDB Answer) : GroupDB Answer :=
  match token, body with
  | .error err, _ => pure (.failed (handleUnauthorizedError err))
  | .ok (), .error err => pure (.failed (handleProcessRequestError err))
  | .ok (), .ok rg => handle rg

/-- A lookup by name that fails in the database finds nothing: the group is looked at before
the error. -/
def listRouterGroups (token : Except String Unit) (name : String) : GroupDB Answer :=
  match token with
  | .error err => pure (.failed (handleUnauthorizedError err))
  | .ok () => do
    if name ≠ "" then
      let rg := (← tried (readRouterGroupByName name)).toOption.getD .zero
      if rg = .zero then pure (.notFound (some ("router group '" ++ name ++ "' not found")))
      else pure (.groups [.ofRouterGroup rg])
    else
      match ← tried readRouterGroups with
      | .error err => pure (.failed (handleDBCommunicationError err))
      | .ok routerGroups => pure (.groups (routerGroups.map .ofRouterGroup))

def updateRouterGroup (token : Except String Unit) (guid : String)
    (body : Except String RouterGroupJson) : GroupDB Answer :=
  decoded token body fun updatedGroup => do
    match ← tried (readRouterGroup guid) with
    | .error err => pure (.failed (handleDBCommunicationError err))
    | .ok rg =>
      if rg = .zero then
        pure (.notFound (some ("router group '" ++ guid ++ "' does not exist")))
      else if rg.reservablePorts ≠ updatedGroup.reservablePorts then
        let rg := { rg with reservablePorts := updatedGroup.reservablePorts }
        match rg.validate cfg with
        | .error err => pure (.failed (handleProcessRequestError err))
        | .ok () =>
          match ← tried (saveRouterGroup rg) with
          | .error err => pure (.failed (handleDBCommunicationError err))
          | .ok () => pure (.group (.ofRouterGroup rg))
      else pure (.group (.ofRouterGroup rg))

def deleteRouterGroup (token : Except String Unit) (guid : String) : GroupDB Answer :=
  match token with
  | .error err => pure (.failed (handleUnauthorizedError err))
  | .ok () => do
    match ← tried (Groups.deleteRouterGroup guid) with
    | .error err =>
      if Err.isKeyNotFound err then pure (.notFound none)
      else pure (.failed (handleDBCommunicationError err))
    | .ok () => pure .noContent

/-- The first of the groups with the name and the type of `rg`. -/
def routerGroupExist (rgs : List RouterGroup) (rg : RouterGroup) : Option RouterGroup :=
  rgs.find? fun r => r.name = rg.name ∧ r.type = rg.type

def createRouterGroup (token : Except String Unit) (body : Except String RouterGroupJson) :
    GroupDB Answer :=
  decoded token body fun body => do
    let rg := body.toRouterGroup
    match ← tried readRouterGroups with
    | .error err => pure (.failed (handleDBCommunicationError err))
    | .ok routerGroups =>
      match routerGroupExist routerGroups rg with
      | some existingRg => pure (.group (.ofRouterGroup existingRg))
      | none =>
        match ← perform Call.newV4 with
        | .error err => pure (.guidGenerationError err.message)
        | .ok guid =>
          let rg := { rg with guid := guid }
          match RouterGroup.validateAll cfg (routerGroups ++ [rg]) with
          | .error err => pure (.failed (handleProcessRequestError err))
          | .ok () =>
            match ← tried (saveRouterGroup rg) with
            | .error err => pure (.failed (handleDBCommunicationError err))
            | .ok () => pure (.created (.ofRouterGroup rg))

/-- What the token validator says of a request, and what the request asks for. -/
inductive Request where
  | list (token : Except String Unit) (name : String)
  | create (token : Except String Unit) (body : Except String RouterGroupJson)
  | update (token : Except String Unit) (guid : String) (body : Except String RouterGroupJson)
  | delete (token : Except String Unit) (guid : String)

def Request.handle : Request → GroupDB Answer
  | .list token name => listRouterGroups token name
  | .create token body => createRouterGroup cfg token body
  | .update token guid body => updateRouterGroup cfg token guid body
  | .delete token guid => deleteRouterGroup token guid

end Handlers

section Specifications
variable {cfg : PortSettings} {env : Env} {s : Schema RouterGroupColumn} {w w' : Store}

/-- What a request can answer and do to the table. -/
inductive Served (cfg : PortSettings) (env : Env) (w : Store) : Request → Answer → Store → Prop
  | refused (r a w') (hcode : 400 ≤ a.code) (htable : w'.table = w.table)
      (huuids : w.uuids ≤ w'.uuids) : Served cfg env w r a w'
  | listed (token w') (h : w.Same w') :
      Served cfg env w (.list token "") (.groups (w.stored.map .ofDB)) w'
  | found (token x w') (hname : x.name ≠ "") (hx : x ∈ w.stored) (h : w.Same w') :
      Served cfg env w (.list token x.name) (.groups [.ofDB x]) w'
  | existing (token body x w') (hx : x ∈ w.stored) (hname : x.name = body.name)
      (htype : x.type = body.type) (h : w.Same w') :
      Served cfg env w (.create token (.ok body)) (.group (.ofDB x)) w'
  | created (token body row w')
      (hnew : ∀ x ∈ w.stored, ¬(x.name = body.name ∧ x.type = body.type))
      (hguid : env.newV4 w.uuids = .ok row.guid)
      (hrow : row = ⟨row.guid, body.name, body.type, body.reservablePorts⟩)
      (hvalid : row.toRouterGroup.validate cfg = .ok ())
      (hstored : w'.stored = w.stored ++ [row]) (huuids : w'.uuids = w.uuids + 1) :
      Served cfg env w (.create token (.ok body)) (.created (.ofDB row)) w'
  | kept (token body x w') (hx : x ∈ w.stored) (hports : body.reservablePorts = x.reservablePorts)
      (h : w.Same w') : Served cfg env w (.update token x.guid (.ok body)) (.group (.ofDB x)) w'
  | updated (token body x row w') (hx : x ∈ w.stored)
      (hrow : row = { x with reservablePorts := body.reservablePorts })
      (hvalid : row.toRouterGroup.validate cfg = .ok ()) (h : w.Replaces w' row) :
      Served cfg env w (.update token x.guid (.ok body)) (.group (.ofDB row)) w'
  | deleted (token guid w') (h : w.Removes w' guid) :
      Served cfg env w (.delete token guid) .noContent w'

/-- The request is answered, and answered as `Served` says. -/
def Answers (cfg : PortSettings) (env : Env) (w : Store) (r : Request) (res : Except Err Answer)
    (w' : Store) : Prop :=
  ∃ a, res = .ok a ∧ Served cfg env w r a w'

-- The code of an answer evaluates whatever its texts are, so that `rfl` proves the hypothesis.
theorem answers_error {r : Request} {a : Answer} (hcode : Nat.ble 400 a.code = true)
    (htable : w'.table = w.table) (huuids : w.uuids ≤ w'.uuids) :
    Answers cfg env w r (.ok a) w' :=
  ⟨a, rfl, .refused r a w' (Nat.le_of_ble_eq_true hcode) htable huuids⟩

theorem answers_refused {r : Request} {a : Answer} (hcode : Nat.ble 400 a.code = true)
    (h : w.Same w') : Answers cfg env w r (.ok a) w' := answers_error hcode h.table h.uuids.ge

theorem wp_decoded {token : Except String Unit} {body : Except String RouterGroupJson}
    {handle : RouterGroupJson → GroupDB Answer} {r : Request}
    (h : ∀ rg, token = .ok () → body = .ok rg →
      wp (handler env s) (handle rg) w (Answers cfg env w r)) :
    wp (handler env s) (decoded token body handle) w (Answers cfg env w r) := by
  unfold decoded
  match token, body with
  | .error err, _ => exact answers_refused rfl (.refl w)
  | .ok (), .error err => exact answers_refused rfl (.refl w)
  | .ok (), .ok rg => exact h rg rfl rfl

theorem wp_listRouterGroups (token : Except String Unit) (name : String) (w : Store) :
    wp (handler env s) (listRouterGroups token name) w
      (Answers cfg env w (.list token name)) := by
  unfold listRouterGroups
  match token with
  | .error err => exact answers_refused rfl (.refl w)
  | .ok () =>
    apply wp_ite
    · intro hname
      apply wp_attempt_bind
      apply wp_mono (wp_readRouterGroupByName env s hname w)
      rintro r w' ⟨hsame, hlookup⟩
      apply wp_ite
      · intro _
        exact answers_refused rfl hsame
      · intro hfound
        cases hlookup with
        | failed e => exact absurd rfl hfound
        | missing _ => exact absurd rfl hfound
        | found x hx hp =>
          subst hp
          exact ⟨_, rfl, .found _ x w' hname hx hsame⟩
    · intro hname
      rw [not_not] at hname
      subst hname
      apply wp_attempt_bind
      apply wp_mono (wp_readRouterGroups env s w)
      rintro r w' ⟨hsame, hgroups⟩
      cases r with
      | error e => exact answers_refused rfl hsame
      | ok groups =>
        rw [hgroups groups rfl]
        refine ⟨_, rfl, ?_⟩
        rw [List.map_map]
        exact .listed _ w' hsame

theorem wp_deleteRouterGroup (token : Except String Unit) (guid : String) (w : Store) :
    wp (handler env s) (deleteRouterGroup token guid) w
      (Answers cfg env w (.delete token guid)) := by
  unfold deleteRouterGroup
  match token with
  | .error err => exact answers_refused rfl (.refl w)
  | .ok () =>
    apply wp_attempt_bind
    apply wp_mono (Groups.wp_deleteRouterGroup env s guid w)
    intro r w' hdeleted
    cases hdeleted with
    | failed e _ hsame =>
      apply wp_ite
      · intro _
        exact answers_refused rfl hsame
      · intro _
        exact answers_refused rfl hsame
    | removed _ _ h => exact ⟨_, rfl, .deleted _ guid w' h⟩

/-- Saving a group that was just read, with other ports, replaces only its ports. -/
theorem newRouterGroupDB_updateRouterGroup (x : RouterGroupDB) (ports : String) :
    newRouterGroupDB (Groups.updateRouterGroup x.toRouterGroup
      { x.toRouterGroup with reservablePorts := ports }) = { x with reservablePorts := ports } := by
  simp only [newRouterGroupDB, Groups.updateRouterGroup, RouterGroupDB.toRouterGroup]
  congr <;> exact ite_self _

theorem wp_updateRouterGroup (token : Except String Unit) (guid : String)
    (body : Except String RouterGroupJson) (w : Store) :
    wp (handler env s) (updateRouterGroup cfg token guid body) w
      (Answers cfg env w (.update token guid body)) := by
  apply wp_decoded
  rintro rg rfl rfl
  apply wp_attempt_bind
  apply wp_mono (wp_readRouterGroup env s guid w)
  rintro r w₁ ⟨hsame, hlookup⟩
  cases hlookup with
  | failed e => exact answers_refused rfl hsame
  | missing _ => exact answers_refused rfl hsame
  | found x hx hguid =>
    subst hguid
    apply wp_ite
    · intro _
      exact answers_refused rfl hsame
    · intro _
      apply wp_ite
      · intro _
        dsimp only
        cases hvalid : RouterGroup.validate cfg
            { x.toRouterGroup with reservablePorts := rg.reservablePorts } with
        | error err => exact answers_refused rfl hsame
        | ok u =>
          apply wp_attempt_bind
          apply wp_mono (wp_saveRouterGroup env s _ w₁)
          intro r w' hsaved
          cases hsaved with
          | failed e _ h => exact answers_refused rfl (hsame.trans h)
          | updated y _ hy hyguid _ h =>
            rw [hsame.stored] at hy
            have hyx : y = x := Store.eq_of_guid hy hx hyguid
            subst hyx
            rw [newRouterGroupDB_updateRouterGroup] at h
            exact ⟨_, rfl, .updated _ rg y _ w' hx rfl hvalid (h.of_same hsame)⟩
          | created row _ hnew _ _ _ =>
            rw [hsame.stored] at hnew
            exact absurd rfl (hnew x hx)
      · intro hports
        exact ⟨_, rfl, .kept _ rg x w₁ hx (not_not.mp hports).symm hsame⟩

theorem routerGroupExist_some {rg : RouterGroupJson} {existing : RouterGroup}
    (h : routerGroupExist (w.stored.map RouterGroupDB.toRouterGroup) rg.toRouterGroup =
      some existing) :
    ∃ x ∈ w.stored, x.name = rg.name ∧ x.type = rg.type ∧ existing = x.toRouterGroup := by
  obtain ⟨x, hx, rfl⟩ := List.mem_map.mp (List.mem_of_find?_eq_some h)
  have hmatch := List.find?_some h
  simp only [decide_eq_true_eq] at hmatch
  exact ⟨x, hx, hmatch.1, hmatch.2, rfl⟩

theorem routerGroupExist_none {rg : RouterGroupJson}
    (h : routerGroupExist (w.stored.map RouterGroupDB.toRouterGroup) rg.toRouterGroup = none) :
    ∀ x ∈ w.stored, ¬(x.name = rg.name ∧ x.type = rg.type) := by
  intro x hx hmatch
  have hnone := List.find?_eq_none.mp h _ (List.mem_map_of_mem hx)
  exact hnone (decide_eq_true hmatch)

/-- A save under a guid just drawn fails, or adds the group. -/
theorem saved_new {rg : RouterGroupJson} {guid : String} {r : Except Err Unit} {w₁ : Store}
    (hsame : w.Same w₁) (hid : env.newV4 w.uuids = .ok guid)
    (hfresh : ∀ x ∈ w.stored, env.newV4 w.uuids ≠ .ok x.guid)
    (h : Saved { rg.toRouterGroup with guid := guid } w₁.drawn r w') :
    (∃ e, r = .error e ∧ w'.table = w.table ∧ w.uuids ≤ w'.uuids) ∨
      (r = .ok () ∧ w'.uuids = w.uuids + 1 ∧
        w'.stored = w.stored ++ [⟨guid, rg.name, rg.type, rg.reservablePorts⟩]) := by
  have hdrawn : w₁.drawn.stored = w.stored := hsame.stored
  have huuids : w₁.drawn.uuids = w.uuids + 1 := congrArg (· + 1) hsame.uuids
  cases h with
  | failed e _ h =>
    have hle := h.uuids
    exact .inl ⟨e, rfl, h.table.trans hsame.table, by omega⟩
  | updated y _ hy hyguid _ _ =>
    rw [hdrawn] at hy
    exact absurd (hid.trans (congrArg Except.ok hyguid.symm)) (hfresh y hy)
  | created row _ _ _ hrow h =>
    have hrow : row = ⟨guid, rg.name, rg.type, rg.reservablePorts⟩ := by
      rcases hrow with hrow | ⟨hempty, hrow⟩
      · exact hrow
      · rw [hrow, ← hempty]
        rfl
    exact .inr ⟨rfl, h.uuids.trans huuids, by rw [h.stored, hdrawn, hrow]⟩

theorem wp_createRouterGroup (token : Except String Unit) (body : Except String RouterGroupJson)
    (hfresh : ∀ x ∈ w.stored, env.newV4 w.uuids ≠ .ok x.guid) :
    wp (handler env s) (createRouterGroup cfg token body) w
      (Answers cfg env w (.create token body)) := by
  apply wp_decoded
  rintro rg rfl rfl
  apply wp_attempt_bind
  apply wp_mono (wp_readRouterGroups env s w)
  rintro r w₁ ⟨hsame, hgroups⟩
  cases r with
  | error e => exact answers_refused rfl hsame
  | ok groups =>
    cases hgroups groups rfl
    dsimp only
    cases hexist : routerGroupExist (w.stored.map RouterGroupDB.toRouterGroup) rg.toRouterGroup with
    | some existing =>
      obtain ⟨x, hx, hname, htype, rfl⟩ := routerGroupExist_some hexist
      exact ⟨_, rfl, .existing _ rg x w₁ hx hname htype hsame⟩
    | none =>
      dsimp only
      rw [perform_bind, wp_call]
      simp only [handler, hsame.uuids]
      have huuids : w.uuids ≤ w₁.drawn.uuids := hsame.uuids ▸ Nat.le_succ _
      cases hid : env.newV4 w.uuids with
      | error e => exact answers_error rfl hsame.table huuids
      | ok guid =>
        dsimp only [Except.mapError]
        cases hvalid : RouterGroup.validateAll cfg (w.stored.map RouterGroupDB.toRouterGroup ++
            [{ rg.toRouterGroup with guid := guid }]) with
        | error err => exact answers_error rfl hsame.table huuids
        | ok u =>
          have hlast := RouterGroup.validateAll_ok.mp hvalid
            { rg.toRouterGroup with guid := guid } (by simp)
          apply wp_attempt_bind
          apply wp_mono (wp_saveRouterGroup env s _ w₁.drawn)
          intro r w' hsaved
          rcases saved_new hsame hid hfresh hsaved with ⟨e, rfl, htable, hle⟩ | ⟨rfl, hone, hstored⟩
          · exact answers_error rfl htable hle
          · exact ⟨_, rfl, .created _ rg ⟨guid, rg.name, rg.type, rg.reservablePorts⟩ w'
              (routerGroupExist_none hexist) hid rfl hlast hstored hone⟩

/-- Every request is answered, in one of the ways of `Served`. -/
theorem wp_handle (r : Request) (hfresh : ∀ x ∈ w.stored, env.newV4 w.uuids ≠ .ok x.guid) :
    wp (handler env s) (r.handle cfg) w (Answers cfg env w r) := by
  cases r with
  | list token name => exact wp_listRouterGroups token name w
  | create token body => exact wp_createRouterGroup token body hfresh
  | update token guid body => exact wp_updateRouterGroup token guid body w
  | delete token guid => exact wp_deleteRouterGroup token guid w

/-- An update that succeeds found the group and left it or replaced its ports. -/
theorem Served.update_ok {token : Except String Unit} {guid : String} {body : RouterGroupJson}
    {a : Answer} (h : Served cfg env w (.update token guid (.ok body)) a w')
    (hcode : a.code ≤ 299) :
    ∃ x ∈ w.stored, x.guid = guid ∧ (body.reservablePorts = x.reservablePorts ∧ w.Same w' ∨
      w.Replaces w' { x with reservablePorts := body.reservablePorts }) := by
  cases h with
  | refused _ _ _ hcode' _ _ => omega
  | kept _ _ x _ hx hports h => exact ⟨x, hx, rfl, .inl ⟨hports, h⟩⟩
  | updated _ _ x _ _ hx hrow _ h =>
    subst hrow
    exact ⟨x, hx, rfl, .inr h⟩

/-- A create that succeeds found a group of the name and type, or appended one. -/
theorem Served.create_ok {token : Except String Unit} {body : RouterGroupJson} {a : Answer}
    (h : Served cfg env w (.create token (.ok body)) a w') (hcode : a.code ≤ 299) :
    (∃ x ∈ w.stored, x.name = body.name ∧ x.type = body.type ∧ w.Same w') ∨
      ((∀ x ∈ w.stored, ¬(x.name = body.name ∧ x.type = body.type)) ∧
        ∃ guid, env.newV4 w.uuids = .ok guid ∧
          w'.stored = w.stored ++ [⟨guid, body.name, body.type, body.reservablePorts⟩]) := by
  cases h with
  | refused _ _ _ hcode' _ _ => omega
  | existing _ _ x _ hx hname htype h => exact .inl ⟨x, hx, hname, htype, h⟩
  | created _ _ row _ hnew hguid hrow _ hstored _ =>
    exact .inr ⟨hnew, row.guid, hguid, by rw [hstored, ← hrow]⟩

/-- A group that exists is found when the request is let in and the read succeeds. -/
theorem run_createRouterGroup_existing (cfg : PortSettings) (s : Schema RouterGroupColumn)
    {body : RouterGroupJson} {x : RouterGroupDB}
    (hlock : w.readLocked = false) (hfault : env.fault w.calls = none) (hx : x ∈ w.stored)
    (hname : x.name = body.name) (htype : x.type = body.type) :
    ∃ y ∈ w.stored, y.name = body.name ∧ y.type = body.type ∧
      ((createRouterGroup cfg (.ok ()) (.ok body)).run (handler env s) w).1 =
        .ok (.group (.ofDB y)) := by
  have hread : (tried readRouterGroups).run (handler env s) w =
      (.ok (.ok (w.stored.map RouterGroupDB.toRouterGroup)), w.called) := by
    rw [tried, run_attempt, run_readRouterGroups_unlocked env s hlock hfault]
  cases hexist : routerGroupExist (w.stored.map RouterGroupDB.toRouterGroup)
      body.toRouterGroup with
  | none => exact absurd ⟨hname, htype⟩ (routerGroupExist_none hexist x hx)
  | some existing =>
    obtain ⟨y, hy, hn, ht, rfl⟩ := routerGroupExist_some hexist
    refine ⟨y, hy, hn, ht, ?_⟩
    rw [createRouterGroup, decoded, run_bind_ok hread]
    dsimp only
    rw [hexist]
    rfl

end Specifications

section Runs
variable {cfg : PortSettings} {env : Env} {s : Schema RouterGroupColumn} {w w' w'' : Store}

/-- What happens to the server: a request, or one of the four lock calls. -/
inductive Act where
  | request (r : Request)
  | lock (a : LockAct)

def answer (cfg : PortSettings) (env : Env) (s : Schema RouterGroupColumn) (w : Store)
    (r : Request) : Except Err Answer :=
  ((r.handle cfg).run (handler env s) w).1

def serve (cfg : PortSettings) (env : Env) (s : Schema RouterGroupColumn) (w : Store) :
    Act → Store
  | .request r => ((r.handle cfg).run (handler env s) w).2
  | .lock a => a.apply w

/-- Every stored group is valid, and no two share name and type. -/
structure Sound (cfg : PortSettings) (w : Store) : Prop where
  valid : ∀ x ∈ w.stored, x.toRouterGroup.validate cfg = .ok ()
  unique : ∀ x ∈ w.stored, ∀ y ∈ w.stored, x.name = y.name → x.type = y.type → x = y

theorem Sound.of_stored (hw : Sound cfg w) (h : ∀ x ∈ w'.stored, x ∈ w.stored) : Sound cfg w' :=
  ⟨fun x hx => hw.valid x (h x hx), fun x hx y hy => hw.unique x (h x hx) y (h y hy)⟩

/-- One valid group beside groups that differ from it in name or type. -/
theorem Sound.put {row : RouterGroupDB} (hw : Sound cfg w)
    (hvalid : row.toRouterGroup.validate cfg = .ok ())
    (hmem : ∀ x ∈ w'.stored,
      x = row ∨ x ∈ w.stored ∧ ¬(x.name = row.name ∧ x.type = row.type)) : Sound cfg w' := by
  constructor
  · intro x hx
    rcases hmem x hx with rfl | ⟨hx, -⟩
    · exact hvalid
    · exact hw.valid x hx
  · intro x hx y hy hn ht
    rcases hmem x hx with rfl | ⟨hx, hxne⟩ <;> rcases hmem y hy with rfl | ⟨hy, hyne⟩
    · rfl
    · exact absurd ⟨hn.symm, ht.symm⟩ hyne
    · exact absurd ⟨hn, ht⟩ hxne
    · exact hw.unique x hx y hy hn ht

theorem Served.sound {r : Request} {a : Answer} (hw : Sound cfg w)
    (h : Served cfg env w r a w') : Sound cfg w' := by
  cases h with
  | refused _ _ _ _ htable _ => exact hw.of_stored fun x hx => Store.stored_congr htable ▸ hx
  | listed _ _ h => exact hw.of_stored fun x hx => h.stored ▸ hx
  | found _ _ _ _ _ h => exact hw.of_stored fun x hx => h.stored ▸ hx
  | existing _ _ _ _ _ _ _ h => exact hw.of_stored fun x hx => h.stored ▸ hx
  | kept _ _ _ _ _ _ h => exact hw.of_stored fun x hx => h.stored ▸ hx
  | deleted _ guid _ h => exact hw.of_stored fun x hx => ((h.mem x).mp hx).1
  | created _ body row _ hnew _ hrow hvalid hstored _ =>
    have hname : row.name = body.name := by rw [hrow]
    have htype : row.type = body.type := by rw [hrow]
    apply hw.put hvalid
    intro x hx
    rw [hstored, List.mem_append, List.mem_singleton] at hx
    rcases hx with hx | hx
    · rw [hname, htype]
      exact .inr ⟨hx, hnew x hx⟩
    · exact .inl hx
  | updated _ body x₀ row _ hx₀ hrow hvalid h =>
    have hname : row.name = x₀.name := by rw [hrow]
    have htype : row.type = x₀.type := by rw [hrow]
    have hguid : row.guid = x₀.guid := by rw [hrow]
    apply hw.put hvalid
    intro x hx
    rcases (h.mem x).mp hx with ⟨hx, hxg⟩ | rfl
    · -- a group that shares name and type with the new row would be the one it replaced
      refine .inr ⟨hx, ?_⟩
      rintro ⟨hn, ht⟩
      rw [hw.unique x hx x₀ hx₀ (hn.trans hname) (ht.trans htype)] at hxg
      exact hxg hguid.symm
    · exact .inl rfl

theorem Served.follows {r : Request} {a : Answer} (h : Served cfg env w r a w') :
    Follows env w w' := by
  cases h with
  | refused _ _ _ _ htable huuids => exact .of_stored huuids fun x hx => Store.stored_congr htable ▸ hx
  | listed _ _ h => exact .of_stored h.uuids.ge fun x hx => h.stored ▸ hx
  | found _ _ _ _ _ h => exact .of_stored h.uuids.ge fun x hx => h.stored ▸ hx
  | existing _ _ _ _ _ _ _ h => exact .of_stored h.uuids.ge fun x hx => h.stored ▸ hx
  | kept _ _ _ _ _ _ h => exact .of_stored h.uuids.ge fun x hx => h.stored ▸ hx
  | deleted _ guid _ h => exact .of_stored h.uuids.ge fun x hx => ((h.mem x).mp hx).1
  | created _ body row _ _ hguid _ _ hstored huuids =>
    refine ⟨by omega, ?_⟩
    intro y hy
    rw [hstored, List.mem_append, List.mem_singleton] at hy
    rcases hy with hy | rfl
    · exact .inl ⟨y, hy, rfl, rfl, rfl⟩
    · exact .inr ⟨w.uuids, le_rfl, by omega, hguid⟩
  | updated _ body x row _ hx hrow _ h =>
    refine ⟨h.uuids.ge, ?_⟩
    intro y hy
    rcases (h.mem y).mp hy with ⟨hy, -⟩ | rfl
    · exact .inl ⟨y, hy, rfl, rfl, rfl⟩
    · exact .inl ⟨x, hx, by rw [hrow], by rw [hrow], by rw [hrow]⟩

/-- What holds of the table all along: it is sound, and it came about from `w₀` by requests. -/
structure StoreInv (cfg : PortSettings) (env : Env) (w₀ w : Store) : Prop where
  sound : Sound cfg w
  unused : Unused env w
  follows : Follows env w₀ w

theorem served (cfg : PortSettings) (s : Schema RouterGroupColumn) (r : Request) (hw : Unused env w) :
    ∃ a, answer cfg env s w r = .ok a ∧ Served cfg env w r a (serve cfg env s w (.request r)) :=
  wp_handle r fun x hx => hw x hx w.uuids le_rfl

theorem StoreInv.serve {w₀ : Store} (hids : env.Uuids) (hw : StoreInv cfg env w₀ w) (act : Act) :
    StoreInv cfg env w₀ (serve cfg env s w act) := by
  cases act with
  | request r =>
    obtain ⟨a, -, h⟩ := served cfg s r hw.unused
    exact ⟨h.sound hw.sound, hw.unused.follows hids h.follows, hw.follows.trans h.follows⟩
  | lock a =>
    have hlock : Follows env w (a.apply w) := lock_follows a w
    refine ⟨hw.sound.of_stored ?_, hw.unused.follows hids hlock, hw.follows.trans hlock⟩
    cases a <;> exact fun _ hx => hx

theorem StoreInv.play {w₀ : Store} (hids : env.Uuids) (hw : StoreInv cfg env w₀ w)
    (acts : List Act) : StoreInv cfg env w₀ (play (RouterGroupsHandler.serve cfg env s) w acts) :=
  play_invariant (I := StoreInv cfg env w₀) (fun _ act h => h.serve hids act) hw

/-- An error status leaves the table as it was. -/
theorem Served.error {r : Request} {a : Answer} (h : Served cfg env w r a w')
    (hcode : 400 ≤ a.code) : w'.table = w.table := by
  cases h with
  | refused _ _ _ _ htable _ => exact htable
  | _ => simp [Answer.code] at hcode

/-- A create of a name and type that are there changes nothing. -/
theorem Served.create_existing {token : Except String Unit} {body : RouterGroupJson} {a : Answer}
    {x : RouterGroupDB} (h : Served cfg env w (.create token (.ok body)) a w')
    (hx : x ∈ w.stored) (hname : x.name = body.name) (htype : x.type = body.type) :
    w'.table = w.table ∧ (400 ≤ a.code ∨ ∃ y ∈ w.stored, y.name = body.name ∧
      y.type = body.type ∧ a = .group (.ofDB y)) := by
  cases h with
  | refused _ _ _ hcode htable _ => exact ⟨htable, .inl hcode⟩
  | existing _ _ y _ hy hn ht h => exact ⟨h.table, .inr ⟨y, hy, hn, ht, rfl⟩⟩
  | created _ _ _ _ hnew _ _ _ _ _ => exact absurd ⟨hname, htype⟩ (hnew x hx)

/-- Over every sequence of requests: the table stays sound, a guid keeps its name and type
between any two moments, and the next request changes nothing if it is answered with an error
or asks to create what exists, which is then returned. -/
theorem router_group_store (cfg : PortSettings) (env : Env) (s : Schema RouterGroupColumn)
    (hids : env.Uuids) (w₀ : Store) (hsound : Sound cfg w₀) (hunused : Unused env w₀)
    (acts later : List Act) (r : Request) :
    let w := play (serve cfg env s) w₀ acts
    let after := serve cfg env s w (.request r)
    Sound cfg w ∧
      (∀ x ∈ w.stored, ∀ y ∈ (play (serve cfg env s) w later).stored, x.guid = y.guid →
        y.name = x.name ∧ y.type = x.type) ∧
      ∃ a, answer cfg env s w r = .ok a ∧ (400 ≤ a.code → after.table = w.table) ∧
        ∀ token body, r = .create token (.ok body) →
          ∀ x ∈ w.stored, x.name = body.name → x.type = body.type →
            after.table = w.table ∧ (400 ≤ a.code ∨ a = .group (.ofDB x)) ∧
              (token = .ok () → w.readLocked = false → env.fault w.calls = none →
                a = .group (.ofDB x)) := by
  intro w after
  have hinv : StoreInv cfg env w₀ w :=
    StoreInv.play hids ⟨hsound, hunused, .refl w₀⟩ acts
  have hlater : StoreInv cfg env w (play (serve cfg env s) w later) :=
    StoreInv.play hids ⟨hinv.sound, hinv.unused, .refl w⟩ later
  obtain ⟨a, ha, hserved⟩ := served cfg s r hinv.unused
  refine ⟨hinv.sound, fun x hx y hy => hlater.follows.same hinv.unused hx hy, a, ha,
    hserved.error, ?_⟩
  rintro token body rfl x hx hname htype
  have honly : ∀ y ∈ w.stored, y.name = body.name → y.type = body.type → y = x := by
    intro y hy hn ht
    exact hinv.sound.unique y hy x hx (hn.trans hname.symm) (ht.trans htype.symm)
  obtain ⟨htable, hans⟩ := hserved.create_existing hx hname htype
  refine ⟨htable, ?_, ?_⟩
  · rcases hans with hcode | ⟨y, hy, hn, ht, rfl⟩
    · exact .inl hcode
    · exact .inr (by rw [honly y hy hn ht])
  · rintro rfl hlock hfault
    obtain ⟨y, hy, hn, ht, hrun⟩ := run_createRouterGroup_existing cfg s hlock hfault
      hx hname htype
    rw [answer, Request.handle, hrun, honly y hy hn ht] at ha
    exact (Except.ok.inj ha).symm

def groupA : RouterGroupDB := ⟨"guid-a", "a", "tcp", "1024-1123"⟩

/-- A migrated table that holds one group. -/
def oneGroup : Store := (Store.empty.create (routerGroupSchema .mysql) groupA).2

theorem oneGroup_stored : oneGroup.stored = [groupA] := by decide +kernel

theorem oneGroup_unused : Unused .quiet oneGroup := by
  intro x hx i _ hid
  rw [oneGroup_stored, List.mem_singleton] at hx
  subst hx
  have hchars := congrArg String.toList (Except.ok.inj hid)
  rw [String.toList_ofList, List.replicate_succ] at hchars
  exact absurd (List.cons.inj hchars).1 (by decide)

/-- A second group is created and the first gets other ports; creating the first again then
returns it as it is. -/
theorem group_created_again :
    let w := play (serve ⟨[], false⟩ .quiet (routerGroupSchema .mysql)) oneGroup
      [.request (.create (.ok ()) (.ok ⟨"", "b", "http", ""⟩)),
        .request (.update (.ok ()) "guid-a" (.ok ⟨"", "", "", "3000"⟩))]
    Sound ⟨[], false⟩ w ∧ w.stored.map (·.name) = ["a", "b"] ∧
      answer ⟨[], false⟩ .quiet (routerGroupSchema .mysql) w
        (.create (.ok ()) (.ok ⟨"", "a", "tcp", "2000-2100"⟩)) =
          .ok (.group ⟨"guid-a", "a", "tcp", "3000"⟩) := by
  intro w
  have hvalid : groupA.toRouterGroup.validate ⟨[], false⟩ = .ok () := by decide +kernel
  have hsound : Sound ⟨[], false⟩ oneGroup := by
    constructor
    · simpa [oneGroup_stored] using hvalid
    · simp [oneGroup_stored]
  obtain ⟨hw, -, a, ha, -, hcreate⟩ := router_group_store ⟨[], false⟩ .quiet
    (routerGroupSchema .mysql) Env.quiet_uuids oneGroup hsound oneGroup_unused
    [.request (.create (.ok ()) (.ok ⟨"", "b", "http", ""⟩)),
      .request (.update (.ok ()) "guid-a" (.ok ⟨"", "", "", "3000"⟩))] []
    (.create (.ok ()) (.ok ⟨"", "a", "tcp", "2000-2100"⟩))
  have hstored : w.stored = [⟨"guid-a", "a", "tcp", "3000"⟩, ⟨"u", "b", "http", ""⟩] := by
    decide +kernel
  obtain ⟨-, -, hfound⟩ := hcreate (.ok ()) _ rfl ⟨"guid-a", "a", "tcp", "3000"⟩
    (by rw [hstored]; exact List.mem_cons_self) rfl rfl
  refine ⟨hw, by rw [hstored]; rfl, ?_⟩
  rw [ha, hfound rfl (by decide +kernel) rfl]
  rfl

end Runs
end RouterGroupsHandler
end RoutingApi.Handlers
