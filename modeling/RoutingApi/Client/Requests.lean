import RoutingApi.Handlers.RouterGroups

/-! The client's side of the router group requests: what it sends, how the server and the
network answer, and what a list of the groups can give it. -/
namespace RoutingApi.Client
open Relational Models Process Program Handlers RouterGroupsHandler Migrations
open Groups (Store Unused)
open Database (Env)

section Requests

/-- The types of `routing_api.Error`. -/
inductive ErrorType where
  | responseError | resourceNotFoundError | processRequestError | routeInvalidError
  | routeServiceUrlInvalidError | dbCommunicationError | guidGenerationError | unauthorizedError
  | tcpRouteMappingInvalidError | dbConflictError | portRangeExhaustedError
  deriving DecidableEq, Repr

def ErrorType.ofServer : Handlers.ErrorType → ErrorType
  | .processRequestError => .processRequestError
  | .routeInvalidError => .routeInvalidError
  | .routeServiceUrlInvalidError => .routeServiceUrlInvalidError
  | .dbCommunicationError => .dbCommunicationError
  | .unauthorizedError => .unauthorizedError
  | .tcpRouteMappingInvalidError => .tcpRouteMappingInvalidError

inductive Err where
  | api (type : ErrorType) (message : String)
  | plain (message : String)
  deriving DecidableEq, Repr

/-- The ways a call ends without a result; `diverged` when a loop has not ended in the rounds
it was given. -/
inductive Exit where
  | returned (err : Err)
  | panicked (message : String)
  | diverged
  deriving DecidableEq, Repr

def Exit.isReturned : Exit → Bool
  | .returned _ => true
  | _ => false

inductive Ask where
  | list (name : String)
  | create (body : RouterGroupJson)
  | update (guid : String) (body : RouterGroupJson)
  deriving DecidableEq, Repr

def Ask.request (token : Except String Unit) : Ask → Request
  | .list name => .list token name
  | .create body => .create token (.ok body)
  | .update guid body => .update token guid (.ok body)

def transformResponseError : Answer → Err
  | .failed ⟨_, some ⟨type, message⟩⟩ => .api (.ofServer type) message
  | .notFound (some message) => .api .resourceNotFoundError message
  | .guidGenerationError message => .api .guidGenerationError message
  | _ => .api .responseError ""

/-- What `do` makes of a response. -/
def received (res : Answer) : Except Err Answer :=
  if res.code = 401 then .error (.api .unauthorizedError "unauthorized")
  else if res.code > 299 then .error (transformResponseError res)
  else .ok res

/-- A request reaches the server with a token that is judged there, or is answered with an
error on the way, or reaches the server and its answer is lost. -/
inductive Delivery where
  | served (token : Except String Unit)
  | refused (err : Err)
  | lost (token : Except String Unit) (err : Err)

structure Server where
  store : Store
  requests : ℕ

/-- A handler that panics drops the connection. -/
def respond (cfg : PortSettings) (env : Env) (s : Schema RouterGroupColumn)
    (token : Except String Unit) (ask : Ask) (w : Server) : Except Err Answer × Server :=
  (match answer cfg env s w.store (ask.request token) with
    | .ok res => received res
    | .error _ => .error (.plain "EOF"),
    ⟨serve cfg env s w.store (.request (ask.request token)), w.requests + 1⟩)

def server (cfg : PortSettings) (env : Env) (s : Schema RouterGroupColumn) (net : ℕ → Delivery) :
    Handler Ask (fun _ => Except Err Answer) Server :=
  fun ask w => match net w.requests with
    | .served token => respond cfg env s token ask w
    | .refused err => (.error err, { w with requests := w.requests + 1 })
    | .lost token err => (.error err, (respond cfg env s token ask w).2)

abbrev ClientM (α : Type) := Program Ask (fun _ => Except Err Answer) Exit α

def doRequest (ask : Ask) : ClientM Answer := do
  ofExcept ((← perform ask).mapError .returned)

def decodeError : Exit :=
  .returned (.plain "json: cannot unmarshal object into Go value of type []models.RouterGroup")

/-- The list that a response decodes to. -/
def listRouterGroups (name : String) : ClientM (List RouterGroup) := do
  match ← doRequest (.list name) with
  | .groups groups => pure (groups.map RouterGroupJson.toRouterGroup)
  | _ => .fail decodeError

def routerGroups : ClientM (List RouterGroup) := listRouterGroups ""

def routerGroupWithName (name : String) : ClientM RouterGroup := do
  match ← listRouterGroups name with
  | [] => .fail (.panicked "runtime error: index out of range [0] with length 0")
  | routerGroup :: _ => pure routerGroup

def updateRouterGroup (group : RouterGroup) : ClientM Unit := do
  let _ ← doRequest (.update group.guid (.ofRouterGroup group))

def createRouterGroup (group : RouterGroup) : ClientM Unit := do
  let _ ← doRequest (.create (.ofRouterGroup group))

end Requests

section Specifications
variable {cfg : PortSettings} {env : Env} {s : Schema RouterGroupColumn} {net : ℕ → Delivery}
variable {w w' : Server}

/-- The ways a request can end for the client. One that failed may have been served. -/
inductive Asked (cfg : PortSettings) (env : Env) (w : Server) (ask : Ask) :
    Except Exit Answer → Server → Prop
  | answered (token a w') (hcode : a.code ≤ 299)
      (h : Served cfg env w.store (ask.request token) a w'.store) : Asked cfg env w ask (.ok a) w'
  | failed (e w') (h : w'.store = w.store ∨
      ∃ token a, Served cfg env w.store (ask.request token) a w'.store) :
      Asked cfg env w ask (.error (.returned e)) w'

theorem received_code {res a : Answer} (h : received res = .ok a) : a = res ∧ a.code ≤ 299 := by
  unfold received at h
  split at h
  · cases h
  · split at h
    · cases h
    next hcode =>
      cases h
      exact ⟨rfl, by omega⟩

/-- The server answers the request, whatever it makes of the token. -/
def Answerable (cfg : PortSettings) (env : Env) (s : Schema RouterGroupColumn) (w : Server)
    (ask : Ask) : Prop :=
  ∀ token, ∃ a, answer cfg env s w.store (ask.request token) = .ok a ∧
    Served cfg env w.store (ask.request token) a
      (serve cfg env s w.store (.request (ask.request token)))

theorem answerable (cfg : PortSettings) (s : Schema RouterGroupColumn) (ask : Ask)
    (hw : Unused env w.store) : Answerable cfg env s w ask :=
  fun token => RouterGroupsHandler.served cfg s (ask.request token) hw

/-- A list draws no uuid. -/
theorem answerable_list (cfg : PortSettings) (env : Env) (s : Schema RouterGroupColumn)
    (w : Server) (name : String) : Answerable cfg env s w (.list name) :=
  fun token => RouterGroupsHandler.wp_listRouterGroups token name w.store

theorem server_asked (net : ℕ → Delivery) {ask : Ask} (hask : Answerable cfg env s w ask) :
    Asked cfg env w ask ((server cfg env s net ask w).1.mapError .returned)
      (server cfg env s net ask w).2 := by
  unfold server
  cases net w.requests with
  | refused err => exact .failed err _ (.inl rfl)
  | lost token err =>
    obtain ⟨a, -, h⟩ := hask token
    exact .failed err _ (.inr ⟨token, a, h⟩)
  | served token =>
    obtain ⟨a, ha, h⟩ := hask token
    simp only [respond, ha]
    cases hres : received a with
    | error err => exact .failed err _ (.inr ⟨token, a, h⟩)
    | ok res =>
      obtain ⟨rfl, hcode⟩ := received_code hres
      exact .answered token res _ hcode h

theorem wp_doRequest {ask : Ask} (hask : Answerable cfg env s w ask) :
    wp (server cfg env s net) (doRequest ask) w (Asked cfg env w ask) := by
  have hasked := server_asked net hask
  simp only [doRequest, perform_bind, wp_call]
  cases hresp : (server cfg env s net ask w).1.mapError Exit.returned <;>
    · rw [hresp] at hasked
      exact hasked

/-- The table is the same, and no uuid has come back. -/
structure Kept (w w' : Server) : Prop where
  table : w'.store.table = w.store.table
  uuids : w.store.uuids ≤ w'.store.uuids

theorem Kept.stored (h : Kept w w') : w'.store.stored = w.store.stored := Store.stored_congr h.table

theorem Kept.unused (h : Kept w w') (hw : Unused env w.store) : Unused env w'.store := by
  intro x hx i hi
  rw [h.stored] at hx
  exact hw x hx i (h.uuids.trans hi)

theorem kept_of_list {token : Except String Unit} {name : String} {a : Answer}
    (h : Served cfg env w.store (.list token name) a w'.store) : Kept w w' := by
  cases h with
  | refused _ _ _ _ htable huuids => exact ⟨htable, huuids⟩
  | listed _ _ h => exact ⟨h.table, h.uuids.ge⟩
  | found _ _ _ _ _ h => exact ⟨h.table, h.uuids.ge⟩

/-- A stored group, as it arrives in a list. -/
def sent (x : RouterGroupDB) : RouterGroup := (RouterGroupJson.ofDB x).toRouterGroup

/-- What a list of the groups, all or those with a name, can give the client. -/
inductive Listed (w : Store) : String → Except Exit (List RouterGroup) → Prop
  | failed (name : String) (e : Err) : Listed w name (.error (.returned e))
  | all : Listed w "" (.ok (w.stored.map sent))
  | one (x : RouterGroupDB) (hx : x ∈ w.stored) (hname : x.name ≠ "") :
      Listed w x.name (.ok [sent x])

theorem wp_listRouterGroups (name : String) (w : Server) :
    wp (server cfg env s net) (listRouterGroups name) w fun r w' =>
      Kept w w' ∧ Listed w.store name r := by
  apply wp_bind
  apply wp_mono (wp_doRequest (answerable_list cfg env s w name))
  intro r w' hasked
  cases hasked with
  | failed e _ h =>
    refine ⟨?_, .failed name e⟩
    rcases h with h | ⟨token, a, h⟩
    · exact ⟨by rw [h], by rw [h]⟩
    · exact kept_of_list h
  | answered token a _ hcode h =>
    have hkept := kept_of_list h
    simp only [Ask.request] at h
    cases h with
    | refused _ _ _ hcode' _ _ => omega
    | listed _ _ _ =>
      refine ⟨hkept, ?_⟩
      simp only [pure_def, run_ret, List.map_map]
      exact .all
    | found _ x _ hname hx _ => exact ⟨hkept, .one x hx hname⟩

theorem wp_routerGroups (w : Server) :
    wp (server cfg env s net) routerGroups w fun r w' => Kept w w' ∧
      ((∃ e, r = .error (.returned e)) ∨ r = .ok (w.store.stored.map sent)) := by
  apply wp_mono (wp_listRouterGroups "" w)
  rintro r w' ⟨hkept, hlisted⟩
  refine ⟨hkept, ?_⟩
  generalize hempty : "" = name at hlisted
  cases hlisted with
  | failed _ e => exact .inl ⟨e, rfl⟩
  | all => exact .inr rfl
  | one x _ hname => exact absurd hempty.symm hname

/-- A lookup by name fails, or finds a group of that name. -/
theorem wp_routerGroupWithName {name : String} (hname : name ≠ "") (w : Server) :
    wp (server cfg env s net) (routerGroupWithName name) w fun r w' => Kept w w' ∧
      ((∃ e, r = .error (.returned e)) ∨
        ∃ x ∈ w.store.stored, x.name = name ∧ r = .ok (sent x)) := by
  apply wp_bind
  apply wp_mono (wp_listRouterGroups name w)
  rintro r w' ⟨hkept, hlisted⟩
  cases hlisted with
  | failed _ e => exact ⟨hkept, .inl ⟨e, rfl⟩⟩
  | all => exact absurd rfl hname
  | one x hx _ => exact ⟨hkept, .inr ⟨x, hx, rfl, rfl⟩⟩

end Specifications

section Lookup
variable {cfg : PortSettings} {env : Env} {s : Schema RouterGroupColumn} {net : ℕ → Delivery}

/-- A lookup has given a group of the name, or an error. -/
def Agrees (name : String) : Except Exit RouterGroup → Prop
  | .ok rg => rg.name = name
  | .error e => e.isReturned = true

/-- What the client takes from a list. -/
theorem run_routerGroupWithName (name : String) (w : Server) :
    ((routerGroupWithName name).run (server cfg env s net) w).1 =
      match ((listRouterGroups name).run (server cfg env s net) w).1 with
      | .error e => .error e
      | .ok [] => .error (.panicked "runtime error: index out of range [0] with length 0")
      | .ok (rg :: _) => .ok rg := by
  rw [routerGroupWithName, run_bind]
  match (listRouterGroups name).run (server cfg env s net) w with
  | (.error e, w') => rfl
  | (.ok [], w') => rfl
  | (.ok (rg :: rest), w') => rfl

theorem routerGroupWithName_agrees {name : String} (hname : name ≠ "") (w : Server) :
    Agrees name ((routerGroupWithName name).run (server cfg env s net) w).1 := by
  have hlookup : wp (server cfg env s net) (routerGroupWithName name) w _ :=
    wp_routerGroupWithName hname w
  obtain ⟨-, ⟨e, h⟩ | ⟨x, -, hx, h⟩⟩ := hlookup
  · rw [h]
    rfl
  · rw [h]
    exact hx

/-- A list does not come back: it is lost on the way, its token is not accepted, reads are locked
or the query fails. -/
def Unlisted (env : Env) (net : ℕ → Delivery) (w : Server) : Prop :=
  net w.requests ≠ .served (.ok ()) ∨ w.store.readLocked = true ∨
    env.fault w.store.calls ≠ none

theorem run_doRequest (ask : Ask) (w : Server) : (doRequest ask).run (server cfg env s net) w =
    ((server cfg env s net ask w).1.mapError .returned, (server cfg env s net ask w).2) := by
  rw [doRequest, perform_bind, run_call]
  cases (server cfg env s net ask w).1 <;> rfl

/-- The list of all groups, once its token is accepted. -/
theorem server_list {w : Server} (hnet : net w.requests = .served (.ok ())) :
    (server cfg env s net (.list "") w).1 =
      match (Groups.readRouterGroups.run (Groups.handler env s) w.store).1 with
      | .error e => .error (transformResponseError (.failed (handleDBCommunicationError e)))
      | .ok groups => .ok (.groups (groups.map .ofRouterGroup)) := by
  have htried : (Groups.tried Groups.readRouterGroups).run (Groups.handler env s) w.store = _ :=
    run_attempt_caught fun _ _ => rfl
  simp only [server, hnet, respond, answer, Ask.request, Request.handle,
    RouterGroupsHandler.listRouterGroups, ne_eq, not_true_eq_false, if_false, run_bind, htried]
  cases (Groups.readRouterGroups.run (Groups.handler env s) w.store).1 <;> rfl

theorem routerGroups_unlisted (cfg : PortSettings) (s : Schema RouterGroupColumn) {w : Server}
    (h : Unlisted env net w) :
    ∃ e, (routerGroups.run (server cfg env s net) w).1 = .error (.returned e) := by
  suffices hserver : ∃ e, (server cfg env s net (.list "") w).1 = .error e by
    obtain ⟨e, he⟩ := hserver
    refine ⟨e, ?_⟩
    rw [routerGroups, listRouterGroups, run_bind, run_doRequest, he]
    rfl
  match hnet : net w.requests with
  | .refused err => exact ⟨err, by simp [server, hnet]⟩
  | .lost token err => exact ⟨err, by simp [server, hnet]⟩
  | .served (.error err) => exact ⟨_, by simp only [server, hnet]; rfl⟩
  | .served (.ok ()) =>
    -- the token is accepted, so that the list fails on the lock or on the query
    have hstore := h.resolve_left (not_not.mpr hnet)
    obtain ⟨e, hread⟩ := Groups.run_readRouterGroups_refused env s hstore
    rw [server_list hnet, hread]
    exact ⟨_, rfl⟩

theorem routerGroups_listed (cfg : PortSettings) (s : Schema RouterGroupColumn) {w : Server}
    (h : ¬Unlisted env net w) :
    (routerGroups.run (server cfg env s net) w).1 = .ok (w.store.stored.map sent) := by
  simp only [Unlisted, not_or, not_not, Bool.not_eq_true] at h
  obtain ⟨hnet, hlock, hfault⟩ := h
  rw [routerGroups, listRouterGroups, run_bind, run_doRequest, server_list hnet,
    Groups.run_readRouterGroups_unlocked env s hlock hfault]
  simp only [Except.mapError, pure_def, run_ret, List.map_map]
  rfl

/-- The lookup of the empty name takes the first group of a list of all of them. -/
theorem routerGroupWithName_empty (w : Server) :
    Agrees "" ((routerGroupWithName "").run (server cfg env s net) w).1 ↔
      Unlisted env net w ∨ ∃ x rest, w.store.stored = x :: rest ∧ x.name = "" := by
  rw [run_routerGroupWithName, ← routerGroups]
  by_cases hlisted : Unlisted env net w
  · obtain ⟨e, he⟩ := routerGroups_unlisted cfg s hlisted
    rw [he]
    exact iff_of_true rfl (.inl hlisted)
  · rw [routerGroups_listed cfg s hlisted, or_iff_right hlisted]
    cases w.store.stored with
    | nil => simp [Agrees, Exit.isReturned]
    | cons x rest => simp [Agrees, sent, RouterGroupJson.ofDB, RouterGroupJson.ofRouterGroup,
        RouterGroupJson.toRouterGroup, RouterGroupDB.toRouterGroup]

/-- A lookup by name agrees with the server for every name but the empty one, which the server
takes for no name at all. -/
theorem routerGroupWithName_agrees_iff (cfg : PortSettings) (env : Env)
    (s : Schema RouterGroupColumn) (net : ℕ → Delivery) (w : Server) (name : String) :
    Agrees name ((routerGroupWithName name).run (server cfg env s net) w).1 ↔
      name ≠ "" ∨ Unlisted env net w ∨ ∃ x rest, w.store.stored = x :: rest ∧ x.name = "" := by
  by_cases hname : name = ""
  · subst hname
    simp only [ne_eq, not_true_eq_false, false_or]
    exact routerGroupWithName_empty w
  · exact ⟨fun _ => .inl hname, fun _ => routerGroupWithName_agrees hname w⟩

/-- The empty name gives a group with another name, or panics when there is no group. -/
theorem routerGroupWithName_without_name :
    let answers := server ⟨[], false⟩ .quiet (routerGroupSchema .mysql) fun _ => .served (.ok ())
    ((routerGroupWithName "").run answers ⟨oneGroup, 0⟩).1 =
        .ok ⟨"", "guid-a", "a", "tcp", "1024-1123"⟩ ∧
      ((routerGroupWithName "").run answers ⟨.empty, 0⟩).1 =
        .error (.panicked "runtime error: index out of range [0] with length 0") := by
  decide +kernel

end Lookup

end RoutingApi.Client
