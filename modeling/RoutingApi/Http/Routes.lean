import RoutingApi.Http.Mux

/-! The routes of the API, from the requests that the client creates to the handlers that the
router picks. The router gets the routes in the order of a map, which is a different one at every
start. -/
namespace RoutingApi.Http
open Text Text.Url

section Model

/-- The names of the routes. -/
inductive Endpoint where
  | upsertRoute | deleteRoute | listRoute | eventStreamRoute
  | createRouterGroup | deleteRouterGroup | listRouterGroups | updateRouterGroup
  | upsertTcpRouteMapping | deleteTcpRouteMapping | listTcpRouteMapping | eventStreamTcpRoute
  deriving DecidableEq, Repr

def routesMap : List (Route Endpoint) :=
  [⟨.upsertRoute, "POST", utf8 "/routing/v1/routes"⟩,
    ⟨.deleteRoute, "DELETE", utf8 "/routing/v1/routes"⟩,
    ⟨.listRoute, "GET", utf8 "/routing/v1/routes"⟩,
    ⟨.eventStreamRoute, "GET", utf8 "/routing/v1/events"⟩,
    ⟨.createRouterGroup, "POST", utf8 "/routing/v1/router_groups"⟩,
    ⟨.deleteRouterGroup, "DELETE", utf8 "/routing/v1/router_groups/:guid"⟩,
    ⟨.listRouterGroups, "GET", utf8 "/routing/v1/router_groups"⟩,
    ⟨.updateRouterGroup, "PUT", utf8 "/routing/v1/router_groups/:guid"⟩,
    ⟨.upsertTcpRouteMapping, "POST", utf8 "/routing/v1/tcp_routes/create"⟩,
    ⟨.deleteTcpRouteMapping, "POST", utf8 "/routing/v1/tcp_routes/delete"⟩,
    ⟨.listTcpRouteMapping, "GET", utf8 "/routing/v1/tcp_routes"⟩,
    ⟨.eventStreamTcpRoute, "GET", utf8 "/routing/v1/tcp_routes/events"⟩]

/-- The router of `apiHandler`, where every route has a handler. -/
def apiRouter (routes : List (Route Endpoint)) :
    Except (RouterError Endpoint) (PatternServeMux Endpoint) :=
  newRouter routes some

/-- `rata.Param`. -/
def param (rawQuery : Bytes) (name : String) : Bytes := get rawQuery (colon :: utf8 name)

/-- One component of a path pattern. -/
def substitute (params : Params) (c : Bytes) : Option Bytes :=
  if c.head? = some colon then params.lookup c.tail else some c

/-- `Route.CreatePath`. -/
def createPath (path : Bytes) (params : Params) : Option Bytes := do
  let components ← (path.splitOn slash).mapM (substitute params)
  let u ← parse ([slash].intercalate components)
  pure u.requestURI

/-- `createRequest` of the client: the method, and the URL from its path on. -/
def createRequest (routes : List (Route Endpoint)) (name : Endpoint) (params : Params)
    (queryParams : Values) : Option (String × Reference) := do
  let route ← routes.find? (·.name = name)
  let path ← createPath route.path params
  let u ← parse (slash :: path.dropWhile (· == slash))
  pure (route.method, { u with rawQuery := queryParams.encode })

/-- What becomes of a request line. -/
def receive (p : PatternServeMux Endpoint) (method : String) (uri : Bytes) :
    Option (Outcome Endpoint) :=
  (parseRequestURI uri).map fun u => p.serveHTTP method u.escapedPath u.rawQuery

end Model

section Dispatch
variable {r r' : Route Endpoint} {path rawQuery query : Bytes} {params : Params}

def groupsPath : Bytes := utf8 "/routing/v1/router_groups/"

/-- A path pattern is a text, or the one with the guid of a router group. -/
theorem routesMap_path : ∀ r ∈ routesMap,
    (colon ∉ r.path ∧ ¬groupsPath <+: r.path) ∨ r.path = groupsPath ++ colon :: utf8 "guid" := by
  decide +kernel

theorem plain_routesMap : ∀ r ∈ routesMap, r.method.toUpper = r.method ∧ r.method ∈ verbs ∧
    r.path.getLast? ≠ some slash := by
  decide +kernel

theorem distinct_routesMap : (routesMap.map fun r => (r.method, r.path)).Nodup := by
  decide +kernel

/-- What the path of a request to a route is. -/
inductive Matched (r : Route Endpoint) (path : Bytes) : Params → Prop
  | text (hpath : path = r.path) (hplain : ¬groupsPath <+: path) : Matched r path []
  | guid (val v : Bytes) (hroute : r.path = groupsPath ++ colon :: utf8 "guid")
      (hpath : path = groupsPath ++ val) (hne : val ≠ []) (hslash : slash ∉ val) (hzero : 0 ∉ val)
      (hval : unescape .queryComponent val = some v) :
      Matched r path [(colon :: utf8 "guid", v)]

theorem tryPath_iff (hr : r ∈ routesMap) : tryPath r.path path = some params ↔
    Matched r path params := by
  have hname : ∀ c ∈ utf8 "guid", isName c = true := List.all_eq_true.mp (by decide +kernel)
  have hgroups : colon ∉ groupsPath := by decide +kernel
  rcases routesMap_path r hr with ⟨hcolon, hplain⟩ | hroute
  · rw [tryPath_literal hcolon (plain_routesMap r hr).2.2]
    constructor
    · rintro ⟨rfl, rfl⟩
      exact .text rfl hplain
    · rintro (⟨hpath, -⟩ | ⟨val, v, hroute, -⟩)
      · exact ⟨hpath, rfl⟩
      · exact absurd ⟨_, hroute.symm⟩ hplain
  · rw [hroute, tryPath_capture hgroups hname]
    constructor
    · rintro ⟨val, v, hpath, hne, ⟨hslash, hzero⟩, hval, rfl⟩
      exact .guid val v hroute hpath hne hslash hzero hval
    · rintro (⟨hpath, hplain⟩ | ⟨val, v, -, hpath, hne, hslash, hzero, hval⟩)
      · exact absurd ⟨_, (hpath.trans hroute).symm⟩ hplain
      · exact ⟨val, v, hpath, hne, ⟨hslash, hzero⟩, hval, rfl⟩

theorem exclusive_routesMap : Exclusive routesMap := by
  intro r hr r' hr' hmethod path hmatch hmatch'
  obtain ⟨params, hparams⟩ := Option.isSome_iff_exists.mp hmatch
  obtain ⟨params', hparams'⟩ := Option.isSome_iff_exists.mp hmatch'
  apply List.inj_on_of_nodup_map distinct_routesMap hr hr'
  apply Prod.ext hmethod
  show r.path = r'.path
  rcases (tryPath_iff hr).mp hparams with ⟨hpath, hplain⟩ | ⟨val, v, hroute, hpath, -⟩ <;>
    rcases (tryPath_iff hr').mp hparams' with ⟨hpath', hplain'⟩ | ⟨val', v', hroute', hpath', -⟩
  · rw [← hpath, ← hpath']
  · exact absurd ⟨val', hpath'.symm⟩ hplain
  · exact absurd ⟨val, hpath.symm⟩ hplain'
  · rw [hroute, hroute']

theorem routesMap_plain {routes : List (Route Endpoint)} (hroutes : routes.Perm routesMap) :
    ∀ r ∈ routes, r.Plain (some : Endpoint → Option Endpoint) := by
  intro r hr
  obtain ⟨hupper, hverb, hlast⟩ := plain_routesMap r (hroutes.mem_iff.mp hr)
  exact ⟨⟨r.name, rfl⟩, hupper, hverb, hlast⟩

/-- In any order of the map the router has all routes. -/
theorem apiRouter_eq {routes : List (Route Endpoint)} (hroutes : routes.Perm routesMap) :
    apiRouter routes = .ok (entries some routes) := by
  have hdistinct := (hroutes.map fun r => (r.method, r.path)).nodup_iff.mpr distinct_routesMap
  exact newRouter_ok (routesMap_plain hroutes) hdistinct

theorem served_iff {routes : List (Route Endpoint)} (hroutes : routes.Perm routesMap)
    {method : String} {name : Endpoint} :
    (entries some routes).serveHTTP method path rawQuery = .served name query ↔
      ∃ r ∈ routesMap, r.name = name ∧ r.method = method ∧
        ∃ params, Matched r path params ∧ query = withParams params rawQuery := by
  rw [serveHTTP_served_iff (exclusive_routesMap.perm hroutes.symm)]
  constructor
  · rintro ⟨r, hr, hname, hmethod, params, hparams, hquery⟩
    have hr := hroutes.mem_iff.mp hr
    exact ⟨r, hr, Option.some.inj hname, hmethod, params, (tryPath_iff hr).mp hparams, hquery⟩
  · rintro ⟨r, hr, hname, hmethod, params, hparams, hquery⟩
    exact ⟨r, hroutes.mem_iff.mpr hr, congrArg some hname, hmethod, params,
      (tryPath_iff hr).mpr hparams, hquery⟩

/-- The order in which the map of routes is ranged over shows in no answer, but for the order of
the methods that a 405 allows. -/
theorem answers_independent_of_map_order {routes routes' : List (Route Endpoint)}
    (hroutes : routes.Perm routesMap) (hroutes' : routes'.Perm routesMap) :
    ∃ p p', apiRouter routes = .ok p ∧ apiRouter routes' = .ok p' ∧
      ∀ method path rawQuery,
        (p.serveHTTP method path rawQuery).Same (p'.serveHTTP method path rawQuery) ∧
        p.serveHTTP method path rawQuery ≠ .redirected := by
  refine ⟨_, _, apiRouter_eq hroutes, apiRouter_eq hroutes', ?_⟩
  have hexcl := exclusive_routesMap.perm hroutes.symm
  intro method path rawQuery
  exact ⟨serveHTTP_perm hexcl (hroutes.trans hroutes'.symm) method path rawQuery,
    serveHTTP_ne_redirected hexcl⟩

theorem answers_independent_of_map_order_reverse :
    routesMap.reverse.Perm routesMap ∧
      ∃ p p', apiRouter routesMap.reverse = .ok p ∧ apiRouter routesMap = .ok p' ∧
        ∀ method path rawQuery,
          (p.serveHTTP method path rawQuery).Same (p'.serveHTTP method path rawQuery) ∧
          p.serveHTTP method path rawQuery ≠ .redirected :=
  ⟨List.reverse_perm _,
    answers_independent_of_map_order (List.reverse_perm _) (List.Perm.refl _)⟩

end Dispatch

section Captures
variable {rawQuery : Bytes}

/-- The routes with the guid of a router group in their path. -/
def Endpoint.takesGuid : Endpoint → Bool
  | .updateRouterGroup | .deleteRouterGroup => true
  | _ => false

theorem takesGuid_iff : ∀ r ∈ routesMap,
    r.name.takesGuid = true ↔ r.path = groupsPath ++ colon :: utf8 "guid" := by
  decide +kernel

theorem parseQuery_withParams (key v : Bytes) (rawQuery : Bytes) :
    parseQuery (withParams [(key, v)] rawQuery) = (key, v) :: parseQuery rawQuery := by
  have hencode : Params.encode [(key, v)] = Values.encode [(key, [v])] := by
    rw [Params.encode, List.mergeSort_singleton]
    rfl
  rw [withParams, if_neg (List.cons_ne_nil _ _), hencode]
  exact parseQuery_encode_append [(key, [v])] (List.cons_ne_nil _ _) rawQuery

/-- The capture comes before whatever the sender has put into the query. -/
theorem param_withParams (v : Bytes) :
    param (withParams [(colon :: utf8 "guid", v)] rawQuery) "guid" = v := by
  unfold param Url.get valuesOf
  rw [parseQuery_withParams, List.filter_cons_of_pos (by simp)]
  rfl

theorem valuesOf_withParams {key v : Bytes} (hkey : key ≠ colon :: utf8 "guid") :
    valuesOf (withParams [(colon :: utf8 "guid", v)] rawQuery) key = valuesOf rawQuery key := by
  rw [valuesOf, parseQuery_withParams, List.filter_cons_of_neg (by simpa using hkey.symm)]
  rfl

/-- Whatever the query of a request is, the router group that its handler works on is the one that
the path names. The other handlers get the query as it was sent. -/
theorem guid_is_read_from_path {routes : List (Route Endpoint)} (hroutes : routes.Perm routesMap)
    {p : PatternServeMux Endpoint} (hp : apiRouter routes = .ok p) {method : String}
    {path rawQuery query : Bytes} {name : Endpoint}
    (hserved : p.serveHTTP method path rawQuery = .served name query) :
    if name.takesGuid then
      ∃ val, path = groupsPath ++ val ∧ slash ∉ val ∧ val ≠ [] ∧
        unescape .queryComponent val = some (param query "guid") ∧
        ∀ key, key ≠ colon :: utf8 "guid" → valuesOf query key = valuesOf rawQuery key
    else query = rawQuery := by
  rw [apiRouter_eq hroutes] at hp
  cases hp
  obtain ⟨r, hr, rfl, -, params, hmatched, rfl⟩ := (served_iff hroutes).mp hserved
  rcases hmatched with ⟨hpath, hplain⟩ | ⟨val, v, hroute, hpath, hne, hslash, -, hval⟩
  · rw [if_neg]
    · rfl
    · intro htakes
      exact hplain ⟨_, (hpath.trans ((takesGuid_iff r hr).mp htakes)).symm⟩
  · rw [if_pos ((takesGuid_iff r hr).mpr hroute)]
    refine ⟨val, hpath, hslash, hne, ?_, fun key hkey => valuesOf_withParams hkey⟩
    rw [param_withParams, hval]

/-- A deletion of group `a` with another guid in its query. -/
theorem served_deletion : (entries some routesMap).serveHTTP "DELETE"
    (groupsPath ++ utf8 "a") (utf8 ":guid=b") = .served .deleteRouterGroup
      (withParams [(colon :: utf8 "guid", utf8 "a")] (utf8 ":guid=b")) := by
  refine (served_iff (List.Perm.refl _)).mpr
    ⟨⟨.deleteRouterGroup, "DELETE", utf8 "/routing/v1/router_groups/:guid"⟩, by decide +kernel,
      rfl, rfl, _, .guid (utf8 "a") (utf8 "a") ?_ rfl ?_ ?_ ?_ ?_, rfl⟩ <;> decide +kernel

theorem guid_is_read_from_path_deletion :
    apiRouter routesMap = .ok (entries some routesMap) ∧
      ∃ val, groupsPath ++ utf8 "a" = groupsPath ++ val ∧ slash ∉ val ∧ val ≠ [] ∧
        unescape .queryComponent val = some (param
          (withParams [(colon :: utf8 "guid", utf8 "a")] (utf8 ":guid=b")) "guid") ∧
        ∀ key, key ≠ colon :: utf8 "guid" →
          valuesOf (withParams [(colon :: utf8 "guid", utf8 "a")] (utf8 ":guid=b")) key =
            valuesOf (utf8 ":guid=b") key :=
  ⟨apiRouter_eq (List.Perm.refl _),
    guid_is_read_from_path (List.Perm.refl _) (apiRouter_eq (List.Perm.refl _)) served_deletion⟩

end Captures

section Requests

/-- The parameters that the client gives for a route. -/
def Endpoint.params (name : Endpoint) (guid : Bytes) : Params :=
  if name.takesGuid then [(utf8 "guid", guid)] else []

/-- Bytes that keep their meaning in every position of a path. -/
def isPlain (c : UInt8) : Bool :=
  !(isControl c || c == question || c == hash || c == percent || c == plus)

theorem isPlain_iff {c : UInt8} : isPlain c = true ↔
    isControl c = false ∧ c ≠ question ∧ c ≠ hash ∧ c ≠ percent ∧ c ≠ plus := by
  simp [isPlain, and_assoc]

/-- The text that takes the place of a capture. -/
def IsSegment (guid : Bytes) : Prop := guid ≠ [] ∧ slash ∉ guid ∧ ∀ c ∈ guid, isPlain c = true

instance (guid : Bytes) : Decidable (IsSegment guid) :=
  decidable_of_iff (guid ≠ [] ∧ slash ∉ guid ∧ guid.all isPlain = true)
    (by rw [IsSegment, List.all_eq_true])

/-- The path of a request to a route. -/
def target (r : Route Endpoint) (guid : Bytes) : Bytes :=
  if r.name.takesGuid then groupsPath ++ guid else r.path

theorem plain_target {r : Route Endpoint} (hr : r ∈ routesMap) {guid : Bytes}
    (hguid : ∀ kv ∈ r.name.params guid, IsSegment kv.2) :
    (∀ c ∈ target r guid, isPlain c = true) ∧ [slash, 114] <+: target r guid := by
  have hroot : ∀ r ∈ routesMap, r.path.all isPlain = true ∧ [slash, 114] <+: r.path := by
    decide +kernel
  have hgroups : groupsPath.all isPlain = true ∧ [slash, 114] <+: groupsPath := by
    decide +kernel
  unfold target
  split
  next htakes =>
    have hsegment : IsSegment guid := hguid (utf8 "guid", guid) (by simp [Endpoint.params, htakes])
    refine ⟨fun c hc => ?_, hgroups.2.trans (List.prefix_append _ _)⟩
    rcases List.mem_append.mp hc with hc | hc
    · exact List.all_eq_true.mp hgroups.1 c hc
    · exact hsegment.2.2 c hc
  next => exact ⟨List.all_eq_true.mp (hroot r hr).1, (hroot r hr).2⟩

/-- The encoding of a path below the root, with which the client sends it. -/
theorem dropWhile_normalPath {s : Bytes} (hroot : [slash, 114] <+: s) :
    slash :: (normalPath s s).dropWhile (· == slash) = normalPath s s := by
  obtain ⟨t, rfl⟩ := hroot
  unfold normalPath
  split
  next => rfl
  next =>
    rw [escape_append]
    rfl

/-- A path goes through the client and over the wire with its encoding as the only change. -/
theorem received_target {s : Bytes} (hplain : ∀ c ∈ s, isPlain c = true)
    (hroot : [slash, 114] <+: s) (v : Values) :
    ∃ u u', (parse s).map Reference.requestURI = some (normalPath s s) ∧
      parse (slash :: (normalPath s s).dropWhile (· == slash)) = some u ∧
      parseRequestURI (Reference.requestURI { u with rawQuery := v.encode }) = some u' ∧
      u'.escapedPath = normalPath s s ∧ u'.rawQuery = v.encode := by
  have hbytes {c : UInt8} (hc : c ∈ s) := isPlain_iff.mp (hplain c hc)
  have hstar : s ≠ [42] := by
    rintro rfl
    exact absurd hroot (by decide)
  have hpath : unescape .path s = some s :=
    unescape_plain (fun h => (hbytes h).2.2.2.1 rfl) (fun h => (hbytes h).2.2.2.2 rfl)
  have hsent := parse_validEncoded (validEncoded_normalPath s s) (unescape_normalPath hpath)
  have hfirst : parse s = some ⟨s, if s = escape .path s then [] else s, [], false⟩ := by
    have hhash : hash ∉ s := fun h => (hbytes h).2.2.1 rfl
    have hcontrol : ∀ c ∈ s, isControl c = false := fun c hc => (hbytes hc).1
    rw [parse, cut_of_not_mem hhash]
    exact parseRequestURI_path (fun h => (hbytes h).2.1 rfl) hcontrol hpath
  obtain ⟨u', hu', hescaped, hquery⟩ := parseRequestURI_sent (validEncoded_normalPath s s)
    (unescape_normalPath hpath) hstar v
  let sent := normalPath s s
  refine ⟨⟨s, if sent = escape .path s then [] else sent, [], false⟩, u', ?_, ?_, hu', hescaped,
    hquery⟩
  · rw [hfirst, Option.map_some, Reference.requestURI, escapedPath_eq hpath hstar]
    simp
  · rw [dropWhile_normalPath hroot]
    exact hsent

/-- The components of a path with the guid put in. -/
theorem substitute_target {r : Route Endpoint} (hr : r ∈ routesMap) (guid : Bytes) :
    ∃ components, (r.path.splitOn slash).mapM (substitute (r.name.params guid)) = some components ∧
      [slash].intercalate components = target r guid := by
  have htext : ∀ r ∈ routesMap, r.name.takesGuid = false →
      (r.path.splitOn slash).mapM (substitute []) = some (r.path.splitOn slash) := by
    decide +kernel
  have hcapture : (groupsPath ++ colon :: utf8 "guid").splitOn slash =
      [[], utf8 "routing", utf8 "v1", utf8 "router_groups", colon :: utf8 "guid"] := by
    decide +kernel
  cases htakes : r.name.takesGuid with
  | false =>
    refine ⟨r.path.splitOn slash, ?_, ?_⟩
    · rw [Endpoint.params, htakes]
      exact htext r hr htakes
    · rw [List.intercalate_splitOn, target, htakes]
      rfl
  | true =>
    refine ⟨[[], utf8 "routing", utf8 "v1", utf8 "router_groups", guid], ?_, ?_⟩
    · rw [(takesGuid_iff r hr).mp htakes, hcapture, Endpoint.params, htakes]
      rfl
    · rw [target, htakes]
      simp only [if_true, List.intercalate, List.intersperse, List.flatten]
      rw [show groupsPath = slash :: utf8 "routing" ++ slash :: utf8 "v1" ++
        slash :: utf8 "router_groups" ++ [slash] by decide +kernel]
      simp

theorem createPath_target {r : Route Endpoint} (hr : r ∈ routesMap) (guid : Bytes) :
    createPath r.path (r.name.params guid) = (parse (target r guid)).map Reference.requestURI := by
  obtain ⟨components, hcomponents, htarget⟩ := substitute_target hr guid
  simp only [createPath, hcomponents, Option.bind_eq_bind, Option.bind_some, Option.pure_def,
    htarget]
  cases parse (target r guid) with
  | none => rfl
  | some u => rfl

/-- The path of a request as it is sent is matched by the route it was made for. -/
theorem matched_target {r : Route Endpoint} (hr : r ∈ routesMap) {guid : Bytes}
    (hguid : ∀ kv ∈ r.name.params guid, IsSegment kv.2) :
    Matched r (normalPath (target r guid) (target r guid))
      (if r.name.takesGuid then [(colon :: utf8 "guid", guid)] else []) := by
  have hvalid : ∀ r ∈ routesMap, validEncoded r.path = true := by decide +kernel
  have hescape : escape .path groupsPath = groupsPath := by decide +kernel
  cases htakes : r.name.takesGuid with
  | false =>
    have htarget : target r guid = r.path := by simp [target, htakes]
    rw [if_neg Bool.false_ne_true, htarget, normalPath, if_pos (hvalid r hr)]
    apply Matched.text rfl
    rcases routesMap_path r hr with ⟨-, hplain⟩ | hroute
    · exact hplain
    · rw [(takesGuid_iff r hr).mpr hroute] at htakes
      cases htakes
  | true =>
    have htarget : target r guid = groupsPath ++ guid := by simp [target, htakes]
    obtain ⟨hne, hslash, hplain⟩ : IsSegment guid :=
      hguid (utf8 "guid", guid) (by simp [Endpoint.params, htakes])
    have hbytes {c : UInt8} (hc : c ∈ guid) := isPlain_iff.mp (hplain c hc)
    have hplus : plus ∉ guid := fun h => (hbytes h).2.2.2.2 rfl
    have hzero : 0 ∉ guid := fun h => absurd (hbytes h).1 (by decide)
    have hroute := (takesGuid_iff r hr).mp htakes
    rw [if_pos rfl, htarget, normalPath]
    split
    · exact .guid guid guid hroute rfl hne hslash hzero
        (unescape_plain (fun h => (hbytes h).2.2.2.1 rfl) hplus)
    · rw [escape_append, hescape]
      refine .guid (escape .path guid) guid hroute rfl ?_ ?_ ?_ (unescape_query_escape_path hplus)
      · intro hnil
        have hback := unescape_escape .path guid
        rw [hnil] at hback
        exact hne (Option.some.inj hback).symm
      · exact fun h => hslash (mem_escape_path h (.inl rfl))
      · exact fun h => hzero (mem_escape_path h (.inr rfl))

theorem find?_name {routes : List (Route Endpoint)} (hroutes : routes.Perm routesMap)
    (name : Endpoint) :
    ∃ r ∈ routesMap, r.name = name ∧ routes.find? (·.name = name) = some r := by
  have hall : ∃ r ∈ routesMap, r.name = name := by
    cases name <;> decide +kernel
  obtain ⟨r, hr, hname⟩ := hall
  cases hfind : routes.find? (·.name = name) with
  | none =>
    have hnone := List.find?_eq_none.mp hfind r (hroutes.mem_iff.mpr hr)
    simp [hname] at hnone
  | some r' =>
    have hr' := hroutes.mem_iff.mp (List.mem_of_find?_eq_some hfind)
    have hname' := List.find?_some hfind
    exact ⟨r', hr', by simpa using hname', rfl⟩

/-- A request that the client makes for a route is served by the handler of that route, with the
guid and the values of the query that the client was given, in whatever order each side has the
routes. -/
theorem client_request_is_served {routes routes' : List (Route Endpoint)}
    (hclient : routes.Perm routesMap) (hserver : routes'.Perm routesMap) (name : Endpoint)
    (guid : Bytes) (hguid : ∀ kv ∈ name.params guid, IsSegment kv.2) (queryParams : Values) :
    ∃ p method u query, apiRouter routes' = .ok p ∧
      createRequest routes name (name.params guid) queryParams = some (method, u) ∧
      receive p method u.requestURI = some (.served name query) ∧
      (name.takesGuid = true → param query "guid" = guid) ∧
      ∀ key, key ≠ colon :: utf8 "guid" →
        valuesOf query key = (queryParams.pairs.filter (·.1 = key)).map (·.2) := by
  obtain ⟨r, hr, rfl, hfind⟩ := find?_name hclient name
  obtain ⟨hplain, hroot⟩ := plain_target hr hguid
  obtain ⟨u, u', hpath, hsent, hreceived, hescaped, hquery⟩ :=
    received_target hplain hroot queryParams
  let params : Params := if r.name.takesGuid then [(colon :: utf8 "guid", guid)] else []
  have hserved : (entries some routes').serveHTTP r.method u'.escapedPath u'.rawQuery =
      .served r.name (withParams params queryParams.encode) := by
    rw [hescaped, hquery]
    exact (served_iff hserver).mpr ⟨r, hr, rfl, rfl, params, matched_target hr hguid, rfl⟩
  have hvalues (key : Bytes) : valuesOf queryParams.encode key =
      (queryParams.pairs.filter (·.1 = key)).map (·.2) := by
    rw [valuesOf, parseQuery_encode]
  refine ⟨_, r.method, { u with rawQuery := queryParams.encode },
    withParams params queryParams.encode, apiRouter_eq hserver, ?_, ?_, ?_, ?_⟩
  · have hcreate := (createPath_target hr guid).trans hpath
    simp only [createRequest, hfind, hcreate, hsent, Option.bind_eq_bind, Option.bind_some,
      Option.pure_def]
  · rw [receive, hreceived, Option.map_some, hserved]
  · intro htakes
    rw [show params = [(colon :: utf8 "guid", guid)] from if_pos htakes, param_withParams]
  · intro key hkey
    show valuesOf (withParams (if r.name.takesGuid then _ else []) queryParams.encode) key = _
    split
    · rw [valuesOf_withParams hkey, hvalues]
    · exact hvalues key

theorem client_request_is_served_spaced :
    (∀ kv ∈ Endpoint.updateRouterGroup.params (utf8 "a b"), IsSegment kv.2) ∧
      ∃ p method u query, apiRouter routesMap.reverse = .ok p ∧
        createRequest routesMap .updateRouterGroup (Endpoint.updateRouterGroup.params (utf8 "a b"))
          [(utf8 "name", [utf8 "x&y"])] = some (method, u) ∧
        receive p method u.requestURI = some (.served .updateRouterGroup query) ∧
        (Endpoint.updateRouterGroup.takesGuid = true → param query "guid" = utf8 "a b") ∧
        ∀ key, key ≠ colon :: utf8 "guid" → valuesOf query key =
          ((Values.pairs [(utf8 "name", [utf8 "x&y"])]).filter (·.1 = key)).map (·.2) :=
  ⟨by decide +kernel, client_request_is_served (List.Perm.refl _) (List.reverse_perm _)
    .updateRouterGroup (utf8 "a b") (by decide +kernel) [(utf8 "name", [utf8 "x&y"])]⟩

/-- Why the guid has no plus: the client sends it as it is, and the muxer reads it as a space. -/
example : createPath (groupsPath ++ colon :: utf8 "guid") [(utf8 "guid", utf8 "a+b")] =
      some (groupsPath ++ utf8 "a+b") ∧
    tryPath (groupsPath ++ colon :: utf8 "guid") (groupsPath ++ utf8 "a+b") =
      some [(colon :: utf8 "guid", utf8 "a b")] := by
  decide +kernel

end Requests
end RoutingApi.Http
