import RoutingApi.Database.SqlDb

/-! What the handlers answer a request with, and the checks it has to pass before anything
is written. -/
namespace RoutingApi.Handlers
open Models Database

section Errors

inductive ErrorType where
  | processRequestError | routeInvalidError | routeServiceUrlInvalidError | dbCommunicationError
  | unauthorizedError | tcpRouteMappingInvalidError
  deriving DecidableEq, Repr

structure ApiError where
  type : ErrorType
  message : String
  deriving DecidableEq, Repr

inductive Status where
  | created | noContent | badRequest | unauthorized | serviceUnavailable
  deriving DecidableEq, Repr

def Status.code : Status → ℕ
  | .created => 201
  | .noContent => 204
  | .badRequest => 400
  | .unauthorized => 401
  | .serviceUnavailable => 503

/-- A response with the error that its body is the JSON of. -/
structure Response where
  status : Status
  body : Option ApiError
  deriving DecidableEq, Repr

def handleProcessRequestError (procErr : String) : Response :=
  ⟨.badRequest, some ⟨.processRequestError, "Cannot process request: " ++ procErr⟩⟩

def handleApiError (apiErr : ApiError) : Response := ⟨.badRequest, some apiErr⟩

def handleDBCommunicationError (err : Err) : Response :=
  ⟨.serviceUnavailable, some ⟨.dbCommunicationError, err.message⟩⟩

/-- What stands before and after the first occurrence of `p`. -/
def cutFirst (p : List Char) : List Char → Option (List Char × List Char)
  | [] => none
  | c :: l =>
    if p.isPrefixOf (c :: l) then some ([], (c :: l).drop p.length)
    else (cutFirst p l).map fun r => (c :: r.1, r.2)

/-- Replaces a match of `Token does not have .* scope`, which reaches to the last `scope`. -/
def hideScope (message : String) : String :=
  match cutFirst "Token does not have ".toList message.toList with
  | none => message
  | some (before, rest) =>
    match cutFirst " scope".toList.reverse rest.reverse with
    | none => message
    | some (after, _) => String.ofList (before ++
        "You are not authorized to perform the requested action".toList ++ after.reverse)

def handleUnauthorizedError (err : String) : Response :=
  ⟨.unauthorized, some ⟨.unauthorizedError, hideScope err⟩⟩

/-- A check that ends the validation if it fails. -/
def check (failed : Bool) (type : ErrorType) (message : String) : Option ApiError :=
  if failed then some ⟨type, message⟩ else none

@[simp] theorem check_eq_none {failed : Bool} {type : ErrorType} {message : String} :
    check failed type message = none ↔ failed = false := by
  cases failed <;> simp [check]

end Errors

section Routes
variable (parse : String → Except String String)

/-- `parse` is `url.Parse`: its error, or the parsed URL as a string again. -/
def validateUrl (urlToValidate : String) : Option String :=
  if urlToValidate.toList.any fun c => c = '?' ∨ c = '#' then
    some "url cannot contain any of [?, #]"
  else match parse urlToValidate with
    | .error err => some err
    | .ok parsedURL =>
      if parsedURL ≠ urlToValidate then some "url cannot contain invalid characters" else none

def validateRouteUrl (route : String) : Option ApiError :=
  (validateUrl parse route).map (⟨.routeInvalidError, ·⟩)

def validateRouteServiceUrl (routeService : String) : Option ApiError :=
  if routeService = "" then none
  else check (!"https://".toList.isPrefixOf routeService.toList) .routeServiceUrlInvalidError
      "Route service url must use HTTPS." <|>
    (validateUrl parse routeService).map (⟨.routeServiceUrlInvalidError, ·⟩)

def requiredValidation (route : Route) : Option ApiError :=
  validateRouteUrl parse route.route <|>
  validateRouteServiceUrl parse route.routeServiceUrl <|>
  check (route.port = 0) .routeInvalidError "Each route request requires a port greater than 0" <|>
  check (route.route = "") .routeInvalidError "Each route request requires a valid route" <|>
  check (route.ip = "") .routeInvalidError "Each route request requires an IP"

/-- The outer error is a panic. -/
def validateCreate (maxTTL : ℤ) : List Route → Except Err (Option ApiError)
  | [] => pure none
  | route :: routes =>
    match requiredValidation parse route, route.ttl with
    | some err, _ => pure (some err)
    | none, none => .error .nilDereference
    | none, some ttl =>
      match check (ttl > maxTTL) .routeInvalidError ("Max ttl is " ++ toString maxTTL) <|>
          check (ttl ≤ 0) .routeInvalidError "Request requires a ttl greater than 0" with
      | some err => pure (some err)
      | none => validateCreate maxTTL routes

/-- With a TTL in every route the validation does not panic. -/
theorem validateCreate_returns (maxTTL : ℤ) {routes : List Route}
    (h : ∀ r ∈ routes, r.ttl ≠ none) : ∃ err, validateCreate parse maxTTL routes = .ok err := by
  induction routes with
  | nil => exact ⟨none, rfl⟩
  | cons route routes ih =>
    obtain ⟨ttl, httl⟩ := Option.ne_none_iff_exists'.mp (h route List.mem_cons_self)
    obtain ⟨err, herr⟩ := ih fun r hr => h r (List.mem_cons_of_mem _ hr)
    unfold validateCreate
    rw [httl]
    split
    next => exact ⟨_, rfl⟩
    next => contradiction
    next =>
      split
      next => exact ⟨_, rfl⟩
      next => exact ⟨err, herr⟩

variable {parse} in
/-- What is accepted has the required fields and a TTL within the limits. -/
theorem validateCreate_accepts {maxTTL : ℤ} {routes : List Route} :
    validateCreate parse maxTTL routes = .ok none ↔ ∀ r ∈ routes,
      requiredValidation parse r = none ∧ ∃ ttl, r.ttl = some ttl ∧ 0 < ttl ∧ ttl ≤ maxTTL := by
  induction routes with
  | nil => simp [validateCreate, pure, Except.pure]
  | cons route routes ih =>
    rw [List.forall_mem_cons, ← ih, validateCreate]
    cases hreq : requiredValidation parse route with
    | some err => simp [pure, Except.pure]
    | none =>
      cases httl : route.ttl with
      | none => simp
      | some ttl =>
        by_cases hmax : ttl > maxTTL
        · simp [check, hmax, pure, Except.pure]
        · by_cases hpos : ttl ≤ 0
          · simp [check, hmax, hpos, pure, Except.pure]
          · simp [check, hmax, hpos, not_lt.mp hmax, not_le.mp hpos]

def validateDelete : List Route → Option ApiError
  | [] => none
  | route :: routes => requiredValidation parse route <|> validateDelete routes

variable {parse} in
theorem validateDelete_accepts {routes : List Route} :
    validateDelete parse routes = none ↔ ∀ r ∈ routes, requiredValidation parse r = none := by
  induction routes with
  | nil => simp [validateDelete]
  | cons route routes ih => simp [validateDelete, ih]

end Routes

section Tcp

/-- The checks of `validateTcpRouteMapping` before the TTL. -/
def validateBackend (m : TcpRouteMapping) : Option ApiError :=
  check (m.routerGroupGuid = "") .tcpRouteMappingInvalidError
    ("Each tcp mapping requires a non empty router group guid. RouteMapping=[" ++ m.string ++ "]") <|>
  check (m.externalPort = 0) .tcpRouteMappingInvalidError
    ("Each tcp mapping requires a positive external port. RouteMapping=[" ++ m.string ++ "]") <|>
  check (m.hostIP = "") .tcpRouteMappingInvalidError
    ("Each tcp mapping requires a non empty backend ip. RouteMapping=[" ++ m.string ++ "]") <|>
  check (m.hostPort = 0 ∧ m.hostTLSPort ≤ 0) .tcpRouteMappingInvalidError
    ("Each tcp mapping requires a positive backend port. RouteMapping=[" ++ m.string ++ "]") <|>
  check (m.hostTLSPort > 65535) .tcpRouteMappingInvalidError
    ("Each tcp mapping with a backend TLS port requires that port to be less than or equal to 65535. RouteMapping=["
      ++ m.string ++ "]")

def validateTTL (m : TcpRouteMapping) (maxTTL ttl : ℤ) : Option ApiError :=
  check (ttl > maxTTL) .tcpRouteMappingInvalidError
    ("Each tcp mapping requires TTL to be less than or equal to " ++ toString maxTTL ++
      ". RouteMapping=[" ++ m.string ++ "]") <|>
  check (ttl ≤ 0) .tcpRouteMappingInvalidError
    "Each tcp route mapping requires a ttl greater than 0"

def validateALPNs (m : TcpRouteMapping) : Option ApiError :=
  check (m.alpns ≠ "" ∧ m.terminateFrontendTLS = false) .tcpRouteMappingInvalidError
    ("Each tcp mapping can define ALPNs only when TerminateFrontendTLS is enabled. RouteMapping=["
      ++ m.string ++ "]")

/-- The TTL is dereferenced only if it is to be checked. -/
def validateTcpRouteMapping (m : TcpRouteMapping) (checkTTL : Bool) (maxTTL : ℤ) :
    Except Err (Option ApiError) :=
  match validateBackend m, checkTTL, m.ttl with
  | some err, _, _ => pure (some err)
  | none, false, _ => pure (validateALPNs m)
  | none, true, none => .error .nilDereference
  | none, true, some ttl => pure (validateTTL m maxTTL ttl <|> validateALPNs m)

def validateCreateTcpRouteMapping (m : TcpRouteMapping) (similarTcpRouteMappings : List TcpRouteMapping)
    (routerGroups : List RouterGroup) (maxTTL : ℤ) : Except Err (Option ApiError) := do
  let err ← validateTcpRouteMapping m true maxTTL
  pure (err <|>
    check (!routerGroups.any fun g => m.routerGroupGuid = g.guid) .tcpRouteMappingInvalidError
      ("router_group_guid: " ++ m.routerGroupGuid ++ " not found") <|>
    check (similarTcpRouteMappings.any fun r => m.terminateFrontendTLS ≠ r.terminateFrontendTLS)
      .tcpRouteMappingInvalidError
      ("terminate_frontend_tls: " ++ toString m.terminateFrontendTLS ++ " not allowed"))

def validateDeleteTcpRouteMapping : List TcpRouteMapping → Except Err (Option ApiError)
  | [] => pure none
  | m :: ms => do
    match ← validateTcpRouteMapping m false 0 with
    | some err => pure (some err)
    | none => validateDeleteTcpRouteMapping ms

theorem validateTcpRouteMapping_returns (m : TcpRouteMapping) (checkTTL : Bool) (maxTTL : ℤ)
    (h : checkTTL = true → m.ttl ≠ none) :
    ∃ err, validateTcpRouteMapping m checkTTL maxTTL = .ok err := by
  unfold validateTcpRouteMapping
  split
  next => exact ⟨_, rfl⟩
  next => exact ⟨_, rfl⟩
  next hnone => exact absurd hnone (h rfl)
  next => exact ⟨_, rfl⟩

theorem validateBackend_accepts {m : TcpRouteMapping} :
    validateBackend m = none ↔ m.routerGroupGuid ≠ "" ∧ m.externalPort ≠ 0 ∧ m.hostIP ≠ "" ∧
      (m.hostPort ≠ 0 ∨ 0 < m.hostTLSPort) ∧ m.hostTLSPort ≤ 65535 := by
  simp [validateBackend, imp_iff_not_or]

theorem validateALPNs_accepts {m : TcpRouteMapping} :
    validateALPNs m = none ↔ (m.terminateFrontendTLS = false → m.alpns = "") := by
  simp [validateALPNs, imp_iff_not_or, or_comm]

/-- What is accepted has a backend, a TTL within the limits, and ALPNs only with frontend TLS. -/
theorem validateTcpRouteMapping_accepts {m : TcpRouteMapping} {maxTTL : ℤ} :
    validateTcpRouteMapping m true maxTTL = .ok none ↔ validateBackend m = none ∧
      (∃ ttl, m.ttl = some ttl ∧ 0 < ttl ∧ ttl ≤ maxTTL) ∧ validateALPNs m = none := by
  unfold validateTcpRouteMapping
  cases hbackend : validateBackend m with
  | some err => simp [pure, Except.pure]
  | none =>
    cases httl : m.ttl with
    | none => simp
    | some ttl => simp [pure, Except.pure, validateTTL, and_comm]

variable {m : TcpRouteMapping} (similar : List TcpRouteMapping) (routerGroups : List RouterGroup)
  (maxTTL : ℤ)

theorem validateCreateTcpRouteMapping_returns (h : m.ttl ≠ none) :
    ∃ err, validateCreateTcpRouteMapping m similar routerGroups maxTTL = .ok err := by
  obtain ⟨err, herr⟩ := validateTcpRouteMapping_returns m true maxTTL fun _ => h
  exact ⟨_, by rw [validateCreateTcpRouteMapping, herr]; rfl⟩

section Accepted
variable {similar routerGroups maxTTL}

theorem validateCreateTcpRouteMapping_accepts :
    validateCreateTcpRouteMapping m similar routerGroups maxTTL = .ok none ↔
      validateTcpRouteMapping m true maxTTL = .ok none ∧
      (∃ g ∈ routerGroups, m.routerGroupGuid = g.guid) ∧
      ∀ r ∈ similar, m.terminateFrontendTLS = r.terminateFrontendTLS := by
  unfold validateCreateTcpRouteMapping
  cases herr : validateTcpRouteMapping m true maxTTL with
  | error e => simp [bind, Except.bind]
  | ok err => simp [bind, Except.bind, pure, Except.pure]

/-- What is accepted has the frontend TLS flag of the mappings it was compared with. -/
theorem validateCreateTcpRouteMapping_similar
    (h : validateCreateTcpRouteMapping m similar routerGroups maxTTL = .ok none) :
    ∀ r ∈ similar, r.terminateFrontendTLS = m.terminateFrontendTLS := by
  intro r hr
  exact ((validateCreateTcpRouteMapping_accepts.mp h).2.2 r hr).symm

end Accepted

theorem validateDeleteTcpRouteMapping_accepts {ms : List TcpRouteMapping} :
    validateDeleteTcpRouteMapping ms = .ok none ↔
      ∀ m ∈ ms, validateTcpRouteMapping m false 0 = .ok none := by
  induction ms with
  | nil => simp [validateDeleteTcpRouteMapping, pure, Except.pure]
  | cons m ms ih =>
    obtain ⟨err, herr⟩ := validateTcpRouteMapping_returns m false 0 nofun
    rw [List.forall_mem_cons, ← ih, validateDeleteTcpRouteMapping, herr]
    cases err with
    | some err => simp [bind, Except.bind, pure, Except.pure]
    | none => simp [bind, Except.bind]

theorem validateDeleteTcpRouteMapping_returns (ms : List TcpRouteMapping) :
    ∃ err, validateDeleteTcpRouteMapping ms = .ok err := by
  induction ms with
  | nil => exact ⟨none, rfl⟩
  | cons m ms ih =>
    obtain ⟨err, herr⟩ := validateTcpRouteMapping_returns m false 0 nofun
    unfold validateDeleteTcpRouteMapping
    rw [herr]
    cases err with
    | some err => exact ⟨_, rfl⟩
    | none => exact ih

end Tcp
end RoutingApi.Handlers
