import RoutingApi.Models.Duration
import RoutingApi.Models.ReservablePorts

/-! The configuration file, and the tickers that the process starts with. The decoder of YAML is a
parameter; what it leaves in the struct is validated and completed here. -/
namespace RoutingApi.Startup
open Models Duration Process

section Configuration

structure APIConfig where
  listenPort : UInt16
  httpEnabled : Bool
  mtlsListenPort : UInt16

structure OAuthConfig where
  tokenEndpoint : String
  port : UInt16
  skipSSLValidation : Bool := false

structure SqlDB where
  skipSSLValidation : Bool := false

structure ClientLocketConfig where
  locketAddress : String

structure Config where
  api : APIConfig
  adminPort : UInt16
  logGuid : String
  maxTTL : Int64 := 0
  systemDomain : String
  metricsReportingIntervalString : String
  metricsReportingInterval : Int64 := 0
  statsdClientFlushIntervalString : String
  statsdClientFlushInterval : Int64 := 0
  oauth : OAuthConfig
  routerGroups : List RouterGroup := []
  reservedSystemComponentPorts : List UInt16 := []
  failOnRouterPortConflicts : Bool := false
  sqlDB : SqlDB := {}
  locket : ClientLocketConfig
  uuid : String
  skipSSLValidation : Bool := false
  lockTTL : Int64 := 0
  retryInterval : Int64 := 0
  lockResouceKey : String := ""

def validatePort (port : UInt16) : Except String Unit :=
  if port < 1 then .error ("port number is invalid: " ++ toString port.toNat ++ " (1-65535)")
  else .ok ()

/-- `fmt.Errorf` with the text before the error. -/
def wrapError (text : String) : Except String Unit → Except String Unit
  | .error err => .error (text ++ err)
  | .ok _ => .ok ()

namespace Config

/-- The two package variables that the validation of the router groups reads are set on the way. -/
def validate (cfg : Config) (authDisabled : Bool) : Except String Unit := do
  if cfg.systemDomain = "" then throw "no system_domain specified"
  if cfg.logGuid = "" then throw "no log_guid specified"
  if !authDisabled && cfg.oauth.tokenEndpoint = "" then throw "no token endpoint specified"
  if !authDisabled && cfg.oauth.tokenEndpoint ≠ "" && cfg.oauth.port = 0 then
    throw "routing API requires TLS enabled to get OAuth token"
  if cfg.uuid = "" then throw "no UUID is specified"
  wrapError "invalid admin port: " (validatePort cfg.adminPort)
  wrapError "invalid API listen port: " (validatePort cfg.api.listenPort)
  wrapError "invalid API mTLS listen port: " (validatePort cfg.api.mtlsListenPort)
  if cfg.locket.locketAddress = "" then throw "locket address is required"
  RouterGroup.validateAll ⟨cfg.reservedSystemComponentPorts, cfg.failOnRouterPortConflicts⟩
    cfg.routerGroups

/-- `locket.DefaultSessionTTL`. -/
def defaultSessionTTL : Int64 := 15000000000

/-- `locket.RetryInterval`. -/
def defaultRetryInterval : Int64 := 5000000000

def defaultLockResourceKey : String := "routing_api_lock"

def process (cfg : Config) : Except String Config := do
  let lockTTL := if cfg.lockTTL = 0 then defaultSessionTTL else cfg.lockTTL
  let retryInterval := if cfg.retryInterval = 0 then defaultRetryInterval else cfg.retryInterval
  let lockResouceKey :=
    if cfg.lockResouceKey = "" then defaultLockResourceKey else cfg.lockResouceKey
  let metricsReportingInterval ← parseDuration cfg.metricsReportingIntervalString
  let statsdClientFlushInterval ← parseDuration cfg.statsdClientFlushIntervalString
  pure { cfg with
    lockTTL := lockTTL
    retryInterval := retryInterval
    lockResouceKey := lockResouceKey
    sqlDB := { cfg.sqlDB with skipSSLValidation := cfg.skipSSLValidation }
    oauth := { cfg.oauth with skipSSLValidation := cfg.skipSSLValidation }
    metricsReportingInterval := metricsReportingInterval
    statsdClientFlushInterval := statsdClientFlushInterval
    maxTTL := if cfg.maxTTL = 0 then 120000000000 else cfg.maxTTL }

end Config

variable {Bytes : Type} (unmarshal : Bytes → Except String Config)

def newConfigFromBytes (bytes : Bytes) (authDisabled : Bool) : Except String Config := do
  let config ← unmarshal bytes
  config.validate authDisabled
  config.process

end Configuration

section Tickers

/-- A period that is not positive is a panic. -/
def newTicker (d : ℤ) : Except String ℤ :=
  if d ≤ 0 then .error "non-positive interval for NewTicker" else .ok d

def newRoute (url : String) (port : UInt16) (ip logGuid routeServiceUrl : String) (ttl : ℤ) :
    Route :=
  { route := url, port := port, ip := ip, ttl := some ttl, logGuid := logGuid,
    routeServiceUrl := routeServiceUrl }

/-- The route to register, and the period of the ticker that registers it again. -/
structure RouteRegister where
  route : Route
  ticker : ℤ

/-- The interval is an int; the product with a second is one of int64. -/
def registerInterval (maxTTL : Int64) : ℤ := ttlDuration ((wholeSeconds maxTTL).tdiv 2)

def selfRoute (ip : String) (port : UInt16) (logGuid systemDomain : String) (maxTTL : Int64) :
    Route :=
  newRoute ("api." ++ systemDomain ++ "/routing") port ip logGuid "" (wholeSeconds maxTTL)

def constructRouteRegister (ip : String) (port : UInt16) (logGuid systemDomain : String)
    (maxTTL : Int64) : Except String RouteRegister := do
  let ticker ← newTicker (registerInterval maxTTL)
  pure ⟨selfRoute ip port logGuid systemDomain maxTTL, ticker⟩

/-- The tickers of `main`: the one of the metrics, and the one of the route register if the HTTP
server is enabled. -/
def tickers (ip : String) (cfg : Config) : Except String (ℤ × Option RouteRegister) := do
  let metricsTicker ← newTicker cfg.metricsReportingInterval.toInt
  if cfg.api.httpEnabled then
    let routerRegister ←
      constructRouteRegister ip cfg.api.listenPort cfg.logGuid cfg.systemDomain cfg.maxTTL
    pure (metricsTicker, some routerRegister)
  else pure (metricsTicker, none)

/-- The intervals are positive, and the route is registered again before it expires. -/
structure Starts (ip : String) (cfg : Config) : Prop where
  metrics : 0 < cfg.metricsReportingInterval.toInt
  register : 0 < registerInterval cfg.maxTTL
  lives : ∃ ttl, (selfRoute ip cfg.api.listenPort cfg.logGuid cfg.systemDomain cfg.maxTTL).ttl =
    some ttl ∧ 1 ≤ ttl ∧ registerInterval cfg.maxTTL < ttl * second

theorem newTicker_isOk {d : ℤ} : (newTicker d).isOk = true ↔ 0 < d := by
  unfold newTicker
  split
  next h => simpa [Except.isOk, Except.toBool] using h
  next h => simpa [Except.isOk, Except.toBool] using h

/-- Half of the whole seconds is positive exactly from two seconds on. -/
theorem registerInterval_pos (d : Int64) : 0 < registerInterval d ↔ 2 * second ≤ d.toInt := by
  have hle := wholeSeconds_le d
  have hge := le_wholeSeconds d
  rw [← two_le_wholeSeconds, registerInterval]
  generalize wholeSeconds d = w at hle hge
  have hsplit := Int.mul_tdiv_add_tmod w 2
  have hlow := Int.lt_tmod_of_pos w (show (0 : ℤ) < 2 by norm_num)
  have hhigh := Int.tmod_lt_of_pos w (show (0 : ℤ) < 2 by norm_num)
  have hsign : 0 ≤ w → 0 ≤ w.tmod 2 := Int.tmod_nonneg 2
  rw [ttlDuration_exact (by omega) (by omega)]
  unfold second
  constructor
  · intro hpos
    omega
  · intro htwo
    omega

end Tickers

section Accepted
variable {Bytes : Type} {unmarshal : Bytes → Except String Config} {bytes : Bytes}
  {authDisabled : Bool} {raw cfg : Config}

theorem process_of_accepted (hraw : unmarshal bytes = .ok raw)
    (h : newConfigFromBytes unmarshal bytes authDisabled = .ok cfg) : raw.process = .ok cfg := by
  obtain ⟨config, hconfig, h⟩ := bind_ok h
  obtain ⟨_, -, h⟩ := bind_ok h
  rw [hraw] at hconfig
  cases hconfig
  exact h

/-- What the rest of the start reads of a processed configuration. -/
theorem process_eq (h : raw.process = .ok cfg) :
    parseDuration raw.metricsReportingIntervalString = .ok cfg.metricsReportingInterval ∧
    cfg.maxTTL = (if raw.maxTTL = 0 then 120000000000 else raw.maxTTL) ∧ cfg.api = raw.api := by
  obtain ⟨metrics, hmetrics, h⟩ := bind_ok h
  obtain ⟨statsd, -, h⟩ := bind_ok h
  cases h
  exact ⟨hmetrics, rfl, rfl⟩

/-- The default of two minutes is long enough. -/
theorem two_seconds_le (h : cfg.maxTTL = (if raw.maxTTL = 0 then 120000000000 else raw.maxTTL)) :
    2 * second ≤ cfg.maxTTL.toInt ↔ raw.maxTTL = 0 ∨ 2 * second ≤ raw.maxTTL.toInt := by
  rw [h]
  split
  next hzero =>
    rw [hzero]
    decide
  next hzero => simp [hzero]

theorem starts_iff (ip : String) :
    Starts ip cfg ↔ 0 < cfg.metricsReportingInterval.toInt ∧ 2 * second ≤ cfg.maxTTL.toInt := by
  constructor
  · intro h
    exact ⟨h.metrics, (registerInterval_pos _).mp h.register⟩
  · rintro ⟨hmetrics, hmax⟩
    have htwo := two_le_wholeSeconds.mpr hmax
    have hle := wholeSeconds_le cfg.maxTTL
    refine ⟨hmetrics, (registerInterval_pos _).mpr hmax, wholeSeconds cfg.maxTTL, rfl, by omega, ?_⟩
    rw [registerInterval, Int.tdiv_eq_ediv_of_nonneg (by omega),
      ttlDuration_exact (by omega) (by omega)]
    unfold second
    omega

theorem tickers_isOk_iff (ip : String) :
    (tickers ip cfg).isOk = true ↔ 0 < cfg.metricsReportingInterval.toInt ∧
      (cfg.api.httpEnabled = true → 2 * second ≤ cfg.maxTTL.toInt) := by
  rw [← newTicker_isOk, ← registerInterval_pos, ← newTicker_isOk]
  unfold tickers constructRouteRegister
  cases newTicker cfg.metricsReportingInterval.toInt with
  | error err => simp [Except.isOk, Except.toBool, bind, Except.bind]
  | ok metrics =>
    cases hhttp : cfg.api.httpEnabled with
    | false => simp [Except.isOk, Except.toBool, bind, Except.bind, pure, Except.pure]
    | true =>
      cases newTicker (registerInterval cfg.maxTTL) with
      | error err => simp [Except.isOk, Except.toBool, bind, Except.bind]
      | ok ticker => simp [Except.isOk, Except.toBool, bind, Except.bind, pure, Except.pure]

/-- An accepted configuration has the intervals it needs exactly if the metrics interval is
positive and `max_ttl` is unset or at least two seconds. The second of the two matters to the
process only if the HTTP server is enabled. -/
theorem accepted_starts_iff (ip : String) (hraw : unmarshal bytes = .ok raw)
    (h : newConfigFromBytes unmarshal bytes authDisabled = .ok cfg) :
    (Starts ip cfg ↔
      (∃ d, parseDuration raw.metricsReportingIntervalString = .ok d ∧ 0 < d.toInt) ∧
        (raw.maxTTL = 0 ∨ 2 * second ≤ raw.maxTTL.toInt)) ∧
    ((tickers ip cfg).isOk = true ↔
      (∃ d, parseDuration raw.metricsReportingIntervalString = .ok d ∧ 0 < d.toInt) ∧
        (raw.api.httpEnabled = true → raw.maxTTL = 0 ∨ 2 * second ≤ raw.maxTTL.toInt)) := by
  obtain ⟨hmetrics, hmax, hapi⟩ := process_eq (process_of_accepted hraw h)
  rw [starts_iff, tickers_isOk_iff, two_seconds_le hmax, hapi, hmetrics]
  simp

end Accepted

section Runs

/-- A configuration with the fields that are required. -/
def plain (maxTTL : Int64) (metrics : String) : Config where
  api := ⟨3000, true, 3001⟩
  adminPort := 9999
  logGuid := "routing_api"
  maxTTL := maxTTL
  systemDomain := "example.com"
  metricsReportingIntervalString := metrics
  statsdClientFlushIntervalString := "10ms"
  oauth := { tokenEndpoint := "uaa.example.com", port := 8443 }
  locket := ⟨"locket.example.com:8891"⟩
  uuid := "an-id"

theorem plain_accepted (maxTTL : Int64) {metrics : String} {d : Int64}
    (h : parseDuration metrics = .ok d) :
    ∃ cfg, newConfigFromBytes .ok (plain maxTTL metrics) false = .ok cfg ∧
      cfg.metricsReportingInterval = d ∧ cfg.api.httpEnabled = true ∧
      cfg.maxTTL = if maxTTL = 0 then 120000000000 else maxTTL := by
  have hstatsd : parseDuration "10ms" = .ok 10000000 := by decide +kernel
  have haccepted : newConfigFromBytes .ok (plain maxTTL metrics) false =
      (plain maxTTL metrics).process := rfl
  rw [haccepted, Config.process, plain, h, hstatsd]
  exact ⟨_, rfl, rfl, rfl, rfl⟩

theorem accepted_starts_thirty_seconds :
    ∃ cfg, newConfigFromBytes .ok (plain 30000000000 "30s") false = .ok cfg ∧
      Starts "127.0.0.1" cfg := by
  have hmetrics : parseDuration "30s" = .ok 30000000000 := by decide +kernel
  obtain ⟨cfg, h, -⟩ := plain_accepted 30000000000 hmetrics
  exact ⟨cfg, h, (accepted_starts_iff "127.0.0.1" rfl h).1.mpr
    ⟨⟨_, hmetrics, by decide⟩, .inr (by decide)⟩⟩

/-- Accepted, and the process panics: a `max_ttl` of one second, and a metrics interval of zero. -/
theorem accepted_panics :
    (∃ cfg, newConfigFromBytes .ok (plain 1000000000 "30s") false = .ok cfg ∧
      registerInterval cfg.maxTTL = 0 ∧ ¬Starts "127.0.0.1" cfg ∧
      ¬(tickers "127.0.0.1" cfg).isOk = true) ∧
    ∃ cfg, newConfigFromBytes .ok (plain 120000000000 "0s") false = .ok cfg ∧
      cfg.metricsReportingInterval = 0 ∧ ¬Starts "127.0.0.1" cfg ∧
      ¬(tickers "127.0.0.1" cfg).isOk = true := by
  have hmetrics : parseDuration "30s" = .ok 30000000000 := by decide +kernel
  have hzero : parseDuration "0s" = .ok 0 := by decide +kernel
  constructor
  · obtain ⟨cfg, h, -, hhttp, hmax⟩ := plain_accepted 1000000000 hmetrics
    refine ⟨cfg, h, ?_, ?_, ?_⟩
    · rw [hmax]
      decide +kernel
    · rw [starts_iff, hmax]
      exact fun hstarts => absurd hstarts.2 (by decide)
    · rw [tickers_isOk_iff, hmax]
      exact fun hok => absurd (hok.2 hhttp) (by decide)
  · obtain ⟨cfg, h, hinterval, -⟩ := plain_accepted 120000000000 hzero
    refine ⟨cfg, h, hinterval, ?_, ?_⟩
    · rw [starts_iff, hinterval]
      exact fun hstarts => absurd hstarts.1 (by decide)
    · rw [tickers_isOk_iff, hinterval]
      exact fun hok => absurd hok.1 (by decide)

end Runs

end RoutingApi.Startup
