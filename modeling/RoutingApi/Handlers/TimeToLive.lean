import RoutingApi.Handlers.Validator
import RoutingApi.Models.Duration

/-! What passes the create validation has a TTL: it can be dereferenced by everything after the
validation, and its nanoseconds fit in an int64. -/
namespace RoutingApi.Handlers
open Models Database Duration

/-- There is a TTL, and its nanoseconds are exact, positive and within the limit. -/
def Lives (limit : ℤ) (ttl : Option ℤ) : Prop :=
  ∃ t, ttl = some t ∧ ttlDuration t = t * second ∧ 0 < t * second ∧ t * second ≤ limit

theorem Lives.of_accepted {maxTTL limit t : ℤ} (hmax : maxTTL ≤ 9223372036)
    (hlimit : 0 < maxTTL → maxTTL * second ≤ limit) (h0 : 0 < t) (h : t ≤ maxTTL) :
    Lives limit (some t) := by
  have hlimit := hlimit (h0.trans_le h)
  refine ⟨t, rfl, ttlDuration_exact (by omega) (h.trans hmax), ?_⟩
  unfold second at hlimit ⊢
  constructor <;> omega

/-- HTTP routes whose TTLs are defaulted and validated with `maxTTL`. -/
def RoutesLive (parse : String → Except String String) (maxTTL limit : ℤ) : Prop :=
  ∀ routes : List Route,
    (∃ err, validateCreate parse maxTTL (routes.map (Route.setDefaults maxTTL)) = .ok err) ∧
    (validateCreate parse maxTTL (routes.map (Route.setDefaults maxTTL)) = .ok none →
      ∀ r ∈ routes.map (Route.setDefaults maxTTL), Lives limit r.ttl ∧
        (∀ guid now, (r.withModel guid now).isSome) ∧
        ∀ now existing, (Route.updateRoute now existing r).isSome)

/-- TCP mappings whose TTLs are defaulted and validated with `maxTTL`. -/
def MappingsLive (maxTTL limit : ℤ) : Prop :=
  ∀ (m : TcpRouteMapping) (similar : List TcpRouteMapping) (routerGroups : List RouterGroup),
    (∃ err, validateCreateTcpRouteMapping (m.setDefaults maxTTL) similar routerGroups maxTTL =
      .ok err) ∧
    (validateCreateTcpRouteMapping (m.setDefaults maxTTL) similar routerGroups maxTTL = .ok none →
      Lives limit (m.setDefaults maxTTL).ttl ∧
        (∀ guid now, ((m.setDefaults maxTTL).withModel guid now).isSome) ∧
        ∀ now existing,
          (TcpRouteMapping.updateTcpRouteMapping now existing (m.setDefaults maxTTL)).isSome)

section Accepted
variable {maxTTL limit : ℤ} (hmax : maxTTL ≤ 9223372036)
  (hlimit : 0 < maxTTL → maxTTL * second ≤ limit)
include hmax hlimit

theorem routesLive (parse : String → Except String String) : RoutesLive parse maxTTL limit := by
  intro routes
  constructor
  · apply validateCreate_returns
    intro r hr
    obtain ⟨r₀, -, rfl⟩ := List.mem_map.mp hr
    obtain ⟨ttl, hdefault⟩ := r₀.setDefaults_eq maxTTL
    simp [hdefault]
  · intro haccepted r hr
    obtain ⟨-, ttl, httl, hpos, hle⟩ := validateCreate_accepts.mp haccepted r hr
    have hlives := Lives.of_accepted hmax hlimit hpos hle
    exact ⟨httl ▸ hlives, by simp [Route.withModel, httl], by simp [Route.updateRoute, httl]⟩

theorem mappingsLive : MappingsLive maxTTL limit := by
  intro m similar routerGroups
  constructor
  · apply validateCreateTcpRouteMapping_returns
    obtain ⟨ttl, hdefault⟩ := m.setDefaults_eq maxTTL
    simp [hdefault]
  · intro haccepted
    obtain ⟨hvalid, -⟩ := validateCreateTcpRouteMapping_accepts.mp haccepted
    obtain ⟨-, ⟨ttl, httl, hpos, hle⟩, -⟩ := validateTcpRouteMapping_accepts.mp hvalid
    have hlives := Lives.of_accepted hmax hlimit hpos hle
    exact ⟨httl ▸ hlives, by simp [TcpRouteMapping.withModel, httl],
      by simp [TcpRouteMapping.updateTcpRouteMapping, httl]⟩

end Accepted

/-- The seconds of the configured maximum, cut off or as the handlers get them from a float: TTLs
within them do not wrap. The float may round up to the next second, but not below 2^23 seconds. -/
theorem expiry_does_not_wrap (parse : String → Except String String) (MaxTTL : Int64) :
    RoutesLive parse (MaxTTL.toInt.tdiv second) MaxTTL.toInt ∧
    MappingsLive (MaxTTL.toInt.tdiv second) MaxTTL.toInt ∧
    RoutesLive parse (wholeSeconds MaxTTL) (wholeSeconds MaxTTL * second) ∧
    MappingsLive (wholeSeconds MaxTTL) (wholeSeconds MaxTTL * second) ∧
    (0 ≤ MaxTTL.toInt → MaxTTL.toInt < 2 ^ 23 * second →
      wholeSeconds MaxTTL = MaxTTL.toInt.tdiv second) := by
  have hfloat := wholeSeconds_le MaxTTL
  have hcut : MaxTTL.toInt.tdiv second ≤ 9223372036 ∧
      (0 < MaxTTL.toInt.tdiv second → MaxTTL.toInt.tdiv second * second ≤ MaxTTL.toInt) := by
    by_cases hneg : MaxTTL.toInt < 0
    · have hle := tdiv_second_nonpos hneg.le
      constructor <;> omega
    · have hlt : MaxTTL.toInt < 2 ^ 63 := MaxTTL.toInt_lt
      rw [Int.tdiv_eq_ediv_of_nonneg (not_lt.mp hneg), second]
      constructor <;> omega
  refine ⟨routesLive hcut.1 hcut.2 parse, mappingsLive hcut.1 hcut.2,
    routesLive hfloat (fun _ => le_rfl) parse, mappingsLive hfloat fun _ => le_rfl, ?_⟩
  intro hnonneg hlt
  obtain ⟨s, n, hd, hn⟩ := nonneg_split hnonneg
  have hs : s < 2 ^ 23 := by
    unfold second at hd hlt
    omega
  rw [wholeSeconds_of_lt hd hn hs, hd, Int.tdiv_eq_ediv_of_nonneg (by omega), second]
  omega

/-- A route and a mapping without a TTL under a maximum of two minutes. -/
theorem expiry_does_not_wrap_two_minutes :
    let r : Route := { route := "a.example.com", port := 80, ip := "10.0.0.1" }
    let m : TcpRouteMapping :=
      { routerGroupGuid := "tcp", externalPort := 1024, hostIP := "10.0.0.1", hostPort := 80 }
    let g : RouterGroup := ⟨"tcp", "tcp", "default-tcp", "tcp", "1024-1123"⟩
    validateCreate Except.ok 120 [r.setDefaults 120] = .ok none ∧
    Lives 120000000000 (r.setDefaults 120).ttl ∧
    validateCreateTcpRouteMapping (m.setDefaults 120) [] [g] 120 = .ok none ∧
    Lives 120000000000 (m.setDefaults 120).ttl := by
  intro r m g
  obtain ⟨hroutes, hmappings, -⟩ :=
    expiry_does_not_wrap Except.ok (Int64.ofInt 120000000000)
  have hr : validateCreate Except.ok 120 [r.setDefaults 120] = .ok none := by decide
  have hm : validateCreateTcpRouteMapping (m.setDefaults 120) [] [g] 120 = .ok none := by
    decide
  exact ⟨hr, ((hroutes [r]).2 hr _ (List.mem_singleton.mpr rfl)).1, hm,
    ((hmappings m [] [g]).2 hm).1⟩

end RoutingApi.Handlers
