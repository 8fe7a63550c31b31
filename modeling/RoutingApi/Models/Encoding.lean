import RoutingApi.Models.TcpRoute
import RoutingApi.Models.YamlPorts
import RoutingApi.Text.Json

/-! Routes and TCP route mappings in JSON, as events and the bodies of requests and responses carry
them. -/
namespace RoutingApi.Models
open Text (Json)
open Text.Json

section Fields
variable {σ τ : Type}

/-- A field that is not a pointer. -/
def plain (name : String) (decode : Json → Option τ) (get : σ → τ) (put : τ → σ → σ) :
    StructField σ where
  name := name.toList
  set v x := (decodeInto decode (get x) v).map fun y => put y x

def optional (name : String) (decode : Json → Option τ) (put : Option τ → σ → σ) :
    StructField σ where
  name := name.toList
  set v x := (decodePointer decode v).map fun y => put y x

/-- A field that is a struct itself. -/
def nested (name : String) (fields : List (StructField τ)) (get : σ → τ) (put : τ → σ → σ) :
    StructField σ where
  name := name.toList
  set v x := (decodeStruct fields v (get x)).map fun y => put y x

/-- `omitempty`. -/
def omitEmpty (empty : Bool) (name : String) (v : Json) : List (List Char × Json) :=
  if empty then [] else [(name.toList, v)]

variable {fields : List (StructField σ)} {f : StructField σ} {name : String}
  {decode : Json → Option τ} {get : σ → τ} {put : τ → σ → σ} {v : Json} {x : σ} {y : τ}
  {ms : List (List Char × Json)}

theorem decode_plain (hf : lookup fields name.toList = some (plain name decode get put))
    (hnull : v ≠ .null) (h : decode v = some y) :
    decodeMembers fields ((name.toList, v) :: ms) x = decodeMembers fields ms (put y x) := by
  apply decodeMembers_cons hf
  unfold plain decodeInto
  simp only [h, Option.map_some]

theorem decode_optional {put : Option τ → σ → σ} {y : Option τ}
    (hf : lookup fields name.toList = some (optional name decode put))
    (h : decodePointer decode v = some y) :
    decodeMembers fields ((name.toList, v) :: ms) x = decodeMembers fields ms (put y x) := by
  apply decodeMembers_cons hf
  simp only [optional, h, Option.map_some]

theorem decode_nested {fields' : List (StructField τ)}
    (hf : lookup fields name.toList = some (nested name fields' get put))
    (h : decodeStruct fields' v (get x) = some y) :
    decodeMembers fields ((name.toList, v) :: ms) x = decodeMembers fields ms (put y x) := by
  apply decodeMembers_cons hf
  simp only [nested, h, Option.map_some]

/-- A field that may be left out is read back if its zero value is the one it has then. -/
theorem decode_omitEmpty {empty : Bool} {x' : σ} (hempty : empty = true → x' = x)
    (h : decodeMembers fields ((name.toList, v) :: ms) x = decodeMembers fields ms x') :
    decodeMembers fields (omitEmpty empty name v ++ ms) x = decodeMembers fields ms x' := by
  cases empty with
  | true => rw [hempty rfl]; rfl
  | false => exact h

theorem plain_omitEmpty {empty : Bool} (h : Plain v) : ∀ m ∈ omitEmpty empty name v, Plain m.2 := by
  cases empty with
  | true => exact fun m hm => by cases hm
  | false => simpa [omitEmpty] using h

theorem plain_pointer {encode : τ → Json} (h : ∀ x, Plain (encode x)) (p : Option τ) :
    Plain (pointer encode p) := by
  cases p with
  | none => exact .null
  | some x => exact h x

end Fields

theorem plain_text (s : String) : Plain (text s) := .str s.toList

theorem text_ne_null (s : String) : text s ≠ .null := by simp [text]

theorem int_ne_null (x : ℤ) : int x ≠ .null := by simp [int]

theorem decodePointer_int {p : Option ℤ} (h : ∀ x ∈ p, IsInt x) :
    decodePointer decodeInt (pointer int p) = some p :=
  decodePointer_pointer fun x hx => ⟨decodeInt_int (h x hx), int_ne_null x⟩

theorem decodePointer_string (p : Option String) :
    decodePointer decodeString (pointer text p) = some p :=
  decodePointer_pointer fun x _ => ⟨decodeString_text x, text_ne_null x⟩

namespace ModificationTag

def encode (t : ModificationTag) : Json :=
  .obj [("guid".toList, text t.guid), ("index".toList, int t.index.toNat)]

def fields : List (StructField ModificationTag) :=
  [plain "guid" decodeString (·.guid) fun s t => { t with guid := s },
    plain "index" (decodeUint 32) (·.index.toNat) fun n t => { t with index := .ofNat n }]

theorem plain_encode (t : ModificationTag) : Plain t.encode := by
  apply Plain.obj
  simp only [List.forall_mem_cons, List.not_mem_nil, false_implies, implies_true, and_true]
  exact ⟨.str _, .int _⟩

theorem decode_encode (t t₀ : ModificationTag) : decodeStruct fields t.encode t₀ = some t := by
  have hindex : decodeUint 32 (int t.index.toNat) = some t.index.toNat :=
    decodeUint_int t.index.toNat_lt
  rw [encode, decodeStruct, decode_plain rfl (text_ne_null _) (decodeString_text t.guid),
    decode_plain rfl (int_ne_null _) hindex, decodeMembers]
  simp

end ModificationTag

namespace Route

/-- `json.Marshal`; `Guid` and `ExpiresAt` are not written. -/
def encode (r : Route) : Json :=
  .obj ([("route".toList, text r.route), ("port".toList, int r.port.toNat),
    ("ip".toList, text r.ip), ("ttl".toList, pointer int r.ttl),
    ("log_guid".toList, text r.logGuid)] ++
    (omitEmpty (r.routeServiceUrl = "") "route_service_url" (text r.routeServiceUrl) ++
    [("modification_tag".toList, r.modificationTag.encode)]))

def fields : List (StructField Route) :=
  [plain "route" decodeString (·.route) fun s r => { r with route := s },
    plain "port" (decodeUint 16) (·.port.toNat) fun n r => { r with port := .ofNat n },
    plain "ip" decodeString (·.ip) fun s r => { r with ip := s },
    optional "ttl" decodeInt fun p r => { r with ttl := p },
    plain "log_guid" decodeString (·.logGuid) fun s r => { r with logGuid := s },
    plain "route_service_url" decodeString (·.routeServiceUrl) fun s r =>
      { r with routeServiceUrl := s },
    nested "modification_tag" ModificationTag.fields (·.modificationTag) fun t r =>
      { r with modificationTag := t }]

def decode (v : Json) : Option Route := decodeStruct fields v zero

theorem decode_encode {r : Route} (h : ∀ ttl ∈ r.ttl, IsInt ttl) : decode r.encode = some r.entity := by
  have hport : decodeUint 16 (int r.port.toNat) = some r.port.toNat :=
    decodeUint_int r.port.toNat_lt
  rw [encode, decode, decodeStruct]
  simp only [List.cons_append, List.nil_append]
  rw [decode_plain rfl (text_ne_null _) (decodeString_text r.route),
    decode_plain rfl (int_ne_null _) hport, decode_plain rfl (text_ne_null _) (decodeString_text r.ip),
    decode_optional rfl (decodePointer_int h),
    decode_plain rfl (text_ne_null _) (decodeString_text r.logGuid),
    decode_omitEmpty ?_ (decode_plain rfl (text_ne_null _) (decodeString_text r.routeServiceUrl)),
    decode_nested rfl (ModificationTag.decode_encode _ _), decodeMembers]
  · simp [entity, zero]
  · intro hempty
    simp [of_decide_eq_true hempty, zero]

/-- The text of a route. -/
def marshal (r : Route) : List Char := print r.encode

/-- `json.Unmarshal` into a route. -/
def unmarshal (s : List Char) : Option Route := (parse s).bind decode

theorem plain_encode (r : Route) : Plain r.encode := by
  have htag := r.modificationTag.plain_encode
  apply Plain.obj
  simp only [List.forall_mem_append, List.forall_mem_cons, List.not_mem_nil, false_implies,
    implies_true, and_true, htag]
  exact ⟨⟨.str _, .int _, .str _, plain_pointer .int r.ttl, .str _⟩, plain_omitEmpty (.str _)⟩

/-- What is written for a route is read as what JSON shows of it. -/
theorem unmarshal_marshal {r : Route} (h : ∀ ttl ∈ r.ttl, IsInt ttl) :
    unmarshal r.marshal = some r.entity := by
  rw [unmarshal, marshal, parse_print r.plain_encode, Option.bind_some, decode_encode h]

end Route

namespace TcpRouteMapping

def encode (m : TcpRouteMapping) : Json :=
  .obj ([("router_group_guid".toList, text m.routerGroupGuid),
    ("backend_port".toList, int m.hostPort.toNat), ("backend_tls_port".toList, int m.hostTLSPort),
    ("backend_ip".toList, text m.hostIP)] ++
    (omitEmpty m.sniHostname.isNone "backend_sni_hostname" (pointer text m.sniHostname) ++
    (omitEmpty m.sniRewriteHostname.isNone "sni_rewrite_hostname"
      (pointer text m.sniRewriteHostname) ++
    ([("instance_id".toList, text m.instanceId), ("port".toList, int m.externalPort.toNat),
      ("modification_tag".toList, m.modificationTag.encode)] ++
    (omitEmpty m.ttl.isNone "ttl" (pointer int m.ttl) ++
    ([("isolation_segment".toList, text m.isolationSegment)] ++
    (omitEmpty (!m.terminateFrontendTLS) "terminate_frontend_tls" (.bool m.terminateFrontendTLS) ++
    (omitEmpty (m.alpns = "") "alpns" (text m.alpns) ++
    (omitEmpty (!m.enableBackendMTLS) "enable_backend_mtls" (.bool m.enableBackendMTLS) ++
      [])))))))))

def fields : List (StructField TcpRouteMapping) :=
  [plain "router_group_guid" decodeString (·.routerGroupGuid) fun s m =>
      { m with routerGroupGuid := s },
    plain "backend_port" (decodeUint 16) (·.hostPort.toNat) fun n m => { m with hostPort := .ofNat n },
    plain "backend_tls_port" decodeInt (·.hostTLSPort) fun n m => { m with hostTLSPort := n },
    plain "backend_ip" decodeString (·.hostIP) fun s m => { m with hostIP := s },
    optional "backend_sni_hostname" decodeString fun p m => { m with sniHostname := p },
    optional "sni_rewrite_hostname" decodeString fun p m => { m with sniRewriteHostname := p },
    plain "instance_id" decodeString (·.instanceId) fun s m => { m with instanceId := s },
    plain "port" (decodeUint 16) (·.externalPort.toNat) fun n m => { m with externalPort := .ofNat n },
    nested "modification_tag" ModificationTag.fields (·.modificationTag) fun t m =>
      { m with modificationTag := t },
    optional "ttl" decodeInt fun p m => { m with ttl := p },
    plain "isolation_segment" decodeString (·.isolationSegment) fun s m =>
      { m with isolationSegment := s },
    plain "terminate_frontend_tls" decodeBool (·.terminateFrontendTLS) fun b m =>
      { m with terminateFrontendTLS := b },
    plain "alpns" decodeString (·.alpns) fun s m => { m with alpns := s },
    plain "enable_backend_mtls" decodeBool (·.enableBackendMTLS) fun b m =>
      { m with enableBackendMTLS := b }]

def decode (v : Json) : Option TcpRouteMapping := decodeStruct fields v zero

theorem decode_encode {m : TcpRouteMapping} (htls : IsInt m.hostTLSPort)
    (httl : ∀ ttl ∈ m.ttl, IsInt ttl) : decode m.encode = some m.entity := by
  have hport (p : UInt16) : decodeUint 16 (int p.toNat) = some p.toNat := decodeUint_int p.toNat_lt
  have hbool (b : Bool) : decodeBool (.bool b) = some b := rfl
  rw [encode, decode, decodeStruct]
  simp only [List.cons_append, List.nil_append]
  rw [decode_plain rfl (text_ne_null _) (decodeString_text m.routerGroupGuid),
    decode_plain rfl (int_ne_null _) (hport m.hostPort),
    decode_plain rfl (int_ne_null _) (decodeInt_int htls),
    decode_plain rfl (text_ne_null _) (decodeString_text m.hostIP),
    decode_omitEmpty ?_ (decode_optional rfl (decodePointer_string m.sniHostname)),
    decode_omitEmpty ?_ (decode_optional rfl (decodePointer_string m.sniRewriteHostname)),
    decode_plain rfl (text_ne_null _) (decodeString_text m.instanceId),
    decode_plain rfl (int_ne_null _) (hport m.externalPort),
    decode_nested rfl (ModificationTag.decode_encode _ _),
    decode_omitEmpty ?_ (decode_optional rfl (decodePointer_int httl)),
    decode_plain rfl (text_ne_null _) (decodeString_text m.isolationSegment),
    decode_omitEmpty ?_ (decode_plain rfl (by simp) (hbool _)),
    decode_omitEmpty ?_ (decode_plain rfl (text_ne_null _) (decodeString_text m.alpns)),
    decode_omitEmpty ?_ (decode_plain rfl (by simp) (hbool _)), decodeMembers]
  · simp [entity, zero]
  all_goals
    intro hempty
    simp at hempty
    simp [hempty, zero]

def marshal (m : TcpRouteMapping) : List Char := print m.encode

def unmarshal (s : List Char) : Option TcpRouteMapping := (parse s).bind decode

theorem plain_encode (m : TcpRouteMapping) : Plain m.encode := by
  have htag := m.modificationTag.plain_encode
  apply Plain.obj
  simp only [List.forall_mem_append, List.forall_mem_cons, List.not_mem_nil, false_implies,
    implies_true, and_true, htag]
  exact ⟨⟨.str _, .int _, .int _, .str _⟩, plain_omitEmpty (plain_pointer plain_text _),
    plain_omitEmpty (plain_pointer plain_text _), ⟨.str _, .int _⟩,
    plain_omitEmpty (plain_pointer .int _), .str _, plain_omitEmpty (.bool _),
    plain_omitEmpty (.str _), plain_omitEmpty (.bool _)⟩

theorem unmarshal_marshal {m : TcpRouteMapping} (htls : IsInt m.hostTLSPort)
    (httl : ∀ ttl ∈ m.ttl, IsInt ttl) : unmarshal m.marshal = some m.entity := by
  rw [unmarshal, marshal, parse_print m.plain_encode, Option.bind_some, decode_encode htls httl]

end TcpRouteMapping
end RoutingApi.Models
