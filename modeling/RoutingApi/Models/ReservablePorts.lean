import RoutingApi.Models.RouterGroup
import RoutingApi.Process.Loops

/-! Reservable ports: the text `8000-8010,9000` of a router group, its ranges, and the
validation of router groups. -/
namespace RoutingApi.Models

/-- `ReservedSystemComponentPorts` and `FailOnRouterPortConflicts`, set once at the start. -/
structure PortSettings where
  reservedSystemComponentPorts : List UInt16
  failOnRouterPortConflicts : Bool

/-- Both ends are inclusive. -/
structure Range where
  start : UInt16
  stop : UInt16
  deriving DecidableEq, Repr

def errInvalidPort : String := "port must be between 1024 and 65535"

namespace Range

def portIsInRange (port : UInt16) : Bool := port ≥ 1024

/-- `NewRange`; the order of the two ends is the caller's business. -/
def new (start stop : UInt16) : Except String Range :=
  if portIsInRange start && portIsInRange stop then .ok ⟨start, stop⟩ else .error errInvalidPort

def max (r other : Range) : UInt16 := if r.stop > other.stop then r.stop else other.stop

def min (r other : Range) : UInt16 := if r.start < other.start then r.start else other.start

/-- The differences are taken in 16 bits and compared in 64. -/
def overlaps (r other : Range) : Bool :=
  (r.max other - r.min other).toNat ≤ (r.stop - r.start).toNat + (other.stop - other.start).toNat

def string (r : Range) : String :=
  if r.start = r.stop then toString r.start.toNat
  else "[" ++ toString r.start.toNat ++ "-" ++ toString r.stop.toNat ++ "]"

/-- The port lies in the range. -/
def has (r : Range) (port : UInt16) : Bool := r.start ≤ port && port ≤ r.stop

end Range

/-- `strconv.ParseUint(s, 10, 16)`: digits only, and at least one. -/
def parseUint (s : List Char) : Option UInt16 :=
  if s ≠ [] ∧ s.all Char.isDigit ∧ Nat.ofDigitChars 10 s 0 < 2 ^ 16 then
    some (UInt16.ofNat (Nat.ofDigitChars 10 s 0))
  else none

def parseRange (r : List Char) : Except String Range :=
  match r.splitOn '-' with
  | [n] =>
    match parseUint n with
    | none => .error errInvalidPort
    | some n => Range.new n n
  | [first, last] =>
    match parseUint first, parseUint last with
    | none, _ => .error ("range (" ++ String.ofList r ++ ") requires a starting port")
    | _, none => .error ("range (" ++ String.ofList r ++ ") requires an ending port")
    | some start, some stop =>
      if start > stop then
        .error ("range (" ++ String.ofList r ++ ") must be in ascending numeric order")
      else Range.new start stop
  | _ => .error ("range (" ++ String.ofList r ++ ") has too many '-' separators")

namespace ReservablePorts

/-- The ranges between the commas, or the first error. -/
def parse (p : String) : Except String (List Range) := (p.toList.splitOn ',').mapM parseRange

/-- The first two ranges at different places that overlap. -/
def overlapping (portRanges : List Range) : Option (Range × Range) :=
  portRanges.zipIdx.findSome? fun (r1, i) => portRanges.zipIdx.findSome? fun (r2, j) =>
    if i ≠ j ∧ r1.overlaps r2 = true then some (r1, r2) else none

/-- `%v` of a slice of numbers. -/
def listed (ports : List UInt16) : String :=
  "[" ++ String.intercalate " " (ports.map fun p => toString p.toNat) ++ "]"

def validate (cfg : PortSettings) (p : String) : Except String Unit := do
  let portRanges ← parse p
  match overlapping portRanges with
  | some (r1, r2) => .error ("Overlapping values: " ++ r1.string ++ " and " ++ r2.string)
  | none =>
    if cfg.failOnRouterPortConflicts && portRanges.any fun r1 =>
        cfg.reservedSystemComponentPorts.any fun reservedPort => r1.has reservedPort then
      .error ("Invalid ports. Reservable ports must not include the following reserved system " ++
        "component ports: " ++ listed cfg.reservedSystemComponentPorts ++ ".")
    else .ok ()

/-- The port is one of those the text stands for. -/
def covers (p : String) (port : UInt16) : Bool :=
  match parse p with
  | .ok ranges => ranges.any fun r => r.has port
  | .error _ => false

end ReservablePorts

namespace RouterGroup

/-- `models.RouterGroup{}`. -/
def zero : RouterGroup := ⟨"", "", "", "", ""⟩

def validate (cfg : PortSettings) (g : RouterGroup) : Except String Unit :=
  if g.name = "" then .error "missing name in router group"
  else if g.type = "" then .error "missing type in router group"
  else if g.reservablePorts = "" then
    if g.type = "tcp" then .error ("missing reservable_ports in router group: " ++ g.name)
    else .ok ()
  else if g.type = "http" then
    .error "reservable ports are not supported for router groups of type http"
  else ReservablePorts.validate cfg g.reservablePorts

/-- `RouterGroups.Validate`: the error of the first group that has one. -/
def validateAll (cfg : PortSettings) : List RouterGroup → Except String Unit
  | [] => .ok ()
  | r :: rest => do
    validate cfg r
    validateAll cfg rest

theorem validateAll_ok {cfg : PortSettings} {g : List RouterGroup} :
    validateAll cfg g = .ok () ↔ ∀ r ∈ g, validate cfg r = .ok () := by
  induction g with
  | nil => simp [validateAll]
  | cons r rest ih =>
    simp only [validateAll, List.forall_mem_cons, ← ih]
    cases hr : validate cfg r with
    | error e => simp [bind, Except.bind]
    | ok u => simp [bind, Except.bind]

end RouterGroup

section Parsing

theorem Range.has_iff {r : Range} {port : UInt16} :
    r.has port = true ↔ r.start.toNat ≤ port.toNat ∧ port.toNat ≤ r.stop.toNat := by
  simp [Range.has, UInt16.le_iff_toNat_le]

theorem Range.new_ok {start stop : UInt16} {r : Range} (h : Range.new start stop = .ok r) :
    r = ⟨start, stop⟩ ∧ 1024 ≤ start ∧ 1024 ≤ stop := by
  unfold Range.new at h
  split at h
  next hc =>
    simp only [portIsInRange, Bool.and_eq_true, decide_eq_true_eq] at hc
    cases h
    exact ⟨rfl, hc⟩
  next => cases h

/-- A range that was parsed starts at 1024 or later and is not empty. -/
theorem parseRange_ok {s : List Char} {r : Range} (h : parseRange s = .ok r) :
    1024 ≤ r.start ∧ r.start ≤ r.stop := by
  unfold parseRange at h
  split at h
  · split at h
    · cases h
    · obtain ⟨rfl, hstart, -⟩ := Range.new_ok h
      exact ⟨hstart, UInt16.le_refl _⟩
  · split at h
    · cases h
    · cases h
    · split at h
      · cases h
      next hle =>
        obtain ⟨rfl, hstart, -⟩ := Range.new_ok h
        exact ⟨hstart, UInt16.not_lt.mp hle⟩
  · cases h

namespace ReservablePorts

theorem parse_ok {p : String} {ranges : List Range} (h : parse p = .ok ranges) :
    ∀ r ∈ ranges, 1024 ≤ r.start ∧ r.start ≤ r.stop := by
  intro r hr
  obtain ⟨s, -, hs⟩ := Process.mapM_ok_mem h hr
  exact parseRange_ok hs

end ReservablePorts

theorem parseUint_toString (n : UInt16) : parseUint (toString n.toNat).toList = some n := by
  have hall : (Nat.toDigits 10 n.toNat).all Char.isDigit = true := by
    rw [List.all_eq_true]
    exact fun c hc => Nat.isDigit_of_mem_toDigits (by decide) (by decide) hc
  have hval : Nat.ofDigitChars 10 (Nat.toDigits 10 n.toNat) 0 = n.toNat :=
    Nat.ofDigitChars_toDigits (by decide) (by decide)
  have hlt : n.toNat < 2 ^ 16 := n.toNat_lt
  rw [Nat.toString_eq_repr, Nat.repr_eq_ofList_toDigits, String.toList_ofList]
  unfold parseUint
  rw [hval, if_pos ⟨Nat.toDigits_ne_nil, hall, hlt⟩, UInt16.ofNat_toNat]

/-- A single port, printed, is the range of that port. -/
theorem parse_toString {n : UInt16} (hn : 1024 ≤ n) :
    ReservablePorts.parse (toString n.toNat) = .ok [⟨n, n⟩] := by
  have hdigit : ∀ c ∈ (toString n.toNat).toList, c.isDigit = true := by
    intro c hc
    rw [Nat.toString_eq_repr, Nat.repr_eq_ofList_toDigits, String.toList_ofList] at hc
    exact Nat.isDigit_of_mem_toDigits (by decide) (by decide) hc
  have hcomma : ',' ∉ (toString n.toNat).toList := by
    intro hc
    have := hdigit _ hc
    simp at this
  have hdash : '-' ∉ (toString n.toNat).toList := by
    intro hc
    have := hdigit _ hc
    simp at this
  have hrange : parseRange (toString n.toNat).toList = .ok ⟨n, n⟩ := by
    unfold parseRange
    rw [List.splitOn_eq_singleton hdash]
    simp only [parseUint_toString]
    simp [Range.new, Range.portIsInRange, hn]
  unfold ReservablePorts.parse
  rw [List.splitOn_eq_singleton hcomma, List.mapM_cons, hrange]
  rfl

end Parsing
end RoutingApi.Models
