import RoutingApi.Client.Requests
import RoutingApi.Models.PortLists
import RoutingApi.Process.Loops

/-! `getNextAvailablePort`: the loops that mark the ports of all groups and look for the first
port of a range that is not marked. The counters have 16 bits. -/
namespace RoutingApi.Client
open Models Process

section Ports

/-- `for p := groupStart; p <= groupEnd; p++ { portSet[p] = true }`; after 65535 comes 0. -/
def markRound (groupEnd : UInt16) (s : UInt16 × List UInt16) :
    UInt16 × List UInt16 ⊕ List UInt16 :=
  if s.1 ≤ groupEnd then .inl (s.1 + 1, s.1 :: s.2) else .inr s.2

def orDiverged {α : Type} : Option α → Except Exit α
  | some a => .ok a
  | none => .error .diverged

variable (fuel : ℕ)

def markRange (portSet : List UInt16) (grp : Range) : Except Exit (List UInt16) :=
  orDiverged (loop (markRound grp.stop) fuel (grp.start, portSet))

def markGroup (portSet : List UInt16) (group : RouterGroup) : Except Exit (List UInt16) := do
  let groupPortRanges ← (ReservablePorts.parse group.reservablePorts).mapError
    fun err => Exit.returned (.plain err)
  groupPortRanges.foldlM (markRange fuel) portSet

/-- `for i := start; i <= end; i++`, left at the first port that is not marked. -/
def searchRound (portSet : List UInt16) (stop i : UInt16) : UInt16 ⊕ Option UInt16 :=
  if i ≤ stop then
    if i ∈ portSet then .inl (i + 1) else .inr (some i)
  else .inr none

def getNextAvailablePort (groups : List RouterGroup) (portRange : Range) :
    Except Exit String := do
  let portSet ← groups.foldlM (markGroup fuel) []
  match ← orDiverged (loop (searchRound portSet portRange.stop) fuel portRange.start) with
  | some i => .ok (toString i.toNat)
  | none => .error (.returned (.api .portRangeExhaustedError
      ("There are no free ports in range: " ++ portRange.string)))

end Ports

section Marking
variable {fuel : ℕ} {portSet portSet' : List UInt16} {grp : Range}

/-- No port of the set is the last one, so that counting on from it does not wrap around. -/
def Below (portSet : List UInt16) : Prop := ∀ p ∈ portSet, p.toNat < 65535

theorem toNat_succ {p : UInt16} (h : p.toNat < 65535) : (p + 1).toNat = p.toNat + 1 := by
  rw [UInt16.toNat_add]
  exact Nat.mod_eq_of_lt (show p.toNat + 1 < 65536 by omega)

theorem toNat_lt_last {p : UInt16} (h : p ≠ 65535) : p.toNat < 65535 := by
  have hlt := p.toNat_lt
  have hne : p.toNat ≠ 65535 := fun heq => h (UInt16.toNat_inj.mp heq)
  omega

theorem mapError_ok {ε ε' α : Type} {f : ε → ε'} {x : Except ε α} {a : α}
    (h : x.mapError f = .ok a) : x = .ok a := by
  cases x with
  | error e => cases h
  | ok b =>
    cases h
    rfl

theorem orDiverged_ok {α : Type} {x : Option α} {a : α} (h : orDiverged x = .ok a) :
    x = some a := by
  cases x with
  | none => cases h
  | some b =>
    cases h
    rfl

/-- A range that reaches to the last port is never left: after 65535 comes 0. -/
theorem markRange_diverges (hstop : grp.stop = 65535) (fuel : ℕ) (portSet : List UInt16) :
    markRange fuel portSet grp = .error .diverged := by
  have hloop : ∀ n s, loop (markRound grp.stop) n s = none := by
    intro n
    induction n with
    | zero => exact fun _ => rfl
    | succ n ih =>
      intro s
      have hle : s.1 ≤ grp.stop := by
        have hlt := s.1.toNat_lt
        rw [hstop, UInt16.le_iff_toNat_le]
        show s.1.toNat ≤ 65535
        omega
      simp only [loop, markRound, hle, if_true]
      exact ih _
  rw [markRange, hloop, orDiverged]

/-- Where the marking of a range is at port `s.1`: what was marked before is, and the ports of
the range up to there are. -/
structure Marking (portSet : List UInt16) (grp : Range) (s : UInt16 × List UInt16) : Prop where
  low : grp.start.toNat ≤ s.1.toNat
  mem : ∀ q, q ∈ s.2 ↔ q ∈ portSet ∨ grp.has q = true ∧ q.toNat < s.1.toNat

theorem Marking.round {s s' : UInt16 × List UInt16} (hstop : grp.stop.toNat < 65535)
    (h : Marking portSet grp s) (hround : markRound grp.stop s = .inl s') :
    Marking portSet grp s' := by
  obtain ⟨p, set⟩ := s
  unfold markRound at hround
  split at hround
  next hle =>
    cases hround
    rw [UInt16.le_iff_toNat_le] at hle
    have hlow : grp.start.toNat ≤ p.toNat := h.low
    have hsucc : (p + 1).toNat = p.toNat + 1 := toNat_succ (by simp only at hle; omega)
    refine ⟨by simp only [hsucc]; omega, ?_⟩
    intro q
    have hmem := h.mem q
    simp only [List.mem_cons, hmem, hsucc, Range.has_iff, Nat.lt_succ_iff]
    constructor
    · rintro (rfl | hq | ⟨hhas, hlt⟩)
      · exact .inr ⟨⟨hlow, hle⟩, le_rfl⟩
      · exact .inl hq
      · exact .inr ⟨hhas, hlt.le⟩
    · rintro (hq | ⟨hhas, hqp⟩)
      · exact .inr (.inl hq)
      · rcases Nat.lt_or_eq_of_le hqp with hlt | heq
        · exact .inr (.inr ⟨hhas, hlt⟩)
        · exact .inl (UInt16.toNat_inj.mp heq)
  next => cases hround

/-- The loop is left above the range, with all of it marked. -/
theorem Marking.leave {s : UInt16 × List UInt16} (h : Marking portSet grp s)
    (hround : markRound grp.stop s = .inr portSet') :
    ∀ q, q ∈ portSet' ↔ q ∈ portSet ∨ grp.has q = true := by
  obtain ⟨p, set⟩ := s
  unfold markRound at hround
  split at hround
  next => cases hround
  next hle =>
    cases hround
    rw [UInt16.le_iff_toNat_le] at hle
    intro q
    rw [h.mem q]
    refine or_congr_right ⟨And.left, fun hhas => ⟨hhas, ?_⟩⟩
    have hq := (Range.has_iff.mp hhas).2
    simp only at hle ⊢
    omega

/-- Marking a range that comes to an end marks exactly the ports of the range. -/
theorem markRange_ok (h : markRange fuel portSet grp = .ok portSet') :
    grp.stop.toNat < 65535 ∧ ∀ q, q ∈ portSet' ↔ q ∈ portSet ∨ grp.has q = true := by
  have hstop : grp.stop.toNat < 65535 := by
    apply toNat_lt_last
    intro heq
    rw [markRange_diverges heq] at h
    cases h
  have hstart : Marking portSet grp (grp.start, portSet) := by
    refine ⟨le_rfl, ?_⟩
    intro q
    simp only [Range.has_iff]
    refine ⟨.inl, ?_⟩
    rintro (hq | hq)
    · exact hq
    · omega
  refine ⟨hstop, ?_⟩
  exact loop_invariant (Q := fun set => ∀ q, q ∈ set ↔ q ∈ portSet ∨ grp.has q = true)
    (fun s s' hs hround => hs.round hstop hround) (fun s r hs hround => hs.leave hround) hstart
    (orDiverged_ok h)

/-- Marking the ports of a range ends unless the range reaches to the last port. -/
theorem markRange_ends (hfuel : 65536 < fuel) (hstop : grp.stop ≠ 65535)
    (portSet : List UInt16) : ∃ portSet', markRange fuel portSet grp = .ok portSet' := by
  have hlast := toNat_lt_last hstop
  obtain ⟨set, hset⟩ := loop_ends (b := markRound grp.stop) (I := fun _ => True)
    (fun s => 65536 - s.1.toNat) (n := fuel) (s := (grp.start, portSet)) (by
      rintro ⟨p, set⟩ s' - hround
      unfold markRound at hround
      split at hround
      next hle =>
        cases hround
        rw [UInt16.le_iff_toNat_le] at hle
        simp only at hle ⊢
        rw [toNat_succ (by omega)]
        exact ⟨trivial, by omega⟩
      next => cases hround) trivial (by simp only; omega)
  exact ⟨set, by rw [markRange, hset, orDiverged]⟩

end Marking

section Groups
variable {fuel : ℕ} {portSet portSet' : List UInt16} {group : RouterGroup}
variable {groups : List RouterGroup} {range : Range}

theorem covers_iff {ports : String} {port : UInt16} {ranges : List Range}
    (h : ReservablePorts.parse ports = .ok ranges) :
    ReservablePorts.covers ports port = true ↔ ∃ r ∈ ranges, r.has port = true := by
  simp [ReservablePorts.covers, h]

/-- A parsed text covers the last port exactly if one of its ranges reaches to it. -/
theorem covers_last_iff {ports : String} {ranges : List Range}
    (h : ReservablePorts.parse ports = .ok ranges) :
    ReservablePorts.covers ports 65535 = true ↔ ∃ r ∈ ranges, r.stop = 65535 := by
  rw [covers_iff h]
  refine exists_congr fun r => and_congr_right fun hr => ?_
  have hle := UInt16.le_iff_toNat_le.mp (ReservablePorts.parse_ok h r hr).2
  have hlt := r.stop.toNat_lt
  rw [Range.has_iff, ← UInt16.toNat_inj]
  change _ ∧ 65535 ≤ _ ↔ _ = 65535
  change r.start.toNat ≤ 65535 ∧ _ ↔ _
  omega

/-- Marking a group that comes to an end marks exactly the ports it covers; the last port is
not one of them. -/
theorem markGroup_ok (h : markGroup fuel portSet group = .ok portSet') :
    (∃ ranges, ReservablePorts.parse group.reservablePorts = .ok ranges) ∧
      ReservablePorts.covers group.reservablePorts 65535 = false ∧
      ∀ q, q ∈ portSet' ↔
        q ∈ portSet ∨ ReservablePorts.covers group.reservablePorts q = true := by
  obtain ⟨ranges, hparse, h⟩ := bind_ok h
  have hranges := mapError_ok hparse
  refine ⟨⟨ranges, hranges⟩, ?_, ?_⟩
  · rw [← Bool.not_eq_true, covers_last_iff hranges]
    rintro ⟨r, hr, hstop⟩
    obtain ⟨s₁, s₂, hmark⟩ := foldlM_each h r hr
    rw [markRange_diverges hstop] at hmark
    cases hmark
  · intro q
    rw [covers_iff hranges]
    exact foldlM_collects (M := fun set q => q ∈ set) (N := fun r q => r.has q = true)
      (fun _ _ _ hmark => (markRange_ok hmark).2) h q

/-- The marked ports are those that a group covers, and never the last one. -/
theorem marked_ok (h : groups.foldlM (markGroup fuel) [] = .ok portSet) :
    Below portSet ∧
      ∀ q, q ∈ portSet ↔ ∃ g ∈ groups, ReservablePorts.covers g.reservablePorts q = true := by
  have hmem : ∀ q, q ∈ portSet ↔
      ∃ g ∈ groups, ReservablePorts.covers g.reservablePorts q = true := by
    intro q
    have hq := foldlM_collects (M := fun set q => q ∈ set)
      (N := fun g q => ReservablePorts.covers (RouterGroup.reservablePorts g) q = true)
      (fun _ _ _ hmark => (markGroup_ok hmark).2.2) h q
    simpa using hq
  refine ⟨?_, hmem⟩
  intro q hq
  apply toNat_lt_last
  rintro rfl
  obtain ⟨g, hg, hcov⟩ := (hmem 65535).mp hq
  obtain ⟨s₁, s₂, hmark⟩ := foldlM_each h g hg
  rw [(markGroup_ok hmark).2.1] at hcov
  cases hcov

/-- The marking stops early at a group whose ports do not parse, or never. -/
theorem marked_error {e : Exit} (h : groups.foldlM (markGroup fuel) [] = .error e) :
    (e = .diverged ∧ (65536 < fuel → ∃ g ∈ groups,
        ReservablePorts.covers g.reservablePorts 65535 = true)) ∨
      ∃ g ∈ groups, ∃ err, ReservablePorts.parse g.reservablePorts = .error err ∧
        e = .returned (.plain err) := by
  obtain ⟨g, hg, set, hgroup⟩ := foldlM_error h
  unfold markGroup at hgroup
  cases hparse : ReservablePorts.parse g.reservablePorts with
  | error err =>
    rw [hparse] at hgroup
    cases hgroup
    exact .inr ⟨g, hg, err, hparse, rfl⟩
  | ok ranges =>
    rw [hparse] at hgroup
    obtain ⟨r, hr, set', hrange⟩ := foldlM_error hgroup
    have hdiverged : e = .diverged := by
      unfold markRange orDiverged at hrange
      split at hrange
      next => cases hrange
      next => exact (Except.error.inj hrange).symm
    refine .inl ⟨hdiverged, ?_⟩
    intro hfuel
    refine ⟨g, hg, (covers_last_iff hparse).mpr ⟨r, hr, ?_⟩⟩
    by_contra hstop
    obtain ⟨set'', hok⟩ := markRange_ends hfuel hstop set'
    rw [hok] at hrange
    cases hrange

end Groups

section Search
variable {fuel : ℕ} {portSet : List UInt16} {groups : List RouterGroup} {range : Range}

/-- Where the search is at port `i`: all ports of the range before it are marked. -/
structure Searching (portSet : List UInt16) (start i : UInt16) : Prop where
  low : start.toNat ≤ i.toNat
  marked : ∀ q, start.toNat ≤ q.toNat → q.toNat < i.toNat → q ∈ portSet

theorem Searching.round {start stop i i' : UInt16} (hbelow : Below portSet)
    (h : Searching portSet start i) (hround : searchRound portSet stop i = .inl i') :
    Searching portSet start i' := by
  unfold searchRound at hround
  split at hround
  · split at hround
    next hmem =>
      cases hround
      have hsucc := toNat_succ (hbelow i hmem)
      have hlow := h.low
      refine ⟨by omega, ?_⟩
      intro q hq hlt
      rcases Nat.lt_or_ge q.toNat i.toNat with hqi | hqi
      · exact h.marked q hq hqi
      · have heq : q = i := UInt16.toNat_inj.mp (by omega)
        exact heq ▸ hmem
    next => cases hround
  · cases hround

/-- What the search can find: the first unmarked port of the range, or that there is none. -/
def Found (portSet : List UInt16) (range : Range) : Option UInt16 → Prop
  | some i => range.has i = true ∧ i ∉ portSet ∧
      ∀ q, range.has q = true → q ∉ portSet → i.toNat ≤ q.toNat
  | none => ∀ q, range.has q = true → q ∈ portSet

theorem Searching.leave {i : UInt16} {found : Option UInt16}
    (h : Searching portSet range.start i) (hround : searchRound portSet range.stop i = .inr found) :
    Found portSet range found := by
  have hbefore : ∀ q, range.has q = true → q ∉ portSet → i.toNat ≤ q.toNat := by
    intro q hq hnot
    by_contra hlt
    exact hnot (h.marked q (Range.has_iff.mp hq).1 (by omega))
  unfold searchRound at hround
  split at hround
  next hle =>
    split at hround
    next => cases hround
    next hnot =>
      cases hround
      exact ⟨Range.has_iff.mpr ⟨h.low, UInt16.le_iff_toNat_le.mp hle⟩, hnot, hbefore⟩
  next hle =>
    cases hround
    rw [UInt16.le_iff_toNat_le] at hle
    intro q hq
    by_contra hnot
    have hqi := hbefore q hq hnot
    have hqs := (Range.has_iff.mp hq).2
    omega

theorem search_ok {found : Option UInt16} (hbelow : Below portSet)
    (h : loop (searchRound portSet range.stop) fuel range.start = some found) :
    Found portSet range found := by
  have hstart : Searching portSet range.start range.start := by
    refine ⟨le_rfl, ?_⟩
    intro q hq hlt
    omega
  exact loop_invariant (fun _ _ hs hround => hs.round hbelow hround)
    (fun _ _ hs hround => hs.leave hround) hstart h

/-- Looking for an unmarked port ends. -/
theorem search_ends (hfuel : 65536 < fuel) (hbelow : Below portSet) (start stop : UInt16) :
    ∃ found, loop (searchRound portSet stop) fuel start = some found := by
  apply loop_ends (I := fun _ => True) (fun i : UInt16 => 65536 - i.toNat) ?_ trivial (by omega)
  intro i i' _ hround
  unfold searchRound at hround
  split at hround
  · split at hround
    next hmem =>
      cases hround
      have hlt := hbelow i hmem
      rw [toNat_succ hlt]
      exact ⟨trivial, by omega⟩
    next => cases hround
  · cases hround

/-- No group covers the port. -/
def Unclaimed (groups : List RouterGroup) (port : UInt16) : Prop :=
  ∀ g ∈ groups, ReservablePorts.covers g.reservablePorts port = false

/-- What the call is to answer: the least port of the range that no group covers, or that the
range is exhausted. -/
inductive NextPort (groups : List RouterGroup) (range : Range) : Except Exit String → Prop
  | found (port : UInt16) (hrange : range.has port = true) (hfree : Unclaimed groups port)
      (hleast : ∀ q, range.has q = true → Unclaimed groups q → port.toNat ≤ q.toNat) :
      NextPort groups range (.ok (toString port.toNat))
  | exhausted (h : ∀ q, range.has q = true → ¬Unclaimed groups q) :
      NextPort groups range (.error (.returned (.api .portRangeExhaustedError
        ("There are no free ports in range: " ++ range.string))))

end Search

section Results
variable {fuel : ℕ} {groups : List RouterGroup} {range : Range} {portSet : List UInt16}

theorem next_of_error {e : Exit} (h : groups.foldlM (markGroup fuel) [] = .error e) :
    getNextAvailablePort fuel groups range = .error e := by
  rw [getNextAvailablePort, h]
  rfl

theorem next_of_marked (h : groups.foldlM (markGroup fuel) [] = .ok portSet) :
    getNextAvailablePort fuel groups range =
      (orDiverged (loop (searchRound portSet range.stop) fuel range.start) >>= fun
        | some i => .ok (toString i.toNat)
        | none => .error (.returned (.api .portRangeExhaustedError
            ("There are no free ports in range: " ++ range.string)))) := by
  rw [getNextAvailablePort, h]
  rfl

/-- After all groups are marked, the search does not end or finds the port. -/
theorem nextPort_of_marked (h : groups.foldlM (markGroup fuel) [] = .ok portSet)
    (hreturns : getNextAvailablePort fuel groups range ≠ .error .diverged) :
    NextPort groups range (getNextAvailablePort fuel groups range) := by
  rw [next_of_marked h] at hreturns ⊢
  obtain ⟨hbelow, hmem⟩ := marked_ok h
  cases hloop : loop (searchRound portSet range.stop) fuel range.start with
  | none =>
    rw [hloop] at hreturns
    exact absurd rfl hreturns
  | some found =>
    have hfree : ∀ q, q ∉ portSet ↔ Unclaimed groups q := by
      intro q
      simp [hmem, Unclaimed]
    have hfound := search_ok hbelow hloop
    cases found with
    | some i =>
      obtain ⟨hrange, hnot, hleast⟩ := hfound
      exact .found i hrange ((hfree i).mp hnot)
        fun q hq hclaim => hleast q hq ((hfree q).mpr hclaim)
    | none => exact .exhausted fun q hq hclaim => (hfree q).mpr hclaim (hfound q hq)

/-- The port found lies in the range, and no group covers it. -/
theorem getNextAvailablePort_ok {ports : String}
    (h : getNextAvailablePort fuel groups range = .ok ports) :
    ∃ port, ports = toString port.toNat ∧ range.has port = true ∧
      ∀ g ∈ groups, ReservablePorts.covers g.reservablePorts port = false := by
  cases hmark : groups.foldlM (markGroup fuel) [] with
  | error e =>
    rw [next_of_error hmark] at h
    cases h
  | ok portSet =>
    have hnext : NextPort groups range (getNextAvailablePort fuel groups range) :=
      nextPort_of_marked hmark (by rw [h]; simp)
    rw [h] at hnext
    generalize hres : Except.ok ports = res at hnext
    cases hnext with
    | found port hrange hfree _ => exact ⟨port, Except.ok.inj hres, hrange, hfree⟩
    | exhausted _ => cases hres

/-- A valid group has ports that parse, unless it has none. -/
theorem parse_of_validate {cfg : PortSettings} {g : RouterGroup} (h : g.validate cfg = .ok ())
    (hports : g.reservablePorts ≠ "") :
    ∃ ranges, ReservablePorts.parse g.reservablePorts = .ok ranges := by
  simp only [RouterGroup.validate, if_neg hports] at h
  split at h
  · cases h
  · split at h
    · cases h
    · split at h
      · cases h
      · obtain ⟨ranges, hparse, -⟩ := (ReservablePorts.validate_iff cfg _).mp h
        exact ⟨ranges, hparse⟩

theorem parse_empty : ReservablePorts.parse "" = .error errInvalidPort := by decide +kernel

/-- A call that returns has answered as it should exactly if no group is without ports: the
text of no ports does not parse. -/
theorem getNextAvailablePort_next_iff (cfg : PortSettings) (groups : List RouterGroup)
    (hvalid : ∀ g ∈ groups, g.validate cfg = .ok ()) (range : Range) (fuel : ℕ)
    (hreturns : getNextAvailablePort fuel groups range ≠ .error .diverged) :
    NextPort groups range (getNextAvailablePort fuel groups range) ↔
      ∀ g ∈ groups, g.reservablePorts ≠ "" := by
  cases hmark : groups.foldlM (markGroup fuel) [] with
  | error e =>
    have hres : getNextAvailablePort fuel groups range = .error e := next_of_error hmark
    rcases marked_error hmark with ⟨rfl, -⟩ | ⟨g, hg, err, hparse, rfl⟩
    · exact absurd hres hreturns
    · rw [hres]
      refine iff_of_false (fun h => by cases h) ?_
      intro hports
      obtain ⟨ranges, hok⟩ := parse_of_validate (hvalid g hg) (hports g hg)
      rw [hparse] at hok
      cases hok
  | ok portSet =>
    refine iff_of_true (nextPort_of_marked hmark hreturns) ?_
    intro g hg hempty
    obtain ⟨s₁, s₂, hgroup⟩ := foldlM_each hmark g hg
    obtain ⟨⟨ranges, hparse⟩, -⟩ := markGroup_ok hgroup
    rw [hempty, parse_empty] at hparse
    cases hparse

/-- A valid TCP group with the ports from 1024 to 1123. -/
def tcpGroup : RouterGroup := ⟨"", "guid-a", "a", "tcp", "1024-1123"⟩

/-- A valid HTTP group. -/
def httpGroup : RouterGroup := ⟨"", "guid-b", "b", "http", ""⟩

/-- The first port after those of the group is the least free one of the range. -/
theorem getNextAvailablePort_after_group :
    getNextAvailablePort 200 [tcpGroup] ⟨1100, 1200⟩ = .ok "1124" ∧
      NextPort [tcpGroup] ⟨1100, 1200⟩ (.ok "1124") := by
  have hres : getNextAvailablePort 200 [tcpGroup] ⟨1100, 1200⟩ = .ok "1124" := by decide +kernel
  have hvalid : ∀ g ∈ [tcpGroup], g.validate ⟨[], false⟩ = .ok () := by decide +kernel
  have hnext := (getNextAvailablePort_next_iff ⟨[], false⟩ [tcpGroup] hvalid ⟨1100, 1200⟩ 200
    (by rw [hres]; simp)).mpr (by decide)
  rw [hres] at hnext
  exact ⟨hres, hnext⟩

/-- With an HTTP group among the groups, the call fails although the range is free. -/
theorem getNextAvailablePort_with_http_group :
    (∀ g ∈ [tcpGroup, httpGroup], g.validate ⟨[], false⟩ = .ok ()) ∧
      getNextAvailablePort 200 [tcpGroup, httpGroup] ⟨2000, 2010⟩ =
        .error (.returned (.plain errInvalidPort)) ∧
      ¬NextPort [tcpGroup, httpGroup] ⟨2000, 2010⟩
        (getNextAvailablePort 200 [tcpGroup, httpGroup] ⟨2000, 2010⟩) := by
  have hres : getNextAvailablePort 200 [tcpGroup, httpGroup] ⟨2000, 2010⟩ =
      .error (.returned (.plain errInvalidPort)) := by decide +kernel
  refine ⟨by decide +kernel, hres, ?_⟩
  rw [hres]
  intro h
  cases h

/-- The call comes to an end exactly if no group covers the last port. -/
theorem getNextAvailablePort_ends_iff (groups : List RouterGroup)
    (hparse : ∀ g ∈ groups, ∃ ranges, ReservablePorts.parse g.reservablePorts = .ok ranges)
    (range : Range) :
    (∃ fuel, getNextAvailablePort fuel groups range ≠ .error .diverged) ↔
      ∀ g ∈ groups, ReservablePorts.covers g.reservablePorts 65535 = false := by
  have herror : ∀ fuel e, groups.foldlM (markGroup fuel) [] = .error e →
      e = .diverged ∧ (65536 < fuel → ∃ g ∈ groups,
        ReservablePorts.covers g.reservablePorts 65535 = true) := by
    intro fuel e hmark
    rcases marked_error hmark with hdiverged | ⟨g, hg, err, herr, -⟩
    · exact hdiverged
    · obtain ⟨ranges, hok⟩ := hparse g hg
      rw [herr] at hok
      cases hok
  constructor
  · rintro ⟨fuel, hreturns⟩ g hg
    cases hmark : groups.foldlM (markGroup fuel) [] with
    | error e =>
      obtain ⟨rfl, -⟩ := herror fuel e hmark
      exact absurd (next_of_error hmark) hreturns
    | ok portSet =>
      obtain ⟨s₁, s₂, hgroup⟩ := foldlM_each hmark g hg
      exact (markGroup_ok hgroup).2.1
  · intro hlast
    refine ⟨65537, ?_⟩
    cases hmark : groups.foldlM (markGroup 65537) [] with
    | error e =>
      obtain ⟨g, hg, hcov⟩ := (herror 65537 e hmark).2 (by decide)
      rw [hlast g hg] at hcov
      cases hcov
    | ok portSet =>
      have hfuel : 65536 < 65537 := by decide
      obtain ⟨found, hfound⟩ := search_ends hfuel (marked_ok hmark).1 range.start range.stop
      rw [next_of_marked hmark, hfound]
      cases found with
      | some i => exact fun h => by cases h
      | none => exact fun h => by cases h

/-- A range up to the last port is searched to its end. -/
theorem getNextAvailablePort_ends_at_last :
    ∃ fuel, getNextAvailablePort fuel [tcpGroup] ⟨65000, 65535⟩ ≠ .error .diverged :=
  (getNextAvailablePort_ends_iff [tcpGroup]
    (by
      intro g hg
      rw [List.mem_singleton] at hg
      subst hg
      exact ⟨[⟨1024, 1123⟩], by decide +kernel⟩) ⟨65000, 65535⟩).mpr (by decide +kernel)

/-- The group of the documentation's example, which covers all ports from 1024 on. -/
def widestGroup : RouterGroup := ⟨"", "guid-c", "c", "tcp", "1024-65535"⟩

/-- With that group the call never returns. -/
theorem getNextAvailablePort_never_ends :
    ReservablePorts.parse widestGroup.reservablePorts = .ok [⟨1024, 65535⟩] ∧
      ∀ fuel, getNextAvailablePort fuel [widestGroup] ⟨2000, 2010⟩ = .error .diverged := by
  have hparse : ReservablePorts.parse widestGroup.reservablePorts = .ok [⟨1024, 65535⟩] := by
    decide +kernel
  refine ⟨hparse, ?_⟩
  intro fuel
  have hmark : markGroup fuel [] widestGroup = .error .diverged := by
    rw [markGroup, hparse]
    change ([⟨1024, 65535⟩] : List Range).foldlM (markRange fuel) [] = _
    rw [List.foldlM_cons, markRange_diverges rfl]
    rfl
  apply next_of_error
  rw [List.foldlM_cons, hmark]
  rfl

end Results
end RoutingApi.Client
