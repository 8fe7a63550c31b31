import RoutingApi.Client.NextPort

/-! `ReservePort` of the client: it lists the groups, picks a port none of them covers, looks
its own group up by name, and creates or updates it with that port. -/
namespace RoutingApi.Client
open Relational Models Process Program Handlers RouterGroupsHandler Migrations
open Groups (Store Unused)
open Database (Env)

section Calls
variable (fuel : ℕ)

/-- The digits of `strconv.Atoi`. -/
def atoiDigits (s : List Char) : Option ℤ :=
  if s ≠ [] ∧ s.all Char.isDigit then some (Nat.ofDigitChars 10 s 0) else none

/-- `strconv.Atoi` on 64 bits. -/
def atoi (s : String) : Except Exit ℤ :=
  let n := match s.toList with
    | '-' :: digits => (atoiDigits digits).map Neg.neg
    | '+' :: digits => atoiDigits digits
    | digits => atoiDigits digits
  match n with
  | none => .error (.returned (.plain ("strconv.Atoi: parsing " ++ s.quote ++ ": invalid syntax")))
  | some n =>
    if -2 ^ 63 ≤ n ∧ n < 2 ^ 63 then .ok n
    else .error (.returned (.plain ("strconv.Atoi: parsing " ++ s.quote ++ ": value out of range")))

/-- The end of `ReservePort`: update the group that was found, or create it. -/
def claimPort (groupName reservablePort : String) (existing : RouterGroup) : ClientM ℤ := do
  if existing ≠ .zero then
    updateRouterGroup { existing with reservablePorts := reservablePort }
  else createRouterGroup ⟨"", "", groupName, "tcp", reservablePort⟩
  ofExcept (atoi reservablePort)

/-- The error of the lookup is not looked at. -/
def lookUpAndClaim (groupName reservablePort : String) : ClientM ℤ := do
  let existing ← (routerGroupWithName groupName).attempt Exit.isReturned
  claimPort groupName reservablePort (existing.toOption.getD .zero)

/-- The part of `ReservePort` after the range was accepted. -/
def reserveIn (groupName : String) (range : Range) : ClientM ℤ := do
  let groups ← routerGroups
  let reservablePort ← ofExcept (getNextAvailablePort fuel groups range)
  lookUpAndClaim groupName reservablePort

def reservePort (groupName portRange : String) : ClientM ℤ := do
  let ranges ← ofExcept ((ReservablePorts.parse portRange).mapError fun err => .returned (.plain err))
  if ranges.length > 1 then
    .fail (.returned (.api .processRequestError "multiple port ranges are not supported"))
  else
    match ranges with
    | [] => .fail (.panicked "runtime error: index out of range [0] with length 0")
    | range :: _ =>
      if range.start = range.stop then
        .fail (.returned (.api .processRequestError "single port is not supported"))
      else reserveIn fuel groupName range

end Calls

section Reservation
variable {cfg : PortSettings} {env : Env} {s : Schema RouterGroupColumn} {net : ℕ → Delivery}

/-- What a reservation is to achieve: a group of the name holds exactly the port, the port is
one of the range, no other group covers it, and the other groups are as before. -/
def Reserved (name portRange : String) (w w' : Store) (p : ℤ) : Prop :=
  ∃ port : UInt16, p = port.toNat ∧ ReservablePorts.covers portRange port = true ∧
    ∃ x ∈ w'.stored, x.name = name ∧ x.reservablePorts = toString port.toNat ∧
      ∀ y, y.guid ≠ x.guid → (y ∈ w'.stored ↔ y ∈ w.stored) ∧
        (y ∈ w'.stored → ReservablePorts.covers y.reservablePorts port = false)

/-- The lookup by name, which follows the list of all groups, ends with an error. -/
def LookupFails (cfg : PortSettings) (env : Env) (s : Schema RouterGroupColumn)
    (net : ℕ → Delivery) (name : String) (w : Server) : Prop :=
  ∃ e, ((routerGroupWithName name).run (server cfg env s net)
    (routerGroups.run (server cfg env s net) w).2).1 = .error e

theorem atoi_toString (n : UInt16) : atoi (toString n.toNat) = .ok (n.toNat : ℤ) := by
  have hlt := n.toNat_lt
  have hdigit : ∀ c ∈ Nat.toDigits 10 n.toNat, c.isDigit = true :=
    fun c hc => Nat.isDigit_of_mem_toDigits (by decide) (by decide) hc
  have hdigits : atoiDigits (Nat.toDigits 10 n.toNat) = some (n.toNat : ℤ) := by
    have hval : Nat.ofDigitChars 10 (Nat.toDigits 10 n.toNat) 0 = n.toNat :=
      Nat.ofDigitChars_toDigits (by decide) (by decide)
    rw [atoiDigits, if_pos ⟨Nat.toDigits_ne_nil, List.all_eq_true.mpr hdigit⟩, hval]
  have hbound : -2 ^ 63 ≤ (n.toNat : ℤ) ∧ (n.toNat : ℤ) < 2 ^ 63 := by omega
  have hchars : (toString n.toNat).toList = Nat.toDigits 10 n.toNat := by
    rw [Nat.toString_eq_repr, Nat.repr_eq_ofList_toDigits, String.toList_ofList]
  unfold atoi
  rw [hchars]
  -- a sign would have to be one of the digits
  split
  next digits hsplit =>
    have := hdigit '-' (by simp [hsplit])
    simp at this
  next digits hsplit =>
    have := hdigit '+' (by simp [hsplit])
    simp at this
  next => simp only [hdigits, hbound, and_self, if_true]

theorem covers_self {port : UInt16} (h : 1024 ≤ port) :
    ReservablePorts.covers (toString port.toNat) port = true := by
  rw [ReservablePorts.covers, parse_toString h]
  simp [Range.has]

variable {fuel : ℕ} {w : Server} {port : UInt16} {x : RouterGroupDB} {name : String}

/-- The ports of a range that has no low port are not low. -/
theorem le_of_has {range : Range} (hrange : 1024 ≤ range.start) (hport : range.has port = true) :
    1024 ≤ port := by
  have hle := (Range.has_iff.mp hport).1
  rw [UInt16.le_iff_toNat_le] at hrange ⊢
  omega

/-- No stored group covers the port. -/
def Free (w : Store) (port : UInt16) : Prop :=
  ∀ x ∈ w.stored, ReservablePorts.covers x.reservablePorts port = false

/-- A free port is not the one that a stored group holds. -/
theorem Free.ne {w : Store} (hfree : Free w port) (hport : 1024 ≤ port) (hx : x ∈ w.stored) :
    x.reservablePorts ≠ toString port.toNat := by
  intro hports
  have hcov := hfree x hx
  rw [hports, covers_self hport] at hcov
  cases hcov

theorem claimPort_found {ports : String} (hname : x.name ≠ "") :
    claimPort name ports (sent x) =
      doRequest (.update x.guid ⟨x.guid, x.name, x.type, ports⟩) >>= fun _ =>
        ofExcept (atoi ports) := by
  have hne : sent x ≠ .zero := fun h => hname (congrArg RouterGroup.name h)
  rw [claimPort, if_pos hne, updateRouterGroup, Program.bind_assoc]
  rfl

theorem claimPort_missing {ports : String} :
    claimPort name ports .zero =
      doRequest (.create ⟨"", name, "tcp", ports⟩) >>= fun _ => ofExcept (atoi ports) := by
  rw [claimPort, if_neg (not_not.mpr rfl), createRouterGroup, Program.bind_assoc]
  rfl

/-- An update of a stored group to a free port is carried out. -/
theorem replaces_of_update {w v : Store} {token : Except String Unit} {a : Answer}
    (hx : x ∈ w.stored) (hport : 1024 ≤ port) (hfree : Free w port)
    (h : Served cfg env w
      (.update token x.guid (.ok ⟨x.guid, x.name, x.type, toString port.toNat⟩)) a v)
    (hcode : a.code ≤ 299) :
    w.Replaces v { x with reservablePorts := toString port.toNat } := by
  obtain ⟨y, hy, hguid, heffect⟩ := Served.update_ok h hcode
  have hyx : y = x := Store.eq_of_guid hy hx hguid
  subst hyx
  rcases heffect with ⟨hports, -⟩ | hreplaces
  · exact absurd hports.symm (hfree.ne hport hx)
  · exact hreplaces

/-- Claiming a port for a group that was found replaces the ports of that group. -/
theorem wp_claimPort_found (hw : Unused env w.store) (hx : x ∈ w.store.stored)
    (hname : x.name ≠ "") (hport : 1024 ≤ port) (hfree : Free w.store port) :
    wp (server cfg env s net) (claimPort name (toString port.toNat) (sent x)) w fun r w' =>
      ∀ p, r = .ok p → p = port.toNat ∧
        w.store.Replaces w'.store { x with reservablePorts := toString port.toNat } := by
  rw [claimPort_found hname]
  apply wp_bind
  apply wp_mono (wp_doRequest (answerable _ _ _ hw))
  intro r w' hasked
  cases hasked with
  | failed e _ _ => exact nofun
  | answered token a _ hcode h =>
    simp only [atoi_toString, ofExcept_ok, wp_ret]
    intro p hp
    cases hp
    exact ⟨rfl, replaces_of_update hx hport hfree h hcode⟩

/-- Claiming a port for a group that was not found creates it, or finds it after all and does
nothing. -/
theorem wp_claimPort_missing (hw : Unused env w.store) :
    wp (server cfg env s net) (claimPort name (toString port.toNat) .zero) w fun r w' =>
      ∀ p, r = .ok p → p = port.toNat ∧
        ((∃ x ∈ w.store.stored, x.name = name ∧ x.type = "tcp" ∧ w.store.Same w'.store) ∨
          (∀ x ∈ w.store.stored, ¬(x.name = name ∧ x.type = "tcp")) ∧
            ∃ guid, env.newV4 w.store.uuids = .ok guid ∧
              w'.store.stored = w.store.stored ++ [⟨guid, name, "tcp", toString port.toNat⟩]) := by
  rw [claimPort_missing]
  apply wp_bind
  apply wp_mono (wp_doRequest (answerable _ _ _ hw))
  intro r w' hasked
  cases hasked with
  | failed e _ _ => exact nofun
  | answered token a _ hcode h =>
    simp only [atoi_toString, ofExcept_ok, wp_ret]
    intro p hp
    cases hp
    exact ⟨rfl, Served.create_ok h hcode⟩

section Outcomes
variable {portRange : String} {w w' : Store}

/-- A port is reserved by a row that holds it, if the other rows stay as they are. -/
theorem reserved_of_row {row : RouterGroupDB}
    (hrange : ReservablePorts.covers portRange port = true) (hfree : Free w port)
    (hrow : row ∈ w'.stored) (hname : row.name = name)
    (hports : row.reservablePorts = toString port.toNat)
    (hothers : ∀ y, y.guid ≠ row.guid → (y ∈ w'.stored ↔ y ∈ w.stored)) :
    Reserved name portRange w w' port.toNat := by
  refine ⟨port, rfl, hrange, row, hrow, hname, hports, ?_⟩
  intro y hguid
  have hmem := hothers y hguid
  exact ⟨hmem, fun hy => hfree y (hmem.mp hy)⟩

theorem reserved_of_replaces (hrange : ReservablePorts.covers portRange port = true)
    (hfree : Free w port) (hname : x.name = name)
    (h : w.Replaces w' { x with reservablePorts := toString port.toNat }) :
    Reserved name portRange w w' port.toNat := by
  apply reserved_of_row hrange hfree ((h.mem _).mpr (.inr rfl)) hname rfl
  intro y hguid
  rw [h.mem]
  constructor
  · rintro (⟨hy, -⟩ | rfl)
    · exact hy
    · exact absurd rfl hguid
  · exact fun hy => .inl ⟨hy, hguid⟩

theorem reserved_of_created {guid type : String}
    (hrange : ReservablePorts.covers portRange port = true) (hfree : Free w port)
    (h : w'.stored = w.stored ++ [⟨guid, name, type, toString port.toNat⟩]) :
    Reserved name portRange w w' port.toNat := by
  have hrow : ⟨guid, name, type, toString port.toNat⟩ ∈ w'.stored := by simp [h]
  apply reserved_of_row hrange hfree hrow rfl rfl
  intro y hguid
  rw [h, List.mem_append, List.mem_singleton]
  constructor
  · rintro (hy | rfl)
    · exact hy
    · exact absurd rfl hguid
  · exact .inl

theorem not_reserved_of_stored (hport : 1024 ≤ port) (hfree : Free w port)
    (h : w'.stored = w.stored) : ¬Reserved name portRange w w' port.toNat := by
  rintro ⟨port', hp, -, x, hx, -, hports, -⟩
  have hpp : port = port' := UInt16.toNat_inj.mp (by omega)
  subst hpp
  rw [h] at hx
  exact hfree.ne hport hx hports

theorem reserved_congr {w₁ : Store} {p : ℤ} (h : w₁.stored = w.stored) :
    Reserved name portRange w₁ w' p ↔ Reserved name portRange w w' p := by
  simp only [Reserved, h]

end Outcomes

/-- From the lookup on, with a port that is free. -/
theorem wp_lookUpAndClaim {portRange : String} (hname : name ≠ "") (hw : Unused env w.store)
    (hport : 1024 ≤ port) (hrange : ReservablePorts.covers portRange port = true)
    (hfree : Free w.store port) :
    wp (server cfg env s net) (lookUpAndClaim name (toString port.toNat)) w fun r w' =>
      ∀ p, r = .ok p → (Reserved name portRange w.store w'.store p ↔
        ¬((∃ e, ((routerGroupWithName name).run (server cfg env s net) w).1 = .error e) ∧
          ∃ x ∈ w.store.stored, x.name = name ∧ x.type = "tcp")) := by
  apply wp_bind
  apply wp_attempt
  apply wp_mono (wp_run (wp_routerGroupWithName hname w))
  rintro r w₁ ⟨⟨hkept, hlookup⟩, hrun⟩
  rw [hrun]
  have hw₁ : Unused env w₁.store := hkept.unused hw
  have hfree₁ : Free w₁.store port := by
    unfold Free
    rw [hkept.stored]
    exact hfree
  rcases hlookup with ⟨e, rfl⟩ | ⟨x, hx, hxname, rfl⟩
  · -- the lookup failed: the group is created, unless it is there
    apply wp_mono (wp_claimPort_missing hw₁)
    intro r w' hclaim p hp
    obtain ⟨rfl, houtcome⟩ := hclaim p hp
    rw [← reserved_congr hkept.stored]
    rw [hkept.stored] at houtcome
    rcases houtcome with ⟨y, hy, hyname, hytype, hsame⟩ | ⟨hnew, guid, -, hstored⟩
    · exact iff_of_false (not_reserved_of_stored hport hfree₁ hsame.stored)
        (not_not.mpr ⟨⟨_, rfl⟩, y, hy, hyname, hytype⟩)
    · rw [← hkept.stored] at hstored
      refine iff_of_true (reserved_of_created hrange hfree₁ hstored) ?_
      rintro ⟨-, y, hy, hmatch⟩
      exact hnew y hy hmatch
  · -- the lookup found the group, which is updated
    rw [← hkept.stored] at hx
    apply wp_mono (wp_claimPort_found hw₁ hx (hxname ▸ hname) hport hfree₁)
    intro r w' hclaim p hp
    obtain ⟨rfl, hreplaces⟩ := hclaim p hp
    rw [← reserved_congr hkept.stored]
    refine iff_of_true (reserved_of_replaces hrange hfree₁ hxname hreplaces) ?_
    rintro ⟨⟨e, he⟩, -⟩
    cases he

theorem wp_reserveIn {portRange : String} {range : Range} (hname : name ≠ "")
    (hw : Unused env w.store) (hparse : ReservablePorts.parse portRange = .ok [range]) :
    wp (server cfg env s net) (reserveIn fuel name range) w fun r w' => ∀ p, r = .ok p →
      (Reserved name portRange w.store w'.store p ↔
        ¬(LookupFails cfg env s net name w ∧
          ∃ x ∈ w.store.stored, x.name = name ∧ x.type = "tcp")) := by
  apply wp_bind
  apply wp_mono (wp_run (wp_routerGroups w))
  rintro r w₁ ⟨⟨hkept, hlisted⟩, hrun⟩
  rcases hlisted with ⟨e, rfl⟩ | rfl
  · exact nofun
  · cases hnext : getNextAvailablePort fuel (w.store.stored.map sent) range with
    | error e =>
      simp only [hnext]
      exact nofun
    | ok ports =>
      obtain ⟨port, rfl, hhas, hfree⟩ := getNextAvailablePort_ok hnext
      have hport : 1024 ≤ port :=
        le_of_has (ReservablePorts.parse_ok hparse range List.mem_cons_self).1 hhas
      have hrange : ReservablePorts.covers portRange port = true :=
        (covers_iff hparse).mpr ⟨range, List.mem_cons_self, hhas⟩
      have hfree₁ : Free w₁.store port := by
        intro x hx
        rw [hkept.stored] at hx
        exact hfree (sent x) (List.mem_map_of_mem hx)
      simp only [hnext, ofExcept_ok, ret_bind]
      apply wp_mono (wp_lookUpAndClaim hname (hkept.unused hw) hport hrange hfree₁)
      intro r w' hclaim p hp
      have hiff := hclaim p hp
      rw [reserved_congr hkept.stored, hkept.stored] at hiff
      rw [hiff, LookupFails, hrun]

/-- A call that returns a port has reserved it, exactly if the lookup did not fail while a TCP
group of the name was stored. -/
theorem reservePort_reserves_iff (cfg : PortSettings) (env : Env) (s : Schema RouterGroupColumn)
    (net : ℕ → Delivery) (fuel : ℕ) (name portRange : String) (hname : name ≠ "") (w : Server)
    (hw : Unused env w.store) (p : ℤ)
    (hp : ((reservePort fuel name portRange).run (server cfg env s net) w).1 = .ok p) :
    Reserved name portRange w.store
        ((reservePort fuel name portRange).run (server cfg env s net) w).2.store p ↔
      ¬(LookupFails cfg env s net name w ∧
        ∃ x ∈ w.store.stored, x.name = name ∧ x.type = "tcp") := by
  have hwp : wp (server cfg env s net) (reservePort fuel name portRange) w fun r w' =>
      ∀ p, r = .ok p → (Reserved name portRange w.store w'.store p ↔
        ¬(LookupFails cfg env s net name w ∧
          ∃ x ∈ w.store.stored, x.name = name ∧ x.type = "tcp")) := by
    unfold reservePort
    cases hparse : ReservablePorts.parse portRange with
    | error err => exact nofun
    | ok ranges =>
      apply wp_ite
      · exact fun _ => nofun
      · intro hlength
        match ranges with
        | [] => exact nofun
        | range :: rest =>
          apply wp_ite
          · exact fun _ => nofun
          · intro _
            have hrest : rest = [] := List.length_eq_zero_iff.mp (by simp at hlength; simp [hlength])
            subst hrest
            exact wp_reserveIn hname hw hparse
  exact hwp p hp

/-- A server that holds the group `a` with the ports from 1024 to 1123. -/
def oneGroupServer : Server := ⟨oneGroup, 0⟩

/-- Every request reaches the server, except those with the given number. -/
def served (except : ℕ → Prop) [DecidablePred except] (n : ℕ) : Delivery :=
  if except n then .refused (.api .dbCommunicationError "unavailable") else .served (.ok ())

/-- With every request served, the group gets the first port of the range. -/
theorem reservePort_of_served :
    ((reservePort 200 "a" "2000-2010").run
      (server ⟨[], false⟩ .quiet (routerGroupSchema .mysql) (served fun _ => False))
      oneGroupServer).1 = .ok 2000 ∧
    Reserved "a" "2000-2010" oneGroup ((reservePort 200 "a" "2000-2010").run
      (server ⟨[], false⟩ .quiet (routerGroupSchema .mysql) (served fun _ => False))
      oneGroupServer).2.store 2000 := by
  have hrun : ((reservePort 200 "a" "2000-2010").run
      (server ⟨[], false⟩ .quiet (routerGroupSchema .mysql) (served fun _ => False))
      oneGroupServer).1 = .ok 2000 := by decide +kernel
  refine ⟨hrun, (reservePort_reserves_iff _ _ _ _ _ _ _ (by decide) oneGroupServer oneGroup_unused
    _ hrun).mpr ?_⟩
  rintro ⟨⟨e, he⟩, -⟩
  have hok : ((routerGroupWithName "a").run
      (server ⟨[], false⟩ .quiet (routerGroupSchema .mysql) (served fun _ => False))
      (routerGroups.run (server ⟨[], false⟩ .quiet (routerGroupSchema .mysql)
        (served fun _ => False)) oneGroupServer).2).1.isOk = true := by decide +kernel
  rw [he] at hok
  cases hok

/-- The lookup fails, the create answers with the group as it is, and the call returns a port
that the group does not hold. -/
theorem reservePort_of_failed_lookup :
    let result := (reservePort 200 "a" "2000-2010").run
      (server ⟨[], false⟩ .quiet (routerGroupSchema .mysql) (served fun n => n = 1))
      oneGroupServer
    result.1 = .ok 2000 ∧ result.2.store.stored = [⟨"guid-a", "a", "tcp", "1024-1123"⟩] ∧
      ¬Reserved "a" "2000-2010" oneGroup result.2.store 2000 := by
  intro result
  have hstored : result.2.store.stored = [⟨"guid-a", "a", "tcp", "1024-1123"⟩] := by
    decide +kernel
  refine ⟨by decide +kernel, hstored, ?_⟩
  rintro ⟨port, hport, -, x, hx, -, hports, -⟩
  have hport : port.toNat = 2000 := by omega
  rw [hstored, List.mem_singleton] at hx
  rw [hx, hport] at hports
  exact absurd hports (by decide +kernel)

end Reservation
end RoutingApi.Client
