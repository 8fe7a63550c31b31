import RoutingApi.Client.ReservePort

/-! Several clients that reserve ports at the same server, with their requests interleaved.
Each picks its port from a list it read before, and the server compares it with nothing. -/
namespace RoutingApi.Client
open Relational Models Process Program Handlers RouterGroupsHandler Migrations
open Groups (Store Unused Follows)
open Database (Env)

section Statements
variable {ι : Type} [DecidableEq ι]

/-- The name and the range of a call. -/
structure Reservation where
  groupName : String
  portRange : String

abbrev Clients (ι : Type) := Pool Ask (fun _ => Except Err Answer) Exit ℤ Server ι

def clients (fuel : ℕ) (w : Server) (calls : ι → Reservation) : Clients ι :=
  ⟨w, fun i => reservePort fuel (calls i).groupName (calls i).portRange⟩

/-- The unit of interleaving is a request. -/
abbrev move (cfg : PortSettings) (env : Env) (s : Schema RouterGroupColumn) (net : ℕ → Delivery)
    (P : Clients ι) (m : Move Empty ι) : Clients ι :=
  P.move (server cfg env s net) (fun a _ => a.elim) m

/-- No two calls that have succeeded returned the same port. -/
def Distinct (P : Clients ι) : Prop :=
  ∀ i j p, i ≠ j → P.threads i = .ret p → P.threads j ≠ .ret p

/-- The port that a request carries is covered by no group that is stored. -/
def CarriesFree (w : Store) (body : RouterGroupJson) : Prop :=
  ∀ x ∈ w.stored, ∀ port ∈ parseUint body.reservablePorts.toList,
    ReservablePorts.covers x.reservablePorts port = false

/-- The condition for a request that writes: its port is still free, and a group that it
creates is not there yet. -/
def ClaimsFree (w : Store) : Option Ask → Prop
  | some (.create body) => CarriesFree w body ∧
      ∀ x ∈ w.stored, ¬(x.name = body.name ∧ x.type = body.type)
  | some (.update _ body) => CarriesFree w body
  | _ => True

def ClaimsFreeMove (P : Clients ι) : Move Empty ι → Prop
  | .step i => ClaimsFree P.world.store (P.threads i).next?
  | .env a => a.elim

instance (w : Store) (body : RouterGroupJson) : Decidable (CarriesFree w body) :=
  -- over the one port there is, where the search may also find "over all ports"
  have (x : RouterGroupDB) : Decidable (∀ port ∈ parseUint body.reservablePorts.toList,
      ReservablePorts.covers x.reservablePorts port = false) := Option.decidableForallMem _
  inferInstanceAs (Decidable (∀ x ∈ w.stored, ∀ port ∈ parseUint body.reservablePorts.toList,
    ReservablePorts.covers x.reservablePorts port = false))

instance (w : Store) : (ask : Option Ask) → Decidable (ClaimsFree w ask)
  | some (.create body) => inferInstanceAs (Decidable (CarriesFree w body ∧
      ∀ x ∈ w.stored, ¬(x.name = body.name ∧ x.type = body.type)))
  | some (.update _ body) => inferInstanceAs (Decidable (CarriesFree w body))
  | none | some (.list _) => isTrue trivial

instance (P : Clients ι) : (m : Move Empty ι) → Decidable (ClaimsFreeMove P m)
  | .step i => inferInstanceAs (Decidable (ClaimsFree P.world.store (P.threads i).next?))
  | .env a => a.elim

end Statements

section Steps
variable {cfg : PortSettings} {env : Env} {s : Schema RouterGroupColumn} {net : ℕ → Delivery}
variable {fuel : ℕ} {w w' : Server} {name : String} {port : UInt16}

theorem single_doRequest (ask : Ask) : (doRequest ask).Single := by
  refine ⟨ask, _, rfl, ?_⟩
  intro r
  cases r <;> rfl

theorem single_listRouterGroups (name : String) : (listRouterGroups name).Single := by
  apply (single_doRequest _).bind
  intro a
  cases a <;> rfl

theorem single_routerGroupWithName (name : String) : (routerGroupWithName name).Single := by
  apply (single_listRouterGroups name).bind
  intro groups
  cases groups <;> rfl

/-- Where a client with the given group name can be, and what it knows of the table there. -/
inductive Standing (fuel : ℕ) (w : Store) (name : String) : ClientM ℤ → Prop
  | listing (range : Range) (hrange : 1024 ≤ range.start) :
      Standing fuel w name (reserveIn fuel name range)
  | looking (port : UInt16) (hport : 1024 ≤ port) :
      Standing fuel w name (lookUpAndClaim name (toString port.toNat))
  | updating (port : UInt16) (x : RouterGroupDB) (hport : 1024 ≤ port) (hx : x ∈ w.stored)
      (hname : x.name = name) :
      Standing fuel w name (claimPort name (toString port.toNat) (sent x))
  | creating (port : UInt16) (hport : 1024 ≤ port) :
      Standing fuel w name (claimPort name (toString port.toNat) .zero)
  | returned (port : UInt16) (x : RouterGroupDB) (hport : 1024 ≤ port) (hx : x ∈ w.stored)
      (hname : x.name = name) (hports : x.reservablePorts = toString port.toNat) :
      Standing fuel w name (.ret port.toNat)
  | stopped (e : Exit) : Standing fuel w name (.fail e)

/-- The groups of other names are still there. -/
def Spares (name : String) (w w' : Store) : Prop :=
  ∀ x ∈ w.stored, x.name ≠ name → x ∈ w'.stored

theorem Standing.spared {name' : String} {w w' : Store} {p : ClientM ℤ}
    (h : Standing fuel w name p) (hne : name ≠ name') (hspares : Spares name' w w') :
    Standing fuel w' name p := by
  cases h with
  | listing range hrange => exact .listing range hrange
  | looking port hport => exact .looking port hport
  | updating port x hport hx hname =>
    exact .updating port x hport (hspares x hx (hname ▸ hne)) hname
  | creating port hport => exact .creating port hport
  | returned port x hport hx hname hports =>
    exact .returned port x hport (hspares x hx (hname ▸ hne)) hname hports
  | stopped e => exact .stopped e

/-- A call begins by stopping or by listing the groups. -/
theorem reservePort_start (fuel : ℕ) (name portRange : String) :
    (∃ e, reservePort fuel name portRange = .fail e) ∨
      ∃ range : Range, 1024 ≤ range.start ∧
        reservePort fuel name portRange = reserveIn fuel name range := by
  unfold reservePort
  cases hparse : ReservablePorts.parse portRange with
  | error err => exact .inl ⟨_, rfl⟩
  | ok ranges =>
    simp only [Except.mapError, ofExcept_ok, ret_bind]
    split
    · exact .inl ⟨_, rfl⟩
    · match ranges with
      | [] => exact .inl ⟨_, rfl⟩
      | range :: rest =>
        dsimp only
        split
        · exact .inl ⟨_, rfl⟩
        · exact .inr ⟨range, (ReservablePorts.parse_ok hparse range List.mem_cons_self).1, rfl⟩

/-- What one request of a client does: the client goes on, the others' groups are spared, and
a port that it returns was free before. -/
structure Stepped (env : Env) (fuel : ℕ) (name : String) (w : Store) (p : ClientM ℤ)
    (r : ClientM ℤ × Server) : Prop where
  standing : Standing fuel r.2.store name r.1
  spares : Spares name w r.2.store
  unused : Unused env r.2.store
  free : ∀ q, r.1 = .ret q → p = .ret q ∨ ∃ port, q = port.toNat ∧ Free w port

theorem Kept.spares (h : Kept w w') : Spares name w.store w'.store := by
  intro x hx _
  rw [h.stored]
  exact hx

theorem Asked.follows {ask : Ask} {r : Except Exit Answer} (h : Asked cfg env w ask r w') :
    Follows env w.store w'.store := by
  cases h with
  | answered token a _ _ h => exact h.follows
  | failed e _ h =>
    rcases h with h | ⟨token, a, h⟩
    · rw [h]
      exact .refl _
    · exact h.follows

/-- A request spares what every answer to it spares. -/
theorem Asked.spares {ask : Ask} {r : Except Exit Answer} (h : Asked cfg env w ask r w')
    (hserved : ∀ token a v, Served cfg env w.store (ask.request token) a v →
      Spares name w.store v) : Spares name w.store w'.store := by
  cases h with
  | answered token a _ _ h => exact hserved token a _ h
  | failed e _ h =>
    rcases h with h | ⟨token, a, h⟩
    · intro x hx _
      rw [h]
      exact hx
    · exact hserved token a _ h

/-- A create leaves all groups where they are. -/
theorem Served.create_spares {token : Except String Unit} {body : RouterGroupJson} {a : Answer}
    {w w' : Store} (h : Served cfg env w (.create token (.ok body)) a w') :
    ∀ x ∈ w.stored, x ∈ w'.stored := by
  intro x hx
  cases h with
  | refused _ _ _ _ htable _ => exact (Store.stored_congr htable).symm ▸ hx
  | existing _ _ _ _ _ _ _ h => exact h.stored.symm ▸ hx
  | created _ _ row _ _ _ _ _ hstored _ =>
    rw [hstored]
    exact List.mem_append_left _ hx

/-- An update leaves the groups with other guids where they are. -/
theorem Served.update_spares {token : Except String Unit} {guid : String} {body : RouterGroupJson}
    {a : Answer} {w w' : Store} (h : Served cfg env w (.update token guid (.ok body)) a w') :
    ∀ x ∈ w.stored, x.guid ≠ guid → x ∈ w'.stored := by
  intro x hx hne
  cases h with
  | refused _ _ _ _ htable _ => exact (Store.stored_congr htable).symm ▸ hx
  | kept _ _ _ _ _ _ h => exact h.stored.symm ▸ hx
  | updated _ _ y row _ _ hrow _ h =>
    refine (h.mem x).mpr (.inl ⟨hx, ?_⟩)
    rw [hrow]
    exact hne

/-- A program that still has a call to make has not returned. -/
theorem ret_ne_of_next {p : ClientM ℤ} {ask : Ask} (hp : p.next? = some ask) (q : ℤ) :
    p ≠ .ret q := by
  rintro rfl
  cases hp

theorem next?_claimPort_found {ports : String} {x : RouterGroupDB} (hname : x.name ≠ "") :
    (claimPort name ports (sent x)).next? =
      some (.update x.guid ⟨x.guid, x.name, x.type, ports⟩) := by
  rw [claimPort_found hname]
  rfl

theorem stepped_reserveIn (hw : Unused env w.store) {range : Range} (hrange : 1024 ≤ range.start) :
    Stepped env fuel name w.store (reserveIn fuel name range)
      ((reserveIn fuel name range).advance (server cfg env s net) w) := by
  apply advance_of_wp (single_listRouterGroups "") (wp_routerGroups w)
  · rintro groups w' ⟨hkept, hgroups⟩
    cases hnext : getNextAvailablePort fuel groups range with
    | error e => exact ⟨.stopped e, hkept.spares, hkept.unused hw, nofun⟩
    | ok ports =>
      obtain ⟨port, rfl, hhas, -⟩ := getNextAvailablePort_ok hnext
      have hport : 1024 ≤ port := le_of_has hrange hhas
      simp only [ofExcept_ok, ret_bind]
      refine ⟨.looking port hport, hkept.spares, hkept.unused hw, ?_⟩
      exact fun q hq => absurd hq (ret_ne_of_next rfl q)
  · rintro e w' ⟨hkept, -⟩
    exact ⟨.stopped e, hkept.spares, hkept.unused hw, nofun⟩

theorem stepped_lookUpAndClaim (hw : Unused env w.store) (hname : name ≠ "")
    (hport : 1024 ≤ port) :
    Stepped env fuel name w.store (lookUpAndClaim name (toString port.toNat))
      ((lookUpAndClaim name (toString port.toNat)).advance (server cfg env s net) w) := by
  have hlookup : wp (server cfg env s net) ((routerGroupWithName name).attempt Exit.isReturned) w
      fun r w' => Kept w w' ∧ ∃ existing, r = .ok existing ∧ ((∃ e, existing = .error e) ∨
        ∃ x ∈ w.store.stored, x.name = name ∧ existing = .ok (sent x)) := by
    apply wp_attempt
    apply wp_mono (wp_routerGroupWithName hname w)
    rintro r w' ⟨hkept, ⟨e, rfl⟩ | ⟨x, hx, hxname, rfl⟩⟩
    · exact ⟨hkept, _, rfl, .inl ⟨_, rfl⟩⟩
    · exact ⟨hkept, _, rfl, .inr ⟨x, hx, hxname, rfl⟩⟩
  apply advance_of_wp (single_routerGroupWithName name).attempt hlookup
  · rintro _ w' ⟨hkept, existing, heq, hexisting⟩
    cases heq
    rcases hexisting with ⟨e, rfl⟩ | ⟨x, hx, hxname, rfl⟩
    · refine ⟨.creating port hport, hkept.spares, hkept.unused hw, ?_⟩
      exact fun q hq => absurd hq (ret_ne_of_next rfl q)
    · refine ⟨.updating port x hport (hkept.stored.symm ▸ hx) hxname, hkept.spares,
        hkept.unused hw, ?_⟩
      intro q hq
      exact absurd hq (ret_ne_of_next (next?_claimPort_found (hxname ▸ hname)) q)
  · rintro e w' ⟨hkept, -⟩
    exact ⟨.stopped e, hkept.spares, hkept.unused hw, nofun⟩

theorem carries_free {guid type : String} (h : CarriesFree w.store ⟨guid, name, type, toString port.toNat⟩) :
    Free w.store port := by
  intro x hx
  exact h x hx port (parseUint_toString port)

/-- A request that claims a free port for the name and touches no group of another one. -/
theorem stepped_claim {ask : Ask} (hids : env.Uuids) (hw : Unused env w.store)
    (hport : 1024 ≤ port) (hfree : Free w.store port)
    (hspares : ∀ token a v, Served cfg env w.store (ask.request token) a v →
      Spares name w.store v)
    (hclaims : ∀ token a v, Served cfg env w.store (ask.request token) a v → a.code ≤ 299 →
      ∃ x ∈ v.stored, x.name = name ∧ x.reservablePorts = toString port.toNat) :
    Stepped env fuel name w.store
      (doRequest ask >>= fun _ => ofExcept (atoi (toString port.toNat)))
      ((doRequest ask >>= fun _ => ofExcept (atoi (toString port.toNat))).advance
        (server cfg env s net) w) := by
  apply advance_of_wp (single_doRequest _) (wp_doRequest (answerable _ _ _ hw))
  · intro a w' hasked
    have hunused := hw.follows hids hasked.follows
    have hspared := hasked.spares hspares
    cases hasked with
    | answered token _ _ hcode h =>
      obtain ⟨x, hx, hname, hports⟩ := hclaims token a _ h hcode
      simp only [atoi_toString, ofExcept_ok]
      refine ⟨.returned port x hport hx hname hports, hspared, hunused, ?_⟩
      intro q hq
      cases hq
      exact .inr ⟨port, rfl, hfree⟩
  · intro e w' hasked
    exact ⟨.stopped e, hasked.spares hspares, hw.follows hids hasked.follows, nofun⟩

theorem stepped_claimPort_found {x : RouterGroupDB} (hids : env.Uuids) (hw : Unused env w.store)
    (hx : x ∈ w.store.stored) (hxname : x.name = name) (hname : name ≠ "") (hport : 1024 ≤ port)
    (hfree : Free w.store port) :
    Stepped env fuel name w.store (claimPort name (toString port.toNat) (sent x))
      ((claimPort name (toString port.toNat) (sent x)).advance (server cfg env s net) w) := by
  rw [claimPort_found (hxname ▸ hname)]
  apply stepped_claim hids hw hport hfree
  · intro token a v h y hy hne
    apply Served.update_spares h y hy
    intro hguid
    rw [Store.eq_of_guid hy hx hguid] at hne
    exact hne hxname
  · intro token a v h hcode
    have hreplaces := replaces_of_update hx hport hfree h hcode
    exact ⟨_, (hreplaces.mem _).mpr (.inr rfl), hxname, rfl⟩

theorem stepped_claimPort_missing (hids : env.Uuids) (hw : Unused env w.store)
    (hport : 1024 ≤ port) (hfree : Free w.store port)
    (hnew : ∀ x ∈ w.store.stored, ¬(x.name = name ∧ x.type = "tcp")) :
    Stepped env fuel name w.store (claimPort name (toString port.toNat) .zero)
      ((claimPort name (toString port.toNat) .zero).advance (server cfg env s net) w) := by
  rw [claimPort_missing]
  apply stepped_claim hids hw hport hfree
  · exact fun token a v h y hy _ => Served.create_spares h y hy
  · intro token a v h hcode
    rcases Served.create_ok h hcode with ⟨y, hy, hyname, hytype, -⟩ | ⟨-, guid, -, hstored⟩
    · exact absurd ⟨hyname, hytype⟩ (hnew y hy)
    · exact ⟨⟨guid, name, "tcp", toString port.toNat⟩, by simp [hstored], rfl, rfl⟩

/-- One request of a client whose writes are of free ports. -/
theorem Standing.step {p : ClientM ℤ} (hids : env.Uuids) (hw : Unused env w.store)
    (hname : name ≠ "") (h : Standing fuel w.store name p) (hclaim : ClaimsFree w.store p.next?) :
    Stepped env fuel name w.store p (p.advance (server cfg env s net) w) := by
  cases h with
  | listing range hrange => exact stepped_reserveIn hw hrange
  | looking port hport => exact stepped_lookUpAndClaim hw hname hport
  | updating port x hport hx hxname =>
    rw [next?_claimPort_found (hxname ▸ hname)] at hclaim
    exact stepped_claimPort_found hids hw hx hxname hname hport (carries_free hclaim)
  | creating port hport =>
    rw [claimPort_missing] at hclaim
    exact stepped_claimPort_missing hids hw hport (carries_free hclaim.1) hclaim.2
  | returned port x hport hx hxname hports =>
    exact ⟨.returned port x hport hx hxname hports, fun y hy _ => hy, hw, fun q hq => .inl hq⟩
  | stopped e => exact ⟨.stopped e, fun y hy _ => hy, hw, nofun⟩

end Steps

section Runs
variable {ι : Type} [DecidableEq ι] {cfg : PortSettings} {env : Env}
variable {s : Schema RouterGroupColumn} {net : ℕ → Delivery} {fuel : ℕ}

/-- What holds of the clients all along: those that have returned hold their ports, which
differ. -/
structure Reserving (env : Env) (fuel : ℕ) (names : ι → String) (P : Clients ι) : Prop where
  unused : Unused env P.world.store
  standing : ∀ i, Standing fuel P.world.store (names i) (P.threads i)
  distinct : Distinct P

theorem next?_claimPort (name ports : String) (existing : RouterGroup) :
    ∃ ask, (claimPort name ports existing).next? = some ask := by
  unfold claimPort
  split <;> exact ⟨_, rfl⟩

/-- A port that some client has returned is not free. -/
theorem Standing.not_free {w : Store} {name : String} {port : UInt16}
    (h : Standing fuel w name (.ret port.toNat)) : ¬Free w port := by
  intro hfree
  generalize hp : (Program.ret (port.toNat : ℤ) : ClientM ℤ) = p at h
  cases h with
  | returned port' x hport hx _ hports =>
    have hpp : port = port' := UInt16.toNat_inj.mp (by simpa using hp)
    subst hpp
    exact hfree.ne hport hx hports
  | listing range _ => cases congrArg next? hp
  | looking port' _ => cases congrArg next? hp
  | updating port' x _ _ _ =>
    obtain ⟨ask, hask⟩ := next?_claimPort name (toString port'.toNat) (sent x)
    exact ret_ne_of_next hask _ hp.symm
  | creating port' _ => cases congrArg next? hp
  | stopped e => cases hp

variable {names : ι → String}

theorem Reserving.step {P : Clients ι} (hids : env.Uuids) (hne : ∀ i, names i ≠ "")
    (hinj : Function.Injective names) (hP : Reserving env fuel names P) (i : ι)
    (hclaim : ClaimsFree P.world.store (P.threads i).next?) :
    Reserving env fuel names (move cfg env s net P (.step i)) := by
  have hstep : Stepped env fuel (names i) P.world.store (P.threads i)
      ((P.threads i).advance (server cfg env s net) P.world) :=
    (hP.standing i).step hids hP.unused (hne i) hclaim
  refine ⟨hstep.unused, ?_, ?_⟩
  · intro j
    simp only [Pool.move]
    by_cases hj : j = i
    · subst hj
      rw [Function.update_self]
      exact hstep.standing
    · rw [Function.update_of_ne hj]
      exact (hP.standing j).spared (fun h => hj (hinj h)) hstep.spares
  · -- a port that the moving client returns now was free, so nobody had returned it
    have hnew : ∀ j q, j ≠ i → ((P.threads i).advance (server cfg env s net) P.world).1 = .ret q →
        P.threads j ≠ .ret q := by
      intro j q hj hi hjq
      rcases hstep.free q hi with hold | ⟨port, rfl, hfree⟩
      · exact hP.distinct j i q hj hjq hold
      · exact (hjq ▸ hP.standing j).not_free hfree
    intro a b q hab ha hb
    simp only [Pool.move] at ha hb
    by_cases hai : a = i
    · subst hai
      rw [Function.update_self] at ha
      rw [Function.update_of_ne hab.symm] at hb
      exact hnew b q hab.symm ha hb
    · rw [Function.update_of_ne hai] at ha
      by_cases hbi : b = i
      · subst hbi
        rw [Function.update_self] at hb
        exact hnew a q hab hb ha
      · rw [Function.update_of_ne hbi] at hb
        exact hP.distinct a b q hab ha hb

/-- In every run in which the port of each write is still free at that moment, and no group is
created that is there, no two clients return the same port. -/
theorem reservations_distinct (cfg : PortSettings) (env : Env) (s : Schema RouterGroupColumn)
    (net : ℕ → Delivery) (fuel : ℕ) (hids : env.Uuids) (w : Server) (hw : Unused env w.store)
    (calls : ι → Reservation) (hne : ∀ i, (calls i).groupName ≠ "")
    (hinj : Function.Injective fun i => (calls i).groupName) (ms : List (Move Empty ι))
    (hms : Meets (move cfg env s net) ClaimsFreeMove (clients fuel w calls) ms) :
    Distinct (play (move cfg env s net) (clients fuel w calls) ms) := by
  have hstart : Reserving env fuel (fun i => (calls i).groupName) (clients fuel w calls) := by
    constructor
    · exact hw
    · intro i
      rcases reservePort_start fuel (calls i).groupName (calls i).portRange with
        ⟨e, h⟩ | ⟨range, hrange, h⟩
      · simp only [clients, h]
        exact .stopped e
      · simp only [clients, h]
        exact .listing range hrange
    · intro i j q _ hi
      rcases reservePort_start fuel (calls i).groupName (calls i).portRange with
        ⟨e, h⟩ | ⟨range, -, h⟩
      · cases h.symm.trans hi
      · exact absurd (h.symm.trans hi) (ret_ne_of_next rfl q)
  refine (play_of_meets (I := Reserving env fuel fun i => (calls i).groupName) ?_ hstart hms).distinct
  intro P m hP hm
  cases m with
  | env a => exact a.elim
  | step i => exact hP.step hids hne hinj i hm

/-- Two calls with the same range. -/
def twoReservations (second : Bool) : Reservation :=
  ⟨if second then "b" else "a", "2000-2010"⟩

theorem twoReservations_injective :
    Function.Injective fun second => (twoReservations second).groupName := by
  intro i j
  cases i <;> cases j <;> decide

/-- One call after the other: the second finds the port of the first taken. -/
theorem reservations_one_after_the_other :
    let P := play (move ⟨[], false⟩ .quiet (routerGroupSchema .mysql) fun _ => .served (.ok ()))
      (clients 20 ⟨.empty, 0⟩ twoReservations)
      [.step false, .step false, .step false, .step true, .step true, .step true]
    Distinct P ∧ P.world.store.stored.map (·.reservablePorts) = ["2000", "2001"] := by
  refine ⟨reservations_distinct _ _ _ _ _ Env.quiet_uuids _ ?_ _ ?_ twoReservations_injective _ ?_,
    by decide +kernel⟩
  · intro x hx
    cases hx
  · intro second
    cases second <;> decide
  · decide +kernel

/-- Both calls list the empty table, and then both create a group with the first port. -/
theorem reservations_collide :
    let P := play (move ⟨[], false⟩ .quiet (routerGroupSchema .mysql) fun _ => .served (.ok ()))
      (clients 20 ⟨.empty, 0⟩ twoReservations)
      [.step false, .step true, .step false, .step true, .step false, .step true]
    (P.threads false).value? = some 2000 ∧ (P.threads true).value? = some 2000 ∧ ¬Distinct P := by
  intro P
  have hfirst : (P.threads false).value? = some 2000 := by decide +kernel
  have hsecond : (P.threads true).value? = some 2000 := by decide +kernel
  refine ⟨hfirst, hsecond, ?_⟩
  intro h
  exact h false true 2000 (by decide) (value?_eq_some.mp hfirst) (value?_eq_some.mp hsecond)

end Runs
end RoutingApi.Client
