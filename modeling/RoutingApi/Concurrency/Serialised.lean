import RoutingApi.Concurrency.Duplicates
import RoutingApi.Concurrency.Announcement

/-! Saves of one route that take turns. No index protects `routes`, so only the order of the
calls can: a save must not look its key up while another one is about to write it. -/
namespace RoutingApi.Concurrency
open Relational Gorm Models Process Program Database Migrations

section Statements
variable {E C κ ι : Type} (K : Kind E C κ)

/-- The key that a call saves. -/
def Job.saves : Job E → Option κ
  | .save m => some (K.key m)
  | _ => none

/-- The calls of a save after its lookup and up to its write. -/
def midSave : Option (Call E C) → Bool
  | some .now | some .newV4 | some (.save _) | some (.create _) => true
  | _ => false

def looksUp : Option (Call E C) → Bool
  | some (.find _) => true
  | _ => false

variable {K}

/-- A save looks its key up only while no other save of that key is between its own lookup
and its write. -/
def Serialised (jobs : ι → Job E) (P : Pool (Call E C) Call.Resp Err Unit (World K) ι) :
    Move ℕ ι → Prop
  | .env _ => True
  | .step i => ∀ k ∈ (jobs i).saves K, looksUp (P.threads i).next? = true →
      ∀ j, j ≠ i → (jobs j).saves K = some k → midSave (P.threads j).next? = false

instance [DecidableEq κ] [DecidableEq ι] [Fintype ι] (jobs : ι → Job E)
    (P : Pool (Call E C) Call.Resp Err Unit (World K) ι) :
    (m : Move ℕ ι) → Decidable (Serialised jobs P m)
  | .env _ => isTrue trivial
  | .step i => inferInstanceAs (Decidable (∀ k ∈ (jobs i).saves K,
      looksUp (P.threads i).next? = true → ∀ j, j ≠ i → (jobs j).saves K = some k →
        midSave (P.threads j).next? = false))

end Statements

section Invariant
variable {E C κ ι : Type} (K : Kind E C κ)

/-- The key that a save past its lookup is going to write. -/
def Point.saves : Point E → Option κ
  | .refreshing existing _ => some (K.key existing)
  | .storing e => some (K.key e)
  | .creating m => some (K.key m)
  | .stamping _ m => some (K.key m)
  | .tagging e => some (K.key e)
  | .inserting e => some (K.key e)
  | _ => none

variable {K}

theorem midSave_of_saves {p : Point E} {k : κ} (h : p.saves K = some k) :
    midSave (p.call K) = true := by
  cases p with
  | refreshing | storing | creating | stamping | tagging | inserting => rfl
  | _ => cases h

/-- At most one save of a key is past its lookup, and what it found is still all there is. -/
structure Serial (jobs : ι → Job E) (w : World K) (pts : ι → Point E) : Prop where
  asked : ∀ i m, pts i = .saving m → jobs i = .save m
  owns : ∀ i k, (pts i).saves K = some k → (jobs i).saves K = some k
  alone : ∀ i j k, (pts i).saves K = some k → (pts j).saves K = some k → i = j
  found : ∀ i k, (pts i).saves K = some k → ∀ x ∈ w.stored, K.key x = k →
    (pts i).carries.map K.guid = some (K.guid x)
  exact : ∀ x ∈ w.table.rows, x = K.model.toRow (K.model.ofRow x)
  named : ∀ x ∈ w.stored, K.guid x ≠ ""
  carriedNamed : ∀ i e, (pts i).carries = some e → K.guid e ≠ ""
  drewNamed : ∀ i g, (pts i).drew K = some g → g ≠ ""

variable {jobs : ι → Job E} {s : Schema C} {w w' : World K} {pts : ι → Point E} {i : ι}
  {p : Point E} {e m : E}

namespace Serial
variable (h : Serial jobs w pts)
include h

theorem shrink (hrows : ∀ x ∈ w'.table.rows, x ∈ w.table.rows) : Serial jobs w' pts := by
  have hstored := World.stored_mono hrows
  exact { h with
    found := fun i k hi x hx => h.found i k hi x (hstored x hx)
    exact := fun x hx => h.exact x (hrows x hx)
    named := fun x hx => h.named x (hstored x hx) }

/-- A row with the key of a lookup is one that the lookup returns. -/
theorem selected {x : Row C} (hx : x ∈ w.table.rows) (hkey : K.key (K.model.ofRow x) = K.key m) :
    x ∈ w.table.select (K.lookup m) := by
  refine Table.mem_select.mpr ⟨hx, ?_⟩
  rw [h.exact x hx]
  exact K.lookup_toRow m _ hkey

/-- Before an insert no row has the key. -/
theorem absent (hi : e ∈ inserts w ((pts i).call K)) : ∀ x ∈ w.stored, K.key x ≠ K.key e := by
  intro x hx hkey
  cases hp : pts i with
  | inserting e' =>
    rw [hp] at hi
    cases hi
    have hfound := h.found i (K.key e) (by rw [hp]; rfl) x hx hkey
    rw [hp] at hfound
    cases hfound
  | storing e' =>
    rw [hp] at hi
    simp only [Point.call, inserts] at hi
    split at hi
    next => cases hi
    next hn =>
      cases hi
      have hfound := h.found i (K.key e) (by rw [hp]; rfl) x hx hkey
      rw [hp] at hfound
      obtain ⟨r, hr, rfl⟩ := World.mem_stored.mp hx
      exact hn ⟨r, hr, by rw [(w.typed r hr).pk, ← Option.some.inj hfound]⟩
  | expiring routes =>
    rw [hp] at hi
    cases routes <;> cases hi
  | _ =>
    rw [hp] at hi
    cases hi

variable [DecidableEq ι]

/-- A call that stays with its key, or is done with it. -/
theorem advance (hsaves : ∀ k, p.saves K = some k → (pts i).saves K = some k)
    (hcar : ∀ k, p.saves K = some k → p.carries.map K.guid = (pts i).carries.map K.guid)
    (hnamed : ∀ e, p.carries = some e → K.guid e ≠ "") (hdrew : ∀ g, p.drew K = some g → g ≠ "")
    (hask : ∀ m, p ≠ .saving m) : Serial jobs w (Function.update pts i p) := by
  have hold {a : ι} {k : κ} (ha : (Function.update pts i p a).saves K = some k) :
      (pts a).saves K = some k := by
    rcases (point_update (Point.saves K)).mp ha with ⟨rfl, ha'⟩ | ⟨-, ha'⟩
    · exact hsaves k ha'
    · exact ha'
  refine ⟨?_, fun a k ha => h.owns a k (hold ha),
    fun a b k ha hb => h.alone a b k (hold ha) (hold hb), ?_, h.exact, h.named, ?_, ?_⟩
  · intro a m ha
    rcases point_update_eq.mp ha with ⟨-, hp⟩ | ⟨-, ha⟩
    · exact absurd hp (hask m)
    · exact h.asked a m ha
  · intro a k ha x hx hkey
    have hfound := h.found a k (hold ha) x hx hkey
    by_cases hai : a = i
    · subst hai
      rw [Function.update_self] at ha ⊢
      rw [hcar k ha, hfound]
    · rwa [Function.update_of_ne hai]
  · intro a f ha
    rcases (point_update Point.carries).mp ha with ⟨-, ha⟩ | ⟨-, ha⟩
    · exact hnamed f ha
    · exact h.carriedNamed a f ha
  · intro a g ha
    rcases (point_update (Point.drew K)).mp ha with ⟨-, ha⟩ | ⟨-, ha⟩
    · exact hdrew g ha
    · exact h.drewNamed a g ha

/-- A call that is done with its key, or has none. -/
theorem leave (hsaves : p.saves K = none) (hcar : p.carries = none) (hdrew : p.drew K = none)
    (hask : ∀ m, p ≠ .saving m) : Serial jobs w (Function.update pts i p) :=
  h.advance (by simp [hsaves]) (by simp [hsaves]) (by simp [hcar]) (by simp [hdrew]) hask

/-- A save looks its key up while no other save of it is past its lookup. -/
theorem enter (hp : pts i = .saving m)
    (hfree : ∀ j, j ≠ i → (jobs j).saves K = some (K.key m) → midSave ((pts j).call K) = false)
    (hsaves : p.saves K = some (K.key m))
    (hfound : ∀ x ∈ w.stored, K.key x = K.key m → p.carries.map K.guid = some (K.guid x))
    (hnamed : ∀ e, p.carries = some e → K.guid e ≠ "") (hdrew : p.drew K = none) :
    Serial jobs w (Function.update pts i p) := by
  have hother {a : ι} (hai : a ≠ i) : (pts a).saves K ≠ some (K.key m) := by
    intro ha
    have hmid := hfree a hai (h.owns a _ ha)
    rw [midSave_of_saves ha] at hmid
    cases hmid
  have hcases {a : ι} {k : κ} (ha : (Function.update pts i p a).saves K = some k) :
      (a = i ∧ k = K.key m) ∨ (a ≠ i ∧ (pts a).saves K = some k ∧ k ≠ K.key m) := by
    rcases (point_update (Point.saves K)).mp ha with ⟨hai, ha'⟩ | ⟨hai, ha'⟩
    · exact .inl ⟨hai, Option.some.inj (ha'.symm.trans hsaves)⟩
    · exact .inr ⟨hai, ha', fun hk => hother hai (hk ▸ ha')⟩
  refine ⟨?_, ?_, ?_, ?_, h.exact, h.named, ?_, ?_⟩
  · intro a m' ha
    rcases point_update_eq.mp ha with ⟨-, rfl⟩ | ⟨-, ha⟩
    · cases hsaves
    · exact h.asked a m' ha
  · intro a k ha
    rcases hcases ha with ⟨rfl, rfl⟩ | ⟨-, ha', -⟩
    · rw [h.asked a m hp]
      rfl
    · exact h.owns a k ha'
  · intro a b k ha hb
    rcases hcases ha with ⟨rfl, rfl⟩ | ⟨-, ha', hk⟩ <;>
      rcases hcases hb with ⟨rfl, hk'⟩ | ⟨-, hb', hk'⟩
    · rfl
    · exact absurd rfl hk'
    · exact absurd hk' hk
    · exact h.alone a b k ha' hb'
  · intro a k ha x hx hkey
    rcases hcases ha with ⟨rfl, rfl⟩ | ⟨hai, ha', -⟩
    · rw [Function.update_self]
      exact hfound x hx hkey
    · rw [Function.update_of_ne hai]
      exact h.found a k ha' x hx hkey
  · intro a f ha
    rcases (point_update Point.carries).mp ha with ⟨-, ha'⟩ | ⟨-, ha'⟩
    · exact hnamed f ha'
    · exact h.carriedNamed a f ha'
  · intro a g ha
    rcases (point_update (Point.drew K)).mp ha with ⟨-, ha'⟩ | ⟨-, ha'⟩
    · rw [hdrew] at ha'
      cases ha'
    · exact h.drewNamed a g ha'

omit [DecidableEq ι] in
/-- A row is written under a key that nobody is past the lookup of. -/
theorem write (hfree : ∀ j, (pts j).saves K ≠ some (K.key e)) (hg : K.guid e ≠ "")
    (hrows : ∀ x ∈ w'.table.rows, x ∈ w.table.rows ∨ x = K.model.toRow e) :
    Serial jobs w' pts := by
  have hstored : ∀ x ∈ w'.stored, x ∈ w.stored ∨ x = e := by
    intro x hx
    obtain ⟨r, hr, rfl⟩ := World.mem_stored.mp hx
    rcases hrows r hr with hr | rfl
    · exact .inl (World.mem_stored.mpr ⟨r, hr, rfl⟩)
    · exact .inr (K.ofRow_toRow e)
  refine ⟨h.asked, h.owns, h.alone, ?_, ?_, ?_, h.carriedNamed, h.drewNamed⟩
  · intro a k ha x hx hkey
    rcases hstored x hx with hx | rfl
    · exact h.found a k ha x hx hkey
    · exact absurd (hkey ▸ ha) (hfree a)
  · intro x hx
    rcases hrows x hx with hx | rfl
    · exact h.exact x hx
    · rw [K.ofRow_toRow]
  · intro x hx
    rcases hstored x hx with hx | rfl
    · exact h.named x hx
    · exact hg

/-- The same for the save that is about to write, which then is done with the key. -/
theorem writeOwn (hi : (pts i).saves K = some (K.key e)) (hg : K.guid e ≠ "")
    (hsaves : p.saves K = none) (hcar : p.carries = none) (hdrew : p.drew K = none)
    (hask : ∀ m, p ≠ .saving m)
    (hrows : ∀ x ∈ w'.table.rows, x ∈ w.table.rows ∨ x = K.model.toRow e) :
    Serial jobs w' (Function.update pts i p) := by
  refine (h.leave hsaves hcar hdrew hask).write (fun a ha => ?_) hg hrows
  rcases (point_update (Point.saves K)).mp ha with ⟨-, ha'⟩ | ⟨hai, ha'⟩
  · rw [hsaves] at ha'
    cases ha'
  · exact hai (h.alone a i _ ha' hi)

end Serial

variable [DecidableEq E] [DecidableEq ι] {env : Env}

theorem Serial.step (hids : env.Uuids) (hexact : K.model.Exact s) (hplain : s.indexes = [])
    (h : Serial jobs w pts)
    (hQ : ∀ k ∈ (jobs i).saves K, looksUp ((pts i).call K) = true →
      ∀ j, j ≠ i → (jobs j).saves K = some k → midSave ((pts j).call K) = false)
    (hs : Step env s w (pts i) p w') : Serial jobs w' (Function.update pts i p) := by
  have hemits {evs : List (Event E)} (hw : w.Emits w' evs) {qs : ι → Point E}
      (hv : Serial jobs w qs) : Serial jobs w' qs := hv.shrink fun x hx => hw.table ▸ hx
  have hinserted {e : E} (hins : w.Inserts w' s e) :
      ∀ x ∈ w'.table.rows, x ∈ w.table.rows ∨ x = K.model.toRow e := by
    intro x hx
    rw [hins.mem_rows, K.model.insertRow_exact hexact] at hx
    exact hx
  generalize hp : pts i = q at hs hQ
  -- a save that is about to look its key up is alone with it
  have hfree {m : E} (hm : q = .saving m) : ∀ j, j ≠ i → (jobs j).saves K = some (K.key m) →
      midSave ((pts j).call K) = false := by
    subst hm
    exact hQ (K.key m) (by rw [h.asked i m hp]; rfl) rfl
  cases hs with
  | failed _ e _ _ hw _ => exact hemits hw (h.leave rfl rfl rfl nofun)
  | matched m x _ hw hx =>
    have hmem : K.model.ofRow x ∈ w.stored := World.mem_stored.mpr ⟨x, hx.mem, rfl⟩
    refine hemits hw (h.enter hp (hfree rfl) (congrArg some hx.key) ?_ ?_ rfl)
    · intro y hy hkey
      obtain ⟨r, hr, rfl⟩ := World.mem_stored.mp hy
      have hsel := h.selected hr hkey
      rw [hx.select, List.mem_singleton] at hsel
      subst hsel
      rfl
    · rintro f hf
      cases hf
      exact h.named _ hmem
  | unmatched m _ hw hx =>
    refine hemits hw (h.enter hp (hfree rfl) rfl ?_ nofun rfl)
    intro y hy hkey
    obtain ⟨r, hr, rfl⟩ := World.mem_stored.mp hy
    have hsel := h.selected hr hkey
    rcases hx with hx | ⟨z, hx, hz⟩
    · rw [hx] at hsel
      cases hsel
    · rw [hx, List.mem_singleton] at hsel
      subst hsel
      exact absurd (hz ▸ K.guid_zero) (h.named _ hy)
  | refreshed existing m e hu =>
    have hguid := K.update_guid _ _ _ _ hu
    have hkey := K.update_key _ _ _ _ hu
    have hcar : (pts i).carries = some existing := by rw [hp]; rfl
    refine h.advance ?_ ?_ ?_ nofun nofun
    · rintro k hk
      rw [hp, ← hk]
      exact congrArg some hkey.symm
    · rintro k -
      rw [hcar]
      exact congrArg some hguid
    · rintro f hf
      cases hf
      rw [hguid]
      exact h.carriedNamed i existing hcar
  | drewGuid m g hg =>
    have hnext : Serial jobs w (Function.update pts i (.stamping g m)) := by
      refine h.advance (fun k hk => hp ▸ hk) (fun k _ => hp ▸ rfl) nofun ?_ nofun
      rintro g' hg'
      cases hg'
      exact hids.nonempty _ _ hg
    exact hnext.shrink fun _ hx => hx
  | stamped g m e he =>
    have hdrew : (pts i).drew K = some g := by rw [hp]; rfl
    refine h.advance ?_ (fun k _ => hp ▸ rfl) nofun ?_ nofun
    · rintro k hk
      rw [hp, ← hk]
      exact congrArg some (K.withModel_key _ _ _ _ he).symm
    · rintro g' hg'
      cases hg'
      rw [K.withModel_guid _ _ _ _ he]
      exact h.drewNamed i g hdrew
  | drewTag e u hu =>
    have hdrew : (pts i).drew K = some (K.guid e) := by rw [hp]; rfl
    have hnext : Serial jobs w (Function.update pts i (.inserting (K.setTag ⟨u, 0⟩ e))) := by
      refine h.advance ?_ (fun k _ => hp ▸ rfl) nofun ?_ nofun
      · rintro k hk
        rw [hp, ← hk]
        exact congrArg some (K.setTag_key _ _).symm
      · rintro g' hg'
        cases hg'
        rw [K.setTag_guid]
        exact h.drewNamed i _ hdrew
    exact hnext.shrink fun _ hx => hx
  | inserted e _ hins =>
    exact h.writeOwn (hp ▸ rfl) (h.drewNamed i _ (hp ▸ rfl)) rfl rfl rfl (by simp) (hinserted hins)
  | updated e _ _ hup =>
    refine h.writeOwn (hp ▸ rfl) (h.carriedNamed i e (hp ▸ rfl)) rfl rfl rfl (by simp) ?_
    intro x hx
    exact (hup.mem_rows.mp hx).imp_left And.left
  | overwritten e x _ _ _ hover =>
    have hconflict := hover.conflict
    rw [World.conflict, Schema.conflict_of_plain hplain] at hconflict
    cases hconflict
  | reinserted e _ _ _ hins =>
    exact h.writeOwn (hp ▸ rfl) (h.carriedNamed i e (hp ▸ rfl)) rfl rfl rfl (by simp)
      (hinserted hins)
  | located m x _ hw _ => exact hemits hw (h.leave rfl rfl rfl (by simp))
  | removed x _ _ hr =>
    exact (h.leave rfl rfl rfl (by simp)).shrink fun _ hy => (hr.mem_rows.mp hy).1
  | looked => exact h.leave rfl rfl rfl (by simp)
  | scanned now _ hw => exact hemits hw (h.leave rfl rfl rfl (by simp))
  | cleared routes _ hr =>
    exact (h.leave rfl rfl rfl (by simp)).shrink fun _ hy => (hr.mem_rows.mp hy).1
  | expired r rest _ hw => exact hemits hw (h.leave rfl rfl rfl (by simp))
  | announced ev _ hw => exact hemits hw (h.leave rfl rfl rfl (by simp))
  | finished _ _ =>
    rw [← hp, Function.update_eq_self]
    exact h

omit [DecidableEq E] [DecidableEq ι] in
theorem serial_start (jobs : ι → Job E) :
    Serial jobs (World.initial K) fun i => (jobs i).start := by
  have hstart : ∀ i, ((jobs i).start).saves K = none ∧ ((jobs i).start).carries = none ∧
      ((jobs i).start).drew K = none := by
    intro i
    cases jobs i <;> exact ⟨rfl, rfl, rfl⟩
  refine ⟨?_, ?_, ?_, (fun _ _ _ _ hx => by cases hx), (fun _ hx => by cases hx),
    (fun _ hx => by cases hx), ?_, ?_⟩
  · intro i m hi
    cases hj : jobs i with
    | save m' =>
      rw [hj] at hi
      cases hi
      rfl
    | _ =>
      rw [hj] at hi
      cases hi
  · intro i k hi
    rw [(hstart i).1] at hi
    cases hi
  · intro i j k hi
    rw [(hstart i).1] at hi
    cases hi
  · intro i e hi
    rw [(hstart i).2.1] at hi
    cases hi
  · intro i g hi
    rw [(hstart i).2.2] at hi
    cases hi

omit [DecidableEq E] [DecidableEq ι] in
/-- Without a unique index no row is in the way of a `Save`. -/
theorem keepsColumns_of_plain (hplain : s.indexes = [])
    (P : Pool (Call E C) Call.Resp Err Unit (World K) ι) (i : ι) : KeepsColumns s P (.step i) := by
  intro q hq
  unfold overwrites at hq
  split at hq
  next e _ =>
    rw [World.conflict, Schema.conflict_of_plain hplain] at hq
    split at hq <;> cases hq
  next => cases hq

omit [DecidableEq E] in
/-- Rows that are stored exactly are found under their key. -/
theorem KeepsKey.of_exact (hexact : K.model.Exact s) : KeepsKey K s where
  key e := by rw [K.model.insertRow_exact hexact, K.ofRow_toRow]
  hidden e _ _ he := by
    rw [Hidden, K.model.insertRow_exact hexact, K.lookup_toRow e e rfl] at he
    cases he

/-- Saves that take turns never insert beside a row with their key. -/
theorem refuses_of_serialised (hids : env.Uuids) (hexact : K.model.Exact s)
    (hplain : s.indexes = []) (jobs : ι → Job E) {ms : List (Move ℕ ι)}
    (hms : Meets (move env s) (Serialised jobs) (calls (World.initial K) jobs) ms) :
    Meets (move env s) (fun P m => OnInsert (RefusesDuplicate s) P m ∧ KeepsColumns s P m)
      (calls (World.initial K) jobs) ms := by
  refine meets_of_meets (I := (chart env s).At (Serial jobs)) (Chart.at_move ?_ ?_) ?_ ?_ hms
  · intro w pts d h _
    exact h.shrink fun _ hx => hx
  · intro w pts i h hQ
    refine h.step hids hexact hplain ?_ (chart_step env s w (pts i))
    simpa only [Serialised, Chart.pool_threads, chart, next?_prog] using hQ
  · rintro P m ⟨pts, hP, h⟩ -
    cases m with
    | env d => exact ⟨trivial, trivial⟩
    | step i =>
      refine ⟨?_, keepsColumns_of_plain hplain P i⟩
      intro e he x hx hagree
      rw [next?_threads hP i] at he
      rw [K.model.insertRow_exact hexact] at hagree
      have hkey := K.key_of_lookup e x ((K.holds_lookup e x).mpr hagree)
      exact absurd hkey (h.absent he _ (World.mem_stored.mpr ⟨x, hx, rfl⟩))
  · rw [calls_eq env s]
    exact ⟨_, rfl, serial_start jobs⟩

end Invariant

/-- Saves, deletes and prune passes that run concurrently on the `routes` table of a migrated
database: as long as saves of one key take turns, from the lookup to the write, no two rows
have the same key and no call fails because of duplicates. -/
theorem concurrent_saves_distinct_routes {ι : Type} [DecidableEq ι] (d : Dialect) (env : Env)
    (hids : env.Uuids) (jobs : ι → Job Route) (ms : List (Move ℕ ι))
    (hms : Meets (move env (routeSchema d)) (Serialised jobs)
      (calls (World.initial routeKind) jobs) ms) :
    Always (move env (routeSchema d)) Distinct (calls (World.initial routeKind) jobs) ms :=
  distinct_of_meets hids (.of_exact (Route.model_exact _)) (fun x hx => by cases hx) (fun e he => by cases he)
    jobs (refuses_of_serialised hids (Route.model_exact _) (routeSchema_indexes d) jobs hms)

/-- Two saves register one route, and a delete unregisters it. -/
def saveTwiceAndDelete : Fin 3 → Job Route
  | 0 => .save exampleRoute
  | 1 => .save exampleRoute
  | 2 => .delete exampleRoute

/-- No index stops the second of two saves that looked up together; the delete then fails. -/
theorem route_duplicated :
    let P := play (move .quiet (routeSchema .mysql))
      (calls (World.initial routeKind) saveTwiceAndDelete) lookedUpTogether
    (∀ i, (P.threads i).Finished) ∧
      P.world.stored.map (fun r => (r.guid, r.key)) =
        [("u", exampleRoute.key), ("uuu", exampleRoute.key)] ∧
      (P.threads 0).error? = none ∧ (P.threads 1).error? = none ∧
      (P.threads 2).error? = some (.plain "have duplicate routes") := by
  decide +kernel

/-- The second save looks up once the first has written; the delete may come in between. -/
def takingTurns : List (Move ℕ (Fin 3)) :=
  [.step 0, .step 0, .step 0, .step 0, .step 0, .step 1, .step 0, .step 2, .step 2, .step 1,
    .step 1, .step 1, .step 2]

theorem route_distinct_in_turns :
    let P := calls (World.initial routeKind) saveTwiceAndDelete
    (play (move .quiet (routeSchema .mysql)) P takingTurns).world.stored.map Route.key =
        [exampleRoute.key] ∧
      Always (move .quiet (routeSchema .mysql)) Distinct P takingTurns :=
  ⟨by decide +kernel, concurrent_saves_distinct_routes .mysql .quiet Env.quiet_uuids
    saveTwiceAndDelete takingTurns (by decide +kernel)⟩

end RoutingApi.Concurrency
