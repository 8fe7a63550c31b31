import Mathlib.Tactic

/-! Rows that are written by key: a write renews the one row that it hits, or adds a fresh one.
Writes that are compared with the rows they see can be checked all at the beginning or each at
its turn, and these differ by what the writes see of each other. -/
namespace RoutingApi.Relational

/-- How rows are hit, renewed and made, and which of these a table lets through. -/
structure Upserts (M R κ : Type) where
  key : M → κ
  hit : M → R → Bool
  fresh : M → R
  renew : M → R → R
  inserts : List R → R → Bool
  renews : List R → R → R → Bool
  hit_iff : ∀ a m x, hit a x = true → (hit m x = true ↔ key m = key a)
  hit_fresh : ∀ a m, hit m (fresh a) = true → key m = key a
  hit_renew : ∀ a m x, hit a x = true → hit m (renew a x) = hit m x

namespace Upserts
variable {M R κ : Type} (U : Upserts M R κ)

/-- One write; more than one row under the key is an error. -/
def upsert (m : M) (rows : List R) : Option (List R) :=
  match rows.filter (U.hit m) with
  | [] => if U.inserts rows (U.fresh m) then some (rows ++ [U.fresh m]) else none
  | [x] =>
    if U.renews (rows.filter fun y => !U.hit m y) x (U.renew m x) then
      some (rows.map fun y => if U.hit m y then U.renew m y else y)
    else none
  | _ => none

def upsertAll : List M → List R → Option (List R)
  | [], rows => some rows
  | m :: ms, rows => (U.upsert m rows).bind (upsertAll ms)

variable {U} {a m : M} {rows rows' : List R} {x y : R}

theorem upsert_some (h : U.upsert m rows = some rows') :
    (rows.filter (U.hit m) = [] ∧ rows' = rows ++ [U.fresh m]) ∨
    ∃ x, rows.filter (U.hit m) = [x] ∧
      rows' = rows.map fun y => if U.hit m y then U.renew m y else y := by
  unfold upsert at h
  split at h
  next hnil =>
    split at h
    · exact .inl ⟨hnil, (Option.some.inj h).symm⟩
    · cases h
  next x hone =>
    split at h
    · exact .inr ⟨x, hone, (Option.some.inj h).symm⟩
    · cases h
  next => cases h

theorem upsert_nil (h : rows.filter (U.hit m) = []) : U.upsert m rows =
    if U.inserts rows (U.fresh m) then some (rows ++ [U.fresh m]) else none := by
  rw [upsert, h]

theorem upsert_singleton (h : rows.filter (U.hit m) = [x]) : U.upsert m rows =
    if U.renews (rows.filter fun y => !U.hit m y) x (U.renew m x) then
      some (rows.map fun y => if U.hit m y then U.renew m y else y)
    else none := by
  rw [upsert, h]

/-- The rows after a renewal. -/
theorem mem_renewed (hone : rows.filter (U.hit m) = [x]) :
    (y ∈ rows.map fun y => if U.hit m y then U.renew m y else y) ↔
      (y ∈ rows ∧ U.hit m y = false) ∨ y = U.renew m x := by
  have hx : ∀ z, z ∈ rows ∧ U.hit m z = true ↔ z = x := by
    intro z
    rw [← List.mem_filter, hone, List.mem_singleton]
  rw [List.mem_map]
  constructor
  · rintro ⟨z, hz, rfl⟩
    cases hhit : U.hit m z with
    | true =>
      rw [(hx z).mp ⟨hz, hhit⟩]
      simp
    | false => simp [hz, hhit]
  · rintro (⟨hy, hmiss⟩ | rfl)
    · exact ⟨y, hy, by simp [hmiss]⟩
    · obtain ⟨hmem, hhit⟩ := (hx x).mpr rfl
      exact ⟨x, hmem, by simp [hhit]⟩

section Flags
variable (U) {F : Type} (sees : M → R → Bool) (flag : R → F) (want : M → F)

/-- The rows that a write sees have the flag that it wants. -/
def Accepts (rows : List R) (m : M) : Prop := ∀ y ∈ rows, sees m y = true → flag y = want m

/-- Every write is accepted at its turn. -/
def AcceptedEach : List M → List R → Prop
  | [], _ => True
  | m :: ms, rows =>
    Accepts sees flag want rows m ∧
      ∀ rows', U.upsert m rows = some rows' → AcceptedEach ms rows'

/-- The flag that a write leaves: that of the row that it hits, or its own. -/
def flagIn (rows : List R) (m : M) : F :=
  match rows.filter (U.hit m) with
  | [x] => flag x
  | _ => want m

/-- What is known of the flags: a renewal keeps them, a fresh row has the wanted one, and whether a
write sees the row of another depends on their keys. -/
structure Flagged (clash : M → M → Prop) : Prop where
  renew_flag : ∀ a x, U.hit a x = true → flag (U.renew a x) = flag x
  fresh_flag : ∀ a, flag (U.fresh a) = want a
  renew_seen : ∀ a b x, U.hit a x = true → (sees b (U.renew a x) = true ↔ clash a b)
  fresh_seen : ∀ a b, sees b (U.fresh a) = true ↔ clash a b
  clash_key : ∀ a a' b, U.key a = U.key a' → (clash a b ↔ clash a' b)
  clash_self : ∀ a a' b, U.key a = U.key a' → clash a b → clash a a'

/-- The row was written by `a`, or by a write with the key of `a`. -/
structure Bears (clash : M → M → Prop) (a : M) (y : R) : Prop where
  seen : ∀ b, sees b y = true ↔ clash a b
  keys : ∀ m, U.hit m y = true → U.key m = U.key a

variable {U sees flag want} {clash : M → M → Prop} (hU : Flagged U sees flag want clash)
include hU

theorem Flagged.bears_fresh (a : M) : Bears U sees clash a (U.fresh a) :=
  ⟨hU.fresh_seen a, fun m => U.hit_fresh a m⟩

theorem Flagged.bears_renew (hhit : U.hit a x = true) : Bears U sees clash a (U.renew a x) where
  seen b := hU.renew_seen a b x hhit
  keys m hm := (U.hit_iff a m x hhit).mp (U.hit_renew a m x hhit ▸ hm)

/-- A row that another write renews still bears the first one. -/
theorem Flagged.bears_renewed {a' : M} (hy : Bears U sees clash a y) (hhit : U.hit a' y = true) :
    Bears U sees clash a (U.renew a' y) := by
  have hkey := hy.keys a' hhit
  constructor
  · intro b
    rw [hU.renew_seen a' b y hhit, hU.clash_key a' a b hkey]
  · intro m hm
    exact hy.keys m (U.hit_renew a' m y hhit ▸ hm)

omit hU in
theorem flagIn_nil (h : rows.filter (U.hit m) = []) : flagIn U flag want rows m = want m := by
  rw [flagIn, h]

omit hU in
theorem flagIn_singleton (h : rows.filter (U.hit m) = [x]) :
    flagIn U flag want rows m = flag x := by
  rw [flagIn, h]

variable (U sees flag want clash) in
/-- The rows after some writes to `rows₀`: each is an old one, or bears a write and has the flag
that this write leaves, and under every key the old flags come first. -/
structure Tracked (rows₀ : List R) (done : List M) (rows : List R) : Prop where
  origin : ∀ y ∈ rows, y ∈ rows₀ ∨
    ∃ a ∈ done, Bears U sees clash a y ∧ flag y = flagIn U flag want rows₀ a
  kept : ∀ m, (rows₀.filter (U.hit m)).map flag <+: (rows.filter (U.hit m)).map flag

variable (U sees flag want clash) in
/-- Every write is borne by a row with the flag that it leaves, if anyone could see it. -/
def Present (rows₀ : List R) (done : List M) (rows : List R) : Prop :=
  ∀ a ∈ done, ∃ y ∈ rows, Bears U sees clash a y ∧
    ((∃ b, clash a b) → flag y = flagIn U flag want rows₀ a)

variable {rows₀ : List R} {done : List M}

omit hU in
theorem Tracked.start (rows₀ : List R) : Tracked U sees flag want clash rows₀ [] rows₀ :=
  ⟨fun _ hy => .inl hy, fun _ => List.prefix_rfl⟩

omit hU in
/-- The row that a write hits has the flag that this write leaves, or that of an earlier write
under a key that was free. -/
theorem Tracked.hit (h : Tracked U sees flag want clash rows₀ done rows)
    (hone : rows.filter (U.hit a) = [x]) :
    flag x = flagIn U flag want rows₀ a ∨
    (rows₀.filter (U.hit a) = [] ∧
      ∃ c ∈ done, Bears U sees clash c x ∧ flag x = flagIn U flag want rows₀ c) := by
  have hx : x ∈ rows ∧ U.hit a x = true := by
    rw [← List.mem_filter, hone, List.mem_singleton]
  have hkept := h.kept a
  rw [hone] at hkept
  match hold : rows₀.filter (U.hit a) with
  | [] =>
    refine .inr ⟨rfl, ?_⟩
    rcases h.origin x hx.1 with hmem | horigin
    · have hfilter : x ∈ rows₀.filter (U.hit a) := List.mem_filter.mpr ⟨hmem, hx.2⟩
      rw [hold] at hfilter
      cases hfilter
    · exact horigin
  | z :: rest =>
    rw [hold] at hkept
    obtain ⟨hflag, hrest⟩ := List.cons_prefix_cons.mp hkept
    have hrest : rest = [] := List.map_eq_nil_iff.mp (List.prefix_nil.mp hrest)
    subst hrest
    exact .inl (hflag.symm.trans (flagIn_singleton hold).symm)

omit hU in
theorem Tracked.fresh (h : Tracked U sees flag want clash rows₀ done rows)
    (hnil : rows.filter (U.hit a) = []) : flagIn U flag want rows₀ a = want a := by
  have hkept := h.kept a
  rw [hnil] at hkept
  exact flagIn_nil (List.map_eq_nil_iff.mp (List.prefix_nil.mp hkept))

theorem Tracked.upsert (h : Tracked U sees flag want clash rows₀ done rows)
    (hup : U.upsert a rows = some rows') :
    Tracked U sees flag want clash rows₀ (a :: done) rows' := by
  have hold {y : R} (hy : y ∈ rows) : y ∈ rows₀ ∨
      ∃ c ∈ a :: done, Bears U sees clash c y ∧ flag y = flagIn U flag want rows₀ c := by
    refine (h.origin y hy).imp_right ?_
    rintro ⟨c, hc, hbears, hflag⟩
    exact ⟨c, List.mem_cons_of_mem a hc, hbears, hflag⟩
  rcases upsert_some hup with ⟨hnil, rfl⟩ | ⟨x, hone, rfl⟩
  · constructor
    · intro y hy
      rcases List.mem_append.mp hy with hy | hy
      · exact hold hy
      · rw [List.mem_singleton.mp hy]
        refine .inr ⟨a, List.mem_cons_self, hU.bears_fresh a, ?_⟩
        rw [hU.fresh_flag, h.fresh hnil]
    · intro m
      rw [List.filter_append, List.map_append]
      exact (h.kept m).trans (List.prefix_append _ _)
  · have hx : x ∈ rows ∧ U.hit a x = true := by
      rw [← List.mem_filter, hone, List.mem_singleton]
    constructor
    · intro y hy
      rcases (mem_renewed hone).mp hy with ⟨hy, -⟩ | rfl
      · exact hold hy
      · right
        rcases h.hit hone with hflag | ⟨-, c, hc, hbears, hflag⟩
        · exact ⟨a, List.mem_cons_self, hU.bears_renew hx.2, (hU.renew_flag a x hx.2).trans hflag⟩
        · exact ⟨c, List.mem_cons_of_mem a hc, hU.bears_renewed hbears hx.2,
            (hU.renew_flag a x hx.2).trans hflag⟩
    · intro m
      -- a renewed row is hit by the same writes and has the same flag
      have hfilter : ∀ l : List R,
          ((l.map fun y => if U.hit a y then U.renew a y else y).filter (U.hit m)).map flag =
            (l.filter (U.hit m)).map flag := by
        intro l
        induction l with
        | nil => rfl
        | cons y l ih =>
          cases hhit : U.hit a y with
          | false => cases hm : U.hit m y <;> simp [hhit, hm, ih]
          | true =>
            have hflag := hU.renew_flag a y hhit
            have hsame := U.hit_renew a m y hhit
            cases hm : U.hit m y <;> simp [hhit, hm, hsame, hflag, ih]
      rw [hfilter]
      exact h.kept m

theorem Present.upsert (ht : Tracked U sees flag want clash rows₀ done rows)
    (h : Present U sees flag want clash rows₀ done rows) (haccepts : Accepts sees flag want rows a)
    (hup : U.upsert a rows = some rows') :
    Present U sees flag want clash rows₀ (a :: done) rows' := by
  rcases upsert_some hup with ⟨hnil, rfl⟩ | ⟨x, hone, rfl⟩
  · intro c hc
    rcases List.mem_cons.mp hc with rfl | hc
    · refine ⟨U.fresh c, by simp, hU.bears_fresh c, fun _ => ?_⟩
      rw [hU.fresh_flag, ht.fresh hnil]
    · obtain ⟨y, hy, hbears⟩ := h c hc
      exact ⟨y, List.mem_append_left _ hy, hbears⟩
  · have hx : x ∈ rows ∧ U.hit a x = true := by
      rw [← List.mem_filter, hone, List.mem_singleton]
    have hrenewed := (mem_renewed (y := U.renew a x) hone).mpr (.inr rfl)
    intro c hc
    rcases List.mem_cons.mp hc with rfl | hc
    · refine ⟨U.renew c x, hrenewed, hU.bears_renew hx.2, ?_⟩
      rintro ⟨b, hb⟩
      rw [hU.renew_flag c x hx.2]
      rcases ht.hit hone with hflag | ⟨hfree, e, -, hbears, -⟩
      · exact hflag
      · -- the write sees the row of the earlier one, and was accepted with it
        have hkey : U.key e = U.key c := (hbears.keys c hx.2).symm
        have hclash : clash e b := (hU.clash_key e c b hkey).mpr hb
        have hseen := (hbears.seen c).mpr (hU.clash_self e c b hkey hclash)
        rw [flagIn_nil hfree]
        exact haccepts x hx.1 hseen
    · obtain ⟨y, hy, hbears, hflag⟩ := h c hc
      cases hhit : U.hit a y with
      | false => exact ⟨y, (mem_renewed hone).mpr (.inl ⟨hy, hhit⟩), hbears, hflag⟩
      | true =>
        have hyx : y = x := by
          rw [← List.mem_singleton, ← hone]
          exact List.mem_filter.mpr ⟨hy, hhit⟩
        subst hyx
        refine ⟨U.renew a y, hrenewed, hU.bears_renewed hbears hhit, fun hb => ?_⟩
        rw [hU.renew_flag a y hhit, hflag hb]

theorem Tracked.acceptedEach {ms : List M} (h : Tracked U sees flag want clash rows₀ done rows)
    (hfirst : ∀ b ∈ ms, Accepts sees flag want rows₀ b)
    (hdone : ∀ a ∈ done, ∀ b ∈ ms, clash a b → flagIn U flag want rows₀ a = want b)
    (hpairs : ms.Pairwise fun a b => clash a b → flagIn U flag want rows₀ a = want b) :
    AcceptedEach U sees flag want ms rows := by
  induction ms generalizing rows done with
  | nil => trivial
  | cons b ms ih =>
    obtain ⟨hb, hpairs⟩ := List.pairwise_cons.mp hpairs
    refine ⟨?_, fun rows' hup => ?_⟩
    · intro y hy hsees
      rcases h.origin y hy with hy | ⟨a, ha, hbears, hflag⟩
      · exact hfirst b List.mem_cons_self y hy hsees
      · rw [hflag]
        exact hdone a ha b List.mem_cons_self ((hbears.seen b).mp hsees)
    · refine ih (h.upsert hU hup) (fun c hc => hfirst c (List.mem_cons_of_mem b hc)) ?_ hpairs
      intro a ha c hc
      rcases List.mem_cons.mp ha with rfl | ha
      · exact hb c hc
      · exact hdone a ha c (List.mem_cons_of_mem b hc)

theorem Tracked.pairwise {ms : List M} (h : Tracked U sees flag want clash rows₀ done rows)
    (hpresent : Present U sees flag want clash rows₀ done rows)
    (hall : (U.upsertAll ms rows).isSome) (hms : AcceptedEach U sees flag want ms rows) :
    (∀ a ∈ done, ∀ b ∈ ms, clash a b → flagIn U flag want rows₀ a = want b) ∧
      ms.Pairwise fun a b => clash a b → flagIn U flag want rows₀ a = want b := by
  induction ms generalizing rows done with
  | nil => simp
  | cons b ms ih =>
    obtain ⟨haccepts, hrest⟩ := hms
    cases hup : U.upsert b rows with
    | none => simp [upsertAll, hup] at hall
    | some rows' =>
      have hall : (U.upsertAll ms rows').isSome := by simpa [upsertAll, hup] using hall
      obtain ⟨hdone, hpairs⟩ := ih (h.upsert hU hup) (Present.upsert hU h hpresent haccepts hup) hall
        (hrest rows' hup)
      constructor
      · intro a ha c hc hclash
        rcases List.mem_cons.mp hc with rfl | hc
        · obtain ⟨y, hy, hbears, hflag⟩ := hpresent a ha
          rw [← hflag ⟨c, hclash⟩]
          exact haccepts y hy ((hbears.seen c).mpr hclash)
        · exact hdone a (List.mem_cons_of_mem b ha) c hc hclash
      · exact List.pairwise_cons.mpr ⟨hdone b List.mem_cons_self, hpairs⟩

/-- Writes that are all accepted at the beginning are accepted each at its turn exactly if no write
leaves a flag that a later one, which sees its row, does not want. -/
theorem Flagged.acceptedEach_iff {ms : List M} (hall : (U.upsertAll ms rows₀).isSome)
    (hfirst : ∀ b ∈ ms, Accepts sees flag want rows₀ b) :
    AcceptedEach U sees flag want ms rows₀ ↔
      ms.Pairwise fun a b => clash a b → flagIn U flag want rows₀ a = want b := by
  constructor
  · intro h
    exact ((Tracked.start rows₀).pairwise hU (by simp [Present]) hall h).2
  · intro h
    exact (Tracked.start rows₀).acceptedEach hU hfirst (by simp) h

end Flags

end Upserts
end RoutingApi.Relational
