import RoutingApi.Concurrency.ControlPoints
import RoutingApi.Database.KeyLookup

/-! Rows that the lookup cannot tell apart. A save looks its key up and then inserts, and
between the two another call can insert the same key. -/
namespace RoutingApi.Concurrency
open Relational Gorm Models Process Program Database Migrations

section Statements
variable {E C κ ι : Type} (K : Kind E C κ)

/-- Two rows that agree on every column the lookup filters on, NULL being equal to NULL. -/
def Agrees (x y : Row C) : Prop := ∀ c ∈ K.keyColumns, x c = y c

instance (x y : Row C) : Decidable (Agrees K x y) :=
  inferInstanceAs (Decidable (∀ c ∈ K.keyColumns, x c = y c))

variable {K}

def NoDuplicates (w : World K) : Prop :=
  ∀ x ∈ w.table.rows, ∀ y ∈ w.table.rows, Agrees K x y → x = y

/-- The struct that a call would insert: the one of a `Create`, or of a `Save` whose row
is gone. -/
def inserts (w : World K) : Option (Call E C) → Option E
  | some (.create e) => some e
  | some (.save e) => if w.table.Stores (.text (K.guid e)) then none else some e
  | _ => none

/-- A condition on every struct that is about to be inserted. -/
def OnInsert (Q : World K → E → Prop) (P : Pool (Call E C) Call.Resp Err Unit (World K) ι) :
    Move ℕ ι → Prop
  | .env _ => True
  | .step i => ∀ e ∈ inserts P.world (P.threads i).next?, Q P.world e

instance (Q : World K → E → Prop) [∀ w e, Decidable (Q w e)]
    (P : Pool (Call E C) Call.Resp Err Unit (World K) ι) :
    (m : Move ℕ ι) → Decidable (OnInsert Q P m)
  | .env _ => isTrue trivial
  | .step i => inferInstanceAs
      (Decidable (∀ e ∈ inserts P.world (P.threads i).next?, Q P.world e))

theorem onInsert_mono {Q Q' : World K → E → Prop} (h : ∀ w e, Q w e → Q' w e)
    (P : Pool (Call E C) Call.Resp Err Unit (World K) ι) :
    ∀ m, OnInsert Q P m → OnInsert Q' P m
  | .env _, _ => trivial
  | .step _, hQ => fun e he => h _ e (hQ e he)

/-- The struct of a `Save` whose row is gone, and the row that it overwrites instead. -/
def overwrites (s : Schema C) (w : World K) : Option (Call E C) → Option (E × Row C)
  | some (.save e) =>
    if K.guid e = "" ∨ w.table.Stores (.text (K.guid e)) then none
    else (w.conflict s e).map fun x => (e, x)
  | _ => none

/-- A row is overwritten only by a struct with the same columns in the lookup. -/
def KeepsColumns (s : Schema C) (P : Pool (Call E C) Call.Resp Err Unit (World K) ι) :
    Move ℕ ι → Prop
  | .env _ => True
  | .step i => ∀ p ∈ overwrites s P.world (P.threads i).next?,
      Agrees K p.2 (K.model.insertRow s p.1)

instance (s : Schema C) (P : Pool (Call E C) Call.Resp Err Unit (World K) ι) :
    (m : Move ℕ ι) → Decidable (KeepsColumns s P m)
  | .env _ => isTrue trivial
  | .step i => inferInstanceAs (Decidable (∀ p ∈ overwrites s P.world (P.threads i).next?,
      Agrees K p.2 (K.model.insertRow s p.1)))

/-- The table has no duplicates and no call has failed because of them. -/
def Distinct (P : Pool (Call E C) Call.Resp Err Unit (World K) ι) : Prop :=
  NoDuplicates P.world ∧ ∀ i, (P.threads i).error? ≠ some (.plain K.duplicates)

end Statements

section Points
variable {E C κ : Type} (K : Kind E C κ)

/-- The stored row that a save has read and is going to write again. -/
def Point.carries : Point E → Option E
  | .refreshing existing _ => some existing
  | .storing e => some e
  | _ => none

/-- The guid that a save has drawn for the row it is going to insert. -/
def Point.drew : Point E → Option String
  | .stamping guid _ => some guid
  | .tagging e => some (K.guid e)
  | .inserting e => some (K.guid e)
  | _ => none

/-- An INSERT leaves the row where its own lookup does not see it. -/
def Hidden (s : Schema C) (e : E) : Prop :=
  holdsAll (K.lookup e) (K.model.insertRow s e) = false

/-- What inserting and scanning a row keeps of its key. -/
structure KeepsKey (s : Schema C) : Prop where
  key : ∀ e, K.key (K.model.ofRow (K.model.insertRow s e)) = K.key e
  hidden : ∀ e f, K.key e = K.key f → Hidden K s e → Hidden K s f

variable {K} {x y : Row C} {e f m : E}

theorem agrees_of_holds (hx : holdsAll (K.lookup m) x = true)
    (hy : holdsAll (K.lookup m) y = true) : Agrees K x y := by
  intro c hc
  rw [(K.holds_lookup m x).mp hx c hc, (K.holds_lookup m y).mp hy c hc]

theorem holds_of_agrees (hxy : Agrees K x y) (hy : holdsAll (K.lookup m) y = true) :
    holdsAll (K.lookup m) x = true := by
  rw [K.holds_lookup] at hy ⊢
  intro c hc
  rw [hxy c hc, hy c hc]

/-- A row that is overwritten by a struct with its columns keeps them. -/
theorem agrees_overwriteRow {s : Schema C} (h : Agrees K x (K.model.insertRow s e)) :
    Agrees K (K.model.overwriteRow e x) x := by
  intro c hc
  have hx := h c hc
  unfold Model.overwriteRow
  split
  next => rfl
  next hwritten =>
    rw [hx, K.model.insertRow_of_ne fun homits hzero => hwritten (.inr ⟨homits, hzero⟩)]

end Points

section Invariant
variable {E C κ ι : Type} {K : Kind E C κ} (env : Env) (s : Schema C)

/-- No uuid that is yet to be drawn is this one. -/
def Spent (n : ℕ) (g : String) : Prop := ∀ i, n ≤ i → env.newV4 i ≠ .ok g

/-- Why concurrent saves keep the table free of duplicates: a guid belongs to one key,
and the guids drawn for new rows are in use nowhere else. -/
structure Separate (w : World K) (pts : ι → Point E) : Prop where
  noDup : NoDuplicates w
  sameKey : ∀ i j e f, (pts i).carries = some e → (pts j).carries = some f →
    K.guid e = K.guid f → K.key e = K.key f
  hiddenOnce : ∀ i j e f, (pts i).carries = some e → (pts j).carries = some f →
    K.key e = K.key f → Hidden K s e → K.guid e = K.guid f
  seen : ∀ i e, (pts i).carries = some e → ∀ x ∈ w.table.rows,
    K.guid (K.model.ofRow x) = K.guid e → K.key (K.model.ofRow x) = K.key e ∧
      (holdsAll (K.lookup e) x = true ∨ Hidden K s e)
  seenOnce : ∀ i e, (pts i).carries = some e → Hidden K s e → ∀ x ∈ w.table.rows,
    holdsAll (K.lookup e) x = true → K.guid (K.model.ofRow x) = K.guid e
  storedSpent : ∀ x ∈ w.table.rows, Spent env w.uuids (K.guid (K.model.ofRow x))
  carriedSpent : ∀ i e, (pts i).carries = some e → Spent env w.uuids (K.guid e)
  drewSpent : ∀ i g, (pts i).drew K = some g → Spent env w.uuids g
  drewNotStored : ∀ i g, (pts i).drew K = some g → ∀ x ∈ w.table.rows,
    K.guid (K.model.ofRow x) ≠ g
  drewNotCarried : ∀ i g j e, (pts i).drew K = some g → (pts j).carries = some e → K.guid e ≠ g
  drewOnce : ∀ i j g, (pts i).drew K = some g → (pts j).drew K = some g → i = j
  noError : ∀ i, pts i ≠ .failed (.plain K.duplicates)

variable {env s} {w w' : World K} {pts pts' : ι → Point E} {i : ι} {p : Point E}

theorem Spent.mono {n n' : ℕ} {g : String} (h : Spent env n g) (hn : n ≤ n') :
    Spent env n' g := fun i hi => h i (hn.trans hi)

namespace Separate
variable (hkeeps : KeepsKey K s) (h : Separate env s w pts)

include h in
/-- Rows may go or change outside the columns of the lookup, and uuids may be used up. -/
theorem rewrite (hrows : ∀ y ∈ w'.table.rows, ∃ x ∈ w.table.rows,
      K.guid (K.model.ofRow y) = K.guid (K.model.ofRow x) ∧ Agrees K y x)
    (hu : w.uuids ≤ w'.uuids) : Separate env s w' pts := by
  refine ⟨?_, h.sameKey, h.hiddenOnce, ?_, ?_, ?_, ?_, ?_, ?_, h.drewNotCarried, h.drewOnce,
    h.noError⟩
  · intro y₁ hy₁ y₂ hy₂ hagree
    obtain ⟨x₁, hx₁, hg₁, ha₁⟩ := hrows y₁ hy₁
    obtain ⟨x₂, hx₂, hg₂, ha₂⟩ := hrows y₂ hy₂
    have hx : x₁ = x₂ := h.noDup x₁ hx₁ x₂ hx₂ fun c hc =>
      (ha₁ c hc).symm.trans ((hagree c hc).trans (ha₂ c hc))
    exact Table.eq_of_pk hy₁ hy₂
      (by rw [(w'.typed y₁ hy₁).pk, (w'.typed y₂ hy₂).pk, hg₁, hg₂, hx])
  · intro a e ha y hy hg
    obtain ⟨x, hx, hgx, hagree⟩ := hrows y hy
    obtain ⟨hkey, hseen⟩ := h.seen a e ha x hx (hgx.symm.trans hg)
    exact ⟨(K.key_ofRow y x hagree).trans hkey, hseen.imp_left (holds_of_agrees hagree)⟩
  · intro a e ha hh y hy hseen
    obtain ⟨x, hx, hgx, hagree⟩ := hrows y hy
    rw [hgx]
    exact h.seenOnce a e ha hh x hx (holds_of_agrees (fun c hc => (hagree c hc).symm) hseen)
  · intro y hy
    obtain ⟨x, hx, hgx, -⟩ := hrows y hy
    rw [hgx]
    exact (h.storedSpent x hx).mono hu
  · exact fun a e ha => (h.carriedSpent a e ha).mono hu
  · exact fun a g ha => (h.drewSpent a g ha).mono hu
  · intro a g ha y hy
    obtain ⟨x, hx, hgx, -⟩ := hrows y hy
    rw [hgx]
    exact h.drewNotStored a g ha x hx

include h in
theorem shrink (hrows : ∀ x ∈ w'.table.rows, x ∈ w.table.rows) (hu : w.uuids ≤ w'.uuids) :
    Separate env s w' pts :=
  h.rewrite (fun x hx => ⟨x, hrows x hx, rfl, fun _ _ => rfl⟩) hu

include hkeeps h in
/-- Points may forget what they hold, or hold another version of it. -/
theorem weaken (hcar : ∀ a e, (pts' a).carries = some e →
      ∃ f, (pts a).carries = some f ∧ K.guid e = K.guid f ∧ K.key e = K.key f)
    (hdrew : ∀ a g, (pts' a).drew K = some g → (pts a).drew K = some g)
    (herr : ∀ a, pts' a ≠ .failed (.plain K.duplicates)) : Separate env s w pts' := by
  refine ⟨h.noDup, ?_, ?_, ?_, ?_, h.storedSpent, ?_, ?_, ?_, ?_, ?_, herr⟩
  · intro a b e f ha hb hg
    obtain ⟨e', he', heg, hek⟩ := hcar a e ha
    obtain ⟨f', hf', hfg, hfk⟩ := hcar b f hb
    rw [hek, hfk]
    exact h.sameKey a b e' f' he' hf' (heg.symm.trans (hg.trans hfg))
  · intro a b e f ha hb hk hh
    obtain ⟨e', he', heg, hek⟩ := hcar a e ha
    obtain ⟨f', hf', hfg, hfk⟩ := hcar b f hb
    rw [heg, hfg]
    exact h.hiddenOnce a b e' f' he' hf' (hek.symm.trans (hk.trans hfk)) (hkeeps.hidden e e' hek hh)
  · intro a e ha x hx hg
    obtain ⟨e', he', heg, hek⟩ := hcar a e ha
    obtain ⟨hk, hseen⟩ := h.seen a e' he' x hx (hg.trans heg)
    refine ⟨hk.trans hek.symm, ?_⟩
    rw [K.lookup_congr e e' hek]
    exact hseen.imp_right (hkeeps.hidden e' e hek.symm)
  · intro a e ha hh x hx hseen
    obtain ⟨e', he', heg, hek⟩ := hcar a e ha
    rw [heg]
    rw [K.lookup_congr e e' hek] at hseen
    exact h.seenOnce a e' he' (hkeeps.hidden e e' hek hh) x hx hseen
  · intro a e ha
    obtain ⟨e', he', heg, -⟩ := hcar a e ha
    rw [heg]
    exact h.carriedSpent a e' he'
  · intro a g ha
    exact h.drewSpent a g (hdrew a g ha)
  · intro a g ha
    exact h.drewNotStored a g (hdrew a g ha)
  · intro a g b e ha hb
    obtain ⟨e', he', heg, -⟩ := hcar b e hb
    rw [heg]
    exact h.drewNotCarried a g b e' (hdrew a g ha) he'
  · intro a b g ha hb
    exact h.drewOnce a b g (hdrew a g ha) (hdrew b g hb)

section Repoint
variable [DecidableEq ι]

include hkeeps h in
/-- One call goes on with what it holds, or forgets it. -/
theorem repoint (hcar : ∀ e, p.carries = some e →
      ∃ f, (pts i).carries = some f ∧ K.guid e = K.guid f ∧ K.key e = K.key f)
    (hdrew : ∀ g, p.drew K = some g → (pts i).drew K = some g)
    (herr : p ≠ .failed (.plain K.duplicates)) :
    Separate env s w (Function.update pts i p) := by
  refine h.weaken hkeeps ?_ ?_ ?_
  · intro a e ha
    rcases (point_update Point.carries).mp ha with ⟨rfl, hp⟩ | ⟨-, ha⟩
    · exact hcar e hp
    · exact ⟨e, ha, rfl, rfl⟩
  · intro a g ha
    rcases (point_update (Point.drew K)).mp ha with ⟨rfl, hp⟩ | ⟨-, ha⟩
    · exact hdrew g hp
    · exact ha
  · intro a ha
    rcases point_update_eq.mp ha with ⟨-, hp⟩ | ⟨-, ha⟩
    · exact herr hp
    · exact h.noError a ha

include hkeeps h in
/-- A lookup has found a row. -/
theorem carry {m : E} {x : Row C} (hx : x ∈ w.table.rows)
    (hseen : holdsAll (K.lookup m) x = true) (hp : p.carries = some (K.model.ofRow x))
    (hdrew : p.drew K = none) (herr : p ≠ .failed (.plain K.duplicates)) :
    Separate env s w (Function.update pts i p) := by
  have hlook {f : E} (hk : K.key (K.model.ofRow x) = K.key f) :
      holdsAll (K.lookup f) x = true := by
    rwa [K.lookup_congr f m (hk.symm.trans (K.key_of_lookup m x hseen))]
  have hcases {a : ι} {e : E} (ha : (Function.update pts i p a).carries = some e) :
      e = K.model.ofRow x ∨ (pts a).carries = some e := by
    rcases (point_update Point.carries).mp ha with ⟨-, hpe⟩ | ⟨-, ha⟩
    · exact .inl (Option.some.inj (hpe.symm.trans hp))
    · exact .inr ha
  have hdrews {a : ι} {g : String} (ha : (Function.update pts i p a).drew K = some g) :
      (pts a).drew K = some g := by
    rcases (point_update (Point.drew K)).mp ha with ⟨-, hpg⟩ | ⟨-, ha⟩
    · rw [hdrew] at hpg
      cases hpg
    · exact ha
  refine ⟨h.noDup, ?_, ?_, ?_, ?_, h.storedSpent, ?_, ?_, ?_, ?_, ?_, ?_⟩
  · intro a b e f ha hb hg
    rcases hcases ha with rfl | ha' <;> rcases hcases hb with rfl | hb'
    · rfl
    · exact (h.seen b f hb' x hx hg).1
    · exact (h.seen a e ha' x hx hg.symm).1.symm
    · exact h.sameKey a b e f ha' hb' hg
  · intro a b e f ha hb hk hh
    rcases hcases ha with rfl | ha' <;> rcases hcases hb with rfl | hb'
    · rfl
    · exact h.seenOnce b f hb' (hkeeps.hidden _ f hk hh) x hx (hlook hk)
    · exact (h.seenOnce a e ha' hh x hx (hlook hk.symm)).symm
    · exact h.hiddenOnce a b e f ha' hb' hk hh
  · intro a e ha y hy hg
    rcases hcases ha with rfl | ha'
    · have hyx : y = x :=
        Table.eq_of_pk hy hx (by rw [(w.typed y hy).pk, (w.typed x hx).pk, hg])
      subst hyx
      exact ⟨rfl, .inl (hlook rfl)⟩
    · exact h.seen a e ha' y hy hg
  · intro a e ha hh y hy hyseen
    rcases hcases ha with rfl | ha'
    · rw [h.noDup y hy x hx (agrees_of_holds hyseen (hlook rfl))]
    · exact h.seenOnce a e ha' hh y hy hyseen
  · intro a e ha
    rcases hcases ha with rfl | ha'
    · exact h.storedSpent x hx
    · exact h.carriedSpent a e ha'
  · intro a g ha
    exact h.drewSpent a g (hdrews ha)
  · intro a g ha
    exact h.drewNotStored a g (hdrews ha)
  · intro a g b e ha hb
    rcases hcases hb with rfl | hb'
    · exact h.drewNotStored a g (hdrews ha) x hx
    · exact h.drewNotCarried a g b e (hdrews ha) hb'
  · intro a b g ha hb
    exact h.drewOnce a b g (hdrews ha) (hdrews hb)
  · intro a ha
    rcases point_update_eq.mp ha with ⟨-, hp⟩ | ⟨-, ha⟩
    · exact herr hp
    · exact h.noError a ha

include h in
/-- A uuid is drawn for a row to be inserted. -/
theorem draw (hids : env.Uuids) {g : String} (hg : env.newV4 w.uuids = .ok g)
    (hcar : p.carries = none) (hp : p.drew K = some g)
    (herr : p ≠ .failed (.plain K.duplicates)) :
    Separate env s w.drawn (Function.update pts i p) := by
  have hne {g' : String} (hspent : Spent env w.uuids g') : g' ≠ g :=
    fun heq => hspent w.uuids le_rfl (heq ▸ hg)
  have hspent : Spent env (w.uuids + 1) g := by
    intro n hn hdrawn
    have := hids.inj n w.uuids g hdrawn hg
    omega
  have hcars {a : ι} {e : E} (ha : (Function.update pts i p a).carries = some e) :
      (pts a).carries = some e := by
    rcases (point_update Point.carries).mp ha with ⟨-, hpe⟩ | ⟨-, ha⟩
    · rw [hcar] at hpe
      cases hpe
    · exact ha
  have hcases {a : ι} {g' : String} (ha : (Function.update pts i p a).drew K = some g') :
      (a = i ∧ g' = g) ∨ (a ≠ i ∧ (pts a).drew K = some g') := by
    rcases (point_update (Point.drew K)).mp ha with ⟨hai, hpg⟩ | ha
    · exact .inl ⟨hai, Option.some.inj (hpg.symm.trans hp)⟩
    · exact .inr ha
  have hle : w.uuids ≤ w.uuids + 1 := Nat.le_succ _
  refine ⟨h.noDup, ?_, ?_, ?_, ?_, fun x hx => (h.storedSpent x hx).mono hle, ?_, ?_, ?_, ?_, ?_, ?_⟩
  · exact fun a b e f ha hb => h.sameKey a b e f (hcars ha) (hcars hb)
  · exact fun a b e f ha hb => h.hiddenOnce a b e f (hcars ha) (hcars hb)
  · exact fun a e ha => h.seen a e (hcars ha)
  · exact fun a e ha => h.seenOnce a e (hcars ha)
  · exact fun a e ha => (h.carriedSpent a e (hcars ha)).mono hle
  · intro a g' ha
    rcases hcases ha with ⟨-, rfl⟩ | ⟨-, ha'⟩
    · exact hspent
    · exact (h.drewSpent a g' ha').mono hle
  · intro a g' ha x hx
    rcases hcases ha with ⟨-, rfl⟩ | ⟨-, ha'⟩
    · exact hne (h.storedSpent x hx)
    · exact h.drewNotStored a g' ha' x hx
  · intro a g' b e ha hb
    rcases hcases ha with ⟨-, rfl⟩ | ⟨-, ha'⟩
    · exact hne (h.carriedSpent b e (hcars hb))
    · exact h.drewNotCarried a g' b e ha' (hcars hb)
  · intro a b g' ha hb
    rcases hcases ha with ⟨hai, rfl⟩ | ⟨-, ha'⟩ <;> rcases hcases hb with ⟨hbi, hbg⟩ | ⟨-, hb'⟩
    · rw [hai, hbi]
    · exact absurd rfl (hne (h.drewSpent b _ hb'))
    · exact absurd hbg (hne (h.drewSpent a g' ha'))
    · exact h.drewOnce a b g' ha' hb'
  · intro a ha
    rcases point_update_eq.mp ha with ⟨-, hp⟩ | ⟨-, ha⟩
    · exact herr hp
    · exact h.noError a ha

end Repoint

include h in
/-- An UPDATE by a call that has read the row. -/
theorem update {e : E} (hi : (pts i).carries = some e) (hup : w.Updates w' s e) :
    Separate env s w' pts := by
  have hguid : K.guid (K.model.ofRow (K.model.toRow e)) = K.guid e := by rw [K.ofRow_toRow]
  obtain ⟨old, hold, holdpk⟩ := hup.stores
  have holdguid : K.guid (K.model.ofRow old) = K.guid e :=
    Cell.text.inj ((w.typed old hold).pk.symm.trans holdpk)
  -- no other row agrees with the row that is written
  have hother : ∀ z ∈ w.table.rows, z K.pk ≠ K.model.toRow e K.pk →
      ¬Agrees K z (K.model.toRow e) := by
    intro z hz hne hagree
    have hzseen := holds_of_agrees hagree (K.lookup_toRow e e rfl)
    rcases (h.seen i e hi old hold holdguid).2 with hseen | hhidden
    · have hzold := h.noDup z hz old hold (agrees_of_holds hzseen hseen)
      exact hne (hzold ▸ holdpk.trans (K.toRow_pk e).symm)
    · have hzguid := h.seenOnce i e hi hhidden z hz hzseen
      exact hne (by rw [(w.typed z hz).pk, hzguid, K.toRow_pk])
  refine ⟨?_, h.sameKey, h.hiddenOnce, ?_, ?_, ?_, ?_, ?_, ?_, h.drewNotCarried, h.drewOnce,
    h.noError⟩
  · intro x hx y hy hagree
    rcases hup.mem_rows.mp hx with ⟨hx, hxne⟩ | rfl <;> rcases hup.mem_rows.mp hy with ⟨hy, hyne⟩ | rfl
    · exact h.noDup x hx y hy hagree
    · exact absurd hagree (hother x hx hxne)
    · exact absurd (fun c hc => (hagree c hc).symm) (hother y hy hyne)
    · rfl
  · intro a f ha x hx hg
    rcases hup.mem_rows.mp hx with ⟨hx, -⟩ | rfl
    · exact h.seen a f ha x hx hg
    · have hk := h.sameKey i a e f hi ha (hguid.symm.trans hg)
      refine ⟨by rw [K.ofRow_toRow, hk], .inl (K.lookup_toRow f e hk)⟩
  · intro a f ha hh x hx hseen
    rcases hup.mem_rows.mp hx with ⟨hx, -⟩ | rfl
    · exact h.seenOnce a f ha hh x hx hseen
    · have hk := K.key_of_lookup f _ hseen
      rw [K.ofRow_toRow] at hk ⊢
      exact (h.hiddenOnce a i f e ha hi hk.symm hh).symm
  · intro x hx
    refine Spent.mono ?_ hup.uuids
    rcases hup.mem_rows.mp hx with ⟨hx, -⟩ | rfl
    · exact h.storedSpent x hx
    · rw [hguid]
      exact h.carriedSpent i e hi
  · exact fun a f ha => (h.carriedSpent a f ha).mono hup.uuids
  · exact fun a g ha => (h.drewSpent a g ha).mono hup.uuids
  · intro a g ha x hx
    rcases hup.mem_rows.mp hx with ⟨hx, -⟩ | rfl
    · exact h.drewNotStored a g ha x hx
    · rw [hguid]
      exact h.drewNotCarried a g i e ha hi

include hkeeps h in
/-- An INSERT that duplicates no row, under a guid that belongs to its key. -/
theorem insert {e : E} (hins : w.Inserts w' s e)
    (hnew : ∀ z ∈ w.table.rows, ¬Agrees K z (K.model.insertRow s e))
    (hcar : ∀ a f, (pts a).carries = some f → K.guid f = K.guid e → K.key f = K.key e)
    (hdrew : ∀ a, (pts a).drew K ≠ some (K.guid e)) (hspent : Spent env w.uuids (K.guid e)) :
    Separate env s w' pts := by
  have hguid : K.guid (K.model.ofRow (K.model.insertRow s e)) = K.guid e := by
    rw [K.guid_ofRow, K.insertRow_pk]
    rfl
  refine ⟨?_, h.sameKey, h.hiddenOnce, ?_, ?_, ?_, ?_, ?_, ?_, h.drewNotCarried, h.drewOnce,
    h.noError⟩
  · intro x hx y hy hagree
    rcases hins.mem_rows.mp hx with hx | rfl <;> rcases hins.mem_rows.mp hy with hy | rfl
    · exact h.noDup x hx y hy hagree
    · exact absurd hagree (hnew x hx)
    · exact absurd (fun c hc => (hagree c hc).symm) (hnew y hy)
    · rfl
  · intro a f ha x hx hg
    rcases hins.mem_rows.mp hx with hx | rfl
    · exact h.seen a f ha x hx hg
    · have hk := hcar a f ha (hg.symm.trans hguid)
      refine ⟨(hkeeps.key e).trans hk.symm, ?_⟩
      by_cases hh : Hidden K s e
      · exact .inr (hkeeps.hidden e f hk.symm hh)
      · rw [K.lookup_congr f e hk]
        exact .inl (eq_true_of_ne_false hh)
  · intro a f ha hh x hx hseen
    rcases hins.mem_rows.mp hx with hx | rfl
    · exact h.seenOnce a f ha hh x hx hseen
    · have hk : K.key f = K.key e := (K.key_of_lookup f _ hseen).symm.trans (hkeeps.key e)
      rw [K.lookup_congr f e hk, hkeeps.hidden f e hk hh] at hseen
      cases hseen
  · intro x hx
    refine Spent.mono ?_ hins.uuids
    rcases hins.mem_rows.mp hx with hx | rfl
    · exact h.storedSpent x hx
    · rwa [hguid]
  · exact fun a f ha => (h.carriedSpent a f ha).mono hins.uuids
  · exact fun a g ha => (h.drewSpent a g ha).mono hins.uuids
  · intro a g ha x hx
    rcases hins.mem_rows.mp hx with hx | rfl
    · exact h.drewNotStored a g ha x hx
    · rw [hguid]
      rintro rfl
      exact hdrew a ha

end Separate
end Invariant

section Runs
variable {E C κ : Type} {K : Kind E C κ} {env : Env} {s : Schema C} {w w' : World K}

/-- The index refuses every row that would duplicate a stored one. -/
def RefusesDuplicate (s : Schema C) (w : World K) (e : E) : Prop :=
  ∀ z ∈ w.table.rows, Agrees K z (K.model.insertRow s e) →
    admits s.indexes w.table.rows (K.model.insertRow s e) = false

theorem RefusesDuplicate.new {e : E} (h : RefusesDuplicate s w e) (hins : w.Inserts w' s e) :
    ∀ z ∈ w.table.rows, ¬Agrees K z (K.model.insertRow s e) := by
  intro z hz hagree
  have hadmits := (Table.insert_some hins.insert).2.2
  rw [h z hz hagree] at hadmits
  cases hadmits

/-- Without duplicates a lookup returns at most one row. -/
theorem NoDuplicates.select_length (h : NoDuplicates w) (m : E) :
    (w.table.select (K.lookup m)).length ≤ 1 := by
  match hsel : w.table.select (K.lookup m) with
  | [] => simp
  | [x] => simp
  | x :: y :: rest =>
    have hnd : (w.table.select (K.lookup m)).Nodup := w.table.nodup_rows.filter _
    have hx : x ∈ w.table.select (K.lookup m) := by simp [hsel]
    have hy : y ∈ w.table.select (K.lookup m) := by simp [hsel]
    obtain ⟨hx, hxh⟩ := Table.mem_select.mp hx
    obtain ⟨hy, hyh⟩ := Table.mem_select.mp hy
    have hxy := h x hx y hy (agrees_of_holds hxh hyh)
    rw [hsel, hxy] at hnd
    exact absurd List.mem_cons_self (List.nodup_cons.mp hnd).1

variable {ι : Type} [DecidableEq E] [DecidableEq ι] {pts : ι → Point E} {i : ι} {p : Point E}

/-- Every step that inserts no duplicate keeps the invariant. -/
theorem Separate.step (hids : env.Uuids) (hkeeps : KeepsKey K s) (h : Separate env s w pts)
    (hQ : ∀ e ∈ inserts w ((pts i).call K), RefusesDuplicate s w e)
    (hO : ∀ q ∈ overwrites s w ((pts i).call K), Agrees K q.2 (K.model.insertRow s q.1))
    (hs : Step env s w (pts i) p w') : Separate env s w' (Function.update pts i p) := by
  have hplain {q : Point E} (hc : q.carries = none) (hd : q.drew K = none)
      (he : q ≠ .failed (.plain K.duplicates)) {v : World K} (hv : Separate env s v pts) :
      Separate env s v (Function.update pts i q) :=
    hv.repoint hkeeps (fun e hq => by rw [hc] at hq; cases hq)
      (fun g hq => by rw [hd] at hq; cases hq) he
  have hemits {evs : List (Event E)} (hw : w.Emits w' evs) {qs : ι → Point E}
      (hv : Separate env s w qs) : Separate env s w' qs :=
    hv.shrink (fun x hx => hw.table ▸ hx) hw.uuids
  generalize hp : pts i = q at hs hQ hO
  cases hs with
  | failed _ e _ _ hw hdup =>
    refine hemits hw (hplain rfl rfl ?_ h)
    intro he
    obtain ⟨m, -, hlen⟩ := hdup (Point.failed.inj he)
    have := h.noDup.select_length m
    omega
  | matched m x _ hw hx => exact hemits hw (h.carry hkeeps hx.mem hx.holds rfl rfl (by simp))
  | unmatched m _ hw _ => exact hemits hw (hplain rfl rfl (by simp) h)
  | refreshed existing m e hu =>
    refine h.repoint hkeeps (fun f hf => ?_) (fun g hg => by cases hg) (by simp)
    cases hf
    exact ⟨existing, hp ▸ rfl, K.update_guid _ _ _ _ hu, K.update_key _ _ _ _ hu⟩
  | drewGuid m g hg => exact h.draw hids hg rfl rfl (by simp)
  | stamped g m e he =>
    refine h.repoint hkeeps (fun f hf => by cases hf) (fun g' hg => ?_) (by simp)
    rw [hp, ← hg]
    exact congrArg some (K.withModel_guid _ _ _ _ he).symm
  | drewTag e u hu =>
    have hnext : Separate env s w (Function.update pts i (.inserting (K.setTag ⟨u, 0⟩ e))) := by
      refine h.repoint hkeeps (fun f hf => by cases hf) (fun g' hg => ?_) (by simp)
      rw [hp, ← hg]
      exact congrArg some (K.setTag_guid _ _).symm
    exact hnext.shrink (fun _ hx => hx) (Nat.le_succ _)
  | inserted e _ hins =>
    have hdrew : (pts i).drew K = some (K.guid e) := by rw [hp]; rfl
    refine (hplain rfl rfl (by simp) h).insert hkeeps hins ((hQ e rfl).new hins) ?_ ?_
      (h.drewSpent i _ hdrew)
    · intro a f ha hg
      rcases (point_update Point.carries).mp ha with ⟨-, habs⟩ | ⟨-, ha⟩
      · cases habs
      · exact absurd hg (h.drewNotCarried i _ a f hdrew ha)
    · intro a ha
      rcases (point_update (Point.drew K)).mp ha with ⟨-, habs⟩ | ⟨hai, ha⟩
      · cases habs
      · exact hai (h.drewOnce a i _ ha hdrew)
  | updated e _ _ hup =>
    have hcar : (pts i).carries = some e := by rw [hp]; rfl
    exact hplain rfl rfl (by simp) (h.update hcar hup)
  | overwritten e x _ hguid hgone hover =>
    have hagree : Agrees K x (K.model.insertRow s e) :=
      hO (e, x) (by simp [Point.call, overwrites, hguid, hgone, hover.conflict])
    refine hplain rfl rfl (by simp) (h.rewrite ?_ hover.uuids)
    intro y hy
    rcases hover.mem_rows.mp hy with ⟨hy, -⟩ | rfl
    · exact ⟨y, hy, rfl, fun _ _ => rfl⟩
    · exact ⟨x, hover.mem, Kind.guid_overwriteRow e x, agrees_overwriteRow hagree⟩
  | reinserted e _ hn _ hins =>
    have hcar : (pts i).carries = some e := by rw [hp]; rfl
    have hQ' : RefusesDuplicate s w e := hQ e (by simp [Point.call, inserts, hn])
    refine hplain rfl rfl (by simp) (h.insert hkeeps hins (hQ'.new hins) ?_ ?_
      (h.carriedSpent i e hcar))
    · exact fun a f ha hg => h.sameKey a i f e ha hcar hg
    · exact fun a ha => h.drewNotCarried a _ i e ha hcar rfl
  | located m x _ hw _ => exact hemits hw (hplain rfl rfl (by simp) h)
  | removed x _ _ hr =>
    exact hplain rfl rfl (by simp) (h.shrink (fun _ hy => (hr.mem_rows.mp hy).1) hr.uuids)
  | looked => exact hplain rfl rfl (by simp) h
  | scanned now _ hw => exact hemits hw (hplain rfl rfl (by simp) h)
  | cleared routes _ hr =>
    exact hplain rfl rfl (by simp) (h.shrink (fun _ hy => (hr.mem_rows.mp hy).1) hr.uuids)
  | expired r rest _ hw => exact hemits hw (hplain rfl rfl (by simp) h)
  | announced ev _ hw => exact hemits hw (hplain rfl rfl (by simp) h)
  | finished _ _ =>
    rw [← hp, Function.update_eq_self]
    exact h

omit [DecidableEq E] [DecidableEq ι] in
theorem separate_start (h0 : NoDuplicates w)
    (hold : ∀ e ∈ w.stored, ∀ n, env.newV4 n ≠ .ok (K.guid e)) (jobs : ι → Job E) :
    Separate env s w fun i => (jobs i).start := by
  have hstart : ∀ i, ((jobs i).start).carries = none ∧ ((jobs i).start).drew K = none ∧
      (jobs i).start ≠ .failed (.plain K.duplicates) := by
    intro i
    cases jobs i <;> exact ⟨rfl, rfl, nofun⟩
  have hcar {i : ι} {e : E} (hi : ((jobs i).start).carries = some e) : False := by
    rw [(hstart i).1] at hi
    cases hi
  have hdrew {i : ι} {g : String} (hi : ((jobs i).start).drew K = some g) : False := by
    rw [(hstart i).2.1] at hi
    cases hi
  refine ⟨h0, fun i _ _ _ hi => (hcar hi).elim, fun i _ _ _ hi => (hcar hi).elim,
    fun i _ hi => (hcar hi).elim, fun i _ hi => (hcar hi).elim, fun x hx n _ => ?_,
    fun i _ hi => (hcar hi).elim, fun i _ hi => (hdrew hi).elim, fun i _ hi => (hdrew hi).elim,
    fun i _ _ _ hi => (hdrew hi).elim, fun i _ _ hi => (hdrew hi).elim, fun i => (hstart i).2.2⟩
  exact hold _ (World.mem_stored.mpr ⟨x, hx, rfl⟩) n

/-- Runs whose inserts duplicate nothing, and whose saves overwrite no row with other columns,
stay free of duplicates, in every state. -/
theorem distinct_of_meets (hids : env.Uuids) (hkeeps : KeepsKey K s) (h0 : NoDuplicates w)
    (hold : ∀ e ∈ w.stored, ∀ n, env.newV4 n ≠ .ok (K.guid e)) (jobs : ι → Job E)
    {ms : List (Move ℕ ι)}
    (hms : Meets (move env s) (fun P m => OnInsert (RefusesDuplicate s) P m ∧ KeepsColumns s P m)
      (calls w jobs) ms) :
    Always (move env s) Distinct (calls w jobs) ms := by
  have hall : Always (move env s) ((chart env s).At (Separate env s)) (calls w jobs) ms := by
    refine always_of_meets (Chart.at_move ?_ ?_) ?_ hms
    · intro w pts d h _
      exact h.shrink (fun _ hx => hx) le_rfl
    · intro w pts i h hQ
      refine h.step hids hkeeps ?_ ?_ (chart_step env s w (pts i))
      · rw [← next?_prog]
        exact hQ.1
      · rw [← next?_prog]
        exact hQ.2
    · rw [calls_eq env s]
      exact ⟨_, rfl, separate_start h0 hold jobs⟩
  refine hall.mono ?_
  rintro P ⟨pts, hP, h⟩
  refine ⟨h.noDup, fun i hi => h.noError i ?_⟩
  rw [hP] at hi
  exact error?_prog hi

end Runs

section Tcp
variable {d : Dialect}

theorem tcp_hidden_iff {e : TcpRouteMapping} :
    Hidden tcpKind (tcpSchema d) e ↔ e.hostTLSPort = 0 := by
  have hholds := StoredAs.holds_iff (d := d) (m := e) (.inl rfl : StoredAs d _ e)
  unfold Hidden
  rw [← Bool.not_eq_true]
  exact (not_congr hholds).trans ⟨fun h => by_contra fun hne => h ⟨rfl, hne⟩, fun h hc => hc.2 h⟩

theorem tcp_keepsKey (d : Dialect) : KeepsKey tcpKind (tcpSchema d) where
  key e := congrArg TcpRouteMapping.key (StoredAs.ofRow (d := d) (.inl rfl))
  hidden e f hkey he := by
    rw [tcp_hidden_iff] at he ⊢
    exact (congrArg TcpRouteMapping.Key.hostTLSPort hkey).symm.trans he

/-- The index of V11 refuses a mapping that stands beside a row with its seven columns,
provided that no indexed column is NULL and the frontend TLS flags agree as well. -/
def Guarded (d : Dialect) (w : World tcpKind) (e : TcpRouteMapping) : Prop :=
  ∀ x ∈ w.table.rows, Agrees tcpKind x (TcpRouteMapping.model.insertRow (tcpSchema d) e) →
    e.sniHostname ≠ none ∧ e.hostTLSPort ≠ 0 ∧
      x .terminateFrontendTLS = .bool e.terminateFrontendTLS

instance (d : Dialect) (w : World tcpKind) (e : TcpRouteMapping) : Decidable (Guarded d w e) :=
  inferInstanceAs (Decidable (∀ x ∈ w.table.rows,
    Agrees tcpKind x (TcpRouteMapping.model.insertRow (tcpSchema d) e) →
      e.sniHostname ≠ none ∧ e.hostTLSPort ≠ 0 ∧
        x .terminateFrontendTLS = .bool e.terminateFrontendTLS))

theorem Guarded.refuses {w : World tcpKind} {e : TcpRouteMapping} (h : Guarded d w e) :
    RefusesDuplicate (tcpSchema d) w e := by
  intro x hx hagree
  obtain ⟨hsni, hport, hflag⟩ := h x hx hagree
  have hnew : StoredAs d (TcpRouteMapping.model.insertRow (tcpSchema d) e) e := .inl rfl
  rw [← Bool.not_eq_true, admits_iff, tcpSchema_indexes]
  intro hall
  refine absurd (hall _ (List.mem_singleton_self _) x hx) ?_
  rw [Bool.not_eq_false]
  apply UniqueIndex.clash_of_eq
  intro p hp
  have hcol : (p.1 ∈ tcpKind.keyColumns ∨ p.1 = .terminateFrontendTLS) ∧ p.1 ≠ .instanceId ∧
      e.toRow p.1 ≠ .null := by
    have hname : e.toRow .sniHostname ≠ .null := by
      cases hs : e.sniHostname with
      | none => exact absurd hs hsni
      | some name => simp [TcpRouteMapping.toRow, hs, textPtr]
    simp only [idxTcpRoute, List.cons_append, List.nil_append, List.mem_cons,
      List.not_mem_nil, or_false] at hp
    rcases hp with rfl | rfl | rfl | rfl | rfl | rfl | rfl | rfl
    all_goals first
      | exact ⟨by simp [tcpKind], by simp, hname⟩
      | exact ⟨by simp [tcpKind], by simp, by simp [TcpRouteMapping.toRow]⟩
  obtain ⟨hc, hinst, hnull⟩ := hcol
  refine ⟨?_, hnew.column hport hinst ▸ hnull⟩
  rcases hc with hc | hc
  · exact hagree p.1 hc
  · rw [hc, hflag]
    exact (hnew.column hport (c := .terminateFrontendTLS) (by decide)).symm

/-- Saves, deletes and prune passes that run concurrently on `tcp_routes`: as long as every
insert beside a row with the same seven columns is one for which the index of V11 finds that row,
and a `Save` overwrites in place of its own only a row with the same seven columns, the table has
no duplicates and no call fails because of them. -/
theorem concurrent_saves_distinct_tcp {ι : Type} [DecidableEq ι] (d : Dialect) (env : Env)
    (hids : env.Uuids) (w : World tcpKind) (h0 : NoDuplicates w)
    (hold : ∀ e ∈ w.stored, ∀ n, env.newV4 n ≠ .ok e.guid) (jobs : ι → Job TcpRouteMapping)
    (ms : List (Move ℕ ι))
    (hms : Meets (move env (tcpSchema d))
      (fun P m => OnInsert (Guarded d) P m ∧ KeepsColumns (tcpSchema d) P m) (calls w jobs) ms) :
    Always (move env (tcpSchema d)) Distinct (calls w jobs) ms :=
  distinct_of_meets hids (tcp_keepsKey d) h0 hold jobs
    (hms.mono fun P m h => ⟨onInsert_mono (fun _ _ => Guarded.refuses) P m h.1, h.2⟩)

/-- A mapping with a TLS port, as a client sends it. -/
def tlsMapping : TcpRouteMapping := { plainMapping with hostTLSPort := 443 }

/-- Two saves look their mapping up before either inserts it; a third looks it up then. -/
def lookedUpTogether : List (Move ℕ (Fin 3)) :=
  [.step 0, .step 1, .step 0, .step 0, .step 0, .step 0, .step 0, .step 1, .step 1, .step 1,
    .step 1, .step 1, .step 2]

/-- Without an SNI hostname both inserts pass the index and the third save fails. -/
theorem nil_sni_mapping_duplicated :
    let P := play (move .quiet (tcpSchema .mysql))
      (calls (World.initial tcpKind) fun _ => .save tlsMapping) lookedUpTogether
    (∀ i, (P.threads i).Finished) ∧
      P.world.stored.map (fun m => (m.guid, m.key)) =
        [("u", tlsMapping.key), ("uuu", tlsMapping.key)] ∧
      (P.threads 0).error? = none ∧ (P.threads 1).error? = none ∧
      (P.threads 2).error? = some (.plain "have duplicate tcp route mappings") := by
  decide +kernel

/-- Two saves, a delete and a third save. -/
def saveAndDelete (m : TcpRouteMapping) : ℕ → Job TcpRouteMapping
  | 2 => .delete m
  | _ => .save m

/-- A save is about to write the row it has found; the row is deleted and a new one created. -/
def overwrittenLater : List (Move ℕ ℕ) :=
  [.step 0, .step 0, .step 0, .step 0, .step 0, .step 0, .step 1, .step 1, .step 2, .step 2,
    .step 2, .step 3, .step 3, .step 3, .step 3, .step 3, .step 3, .step 1, .step 1]

/-- With one, the index refuses the second insert; and a save whose row is gone overwrites the one
that has been created in its place. -/
theorem sni_mapping_distinct :
    let m := { tlsMapping with sniHostname := some "a.example.com" }
    let P := calls (World.initial tcpKind) fun _ : Fin 3 => .save m
    let P' := calls (World.initial tcpKind) (saveAndDelete m)
    let R := play (move .quiet (tcpSchema .mysql)) P' overwrittenLater
    ((play (move .quiet (tcpSchema .mysql)) P lookedUpTogether).threads 1).error? =
        some constraintError ∧
      Always (move .quiet (tcpSchema .mysql)) Distinct P lookedUpTogether ∧
      (∀ i < 4, (R.threads i).Finished ∧ (R.threads i).error? = none) ∧
      R.world.stored.map (fun m => (m.guid, m.modificationTag)) = [("uuu", ⟨"uu", 1⟩)] ∧
      Always (move .quiet (tcpSchema .mysql)) Distinct P' overwrittenLater := by
  have hdistinct {ι : Type} [DecidableEq ι] := @concurrent_saves_distinct_tcp ι _ .mysql .quiet
    Env.quiet_uuids (World.initial tcpKind) (fun x hx => by cases hx) (fun e he => by cases he)
  refine ⟨by decide +kernel, hdistinct _ _ ?_, by decide +kernel, by decide +kernel,
    hdistinct _ _ ?_⟩
  · decide +kernel
  · decide +kernel

end Tcp
end RoutingApi.Concurrency
