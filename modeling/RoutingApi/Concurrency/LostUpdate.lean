import RoutingApi.Concurrency.Announcement

/-! Concurrent saves of one stored key. Each reads the modification tag, increments it in
memory and writes it back, so how far the tag gets depends on who read what. -/
namespace RoutingApi.Concurrency
open Relational Gorm Models Process Program Database Migrations

section Statements
variable {E C κ ι : Type} {K : Kind E C κ}

/-- The struct of a `Save`. -/
def Call.saved : Option (Call E C) → Option E
  | some (.save e) => some e
  | _ => none

/-- Every `Save` carries the tag after the stored one: nobody has written the row since it
was read. -/
def WritesNext (P : Pool (Call E C) Call.Resp Err Unit (World K) ι) : Move ℕ ι → Prop
  | .env _ => True
  | .step i => ∀ e ∈ Call.saved (P.threads i).next?, ∀ y ∈ P.world.stored,
      K.guid y = K.guid e → K.tag e = (K.tag y).increment

instance (P : Pool (Call E C) Call.Resp Err Unit (World K) ι) :
    (m : Move ℕ ι) → Decidable (WritesNext P m)
  | .env _ => isTrue trivial
  | .step i => inferInstanceAs (Decidable (∀ e ∈ Call.saved (P.threads i).next?,
      ∀ y ∈ P.world.stored, K.guid y = K.guid e → K.tag e = (K.tag y).increment))

/-- From `w` to `w'` the row of `x` has counted `n` updates and announced each of them
under a tag of its own. -/
structure CountsUpdates (n : ℕ) (x : E) (w w' : World K) : Prop where
  grown : ∃ y ∈ w'.stored, K.guid y = K.guid x ∧
    (K.tag y).index.toNat = (K.tag x).index.toNat + n
  announced : ∃ evs, w'.log = w.log ++ evs ∧ evs.length = n ∧
    (∀ ev ∈ evs, ev.type.string = "Upsert" ∧ K.guid ev.value = K.guid x) ∧
    (evs.map fun ev => K.tag ev.value).Nodup

end Statements

section Points
variable {E C κ : Type} (K : Kind E C κ) (x : E)

/-- Whether a save has written its row. -/
def Point.wrote : Point E → Bool
  | .announcing _ | .done => true
  | _ => false

variable {K} in
theorem storing_of_saved {p : Point E} {e : E} (h : e ∈ Call.saved (p.call K)) :
    p = .storing e := by
  cases p with
  | storing e' =>
    cases h
    rfl
  | expiring routes => cases routes <;> cases h
  | _ => cases h

/-- The tag of `x` after a number of updates. -/
def tagAfter (n : ℕ) : ModificationTag := ModificationTag.increment^[n] (K.tag x)

/-- Where a save of the row of `x` can stand when at most `b` updates were there to read. -/
def Stage (b : ℕ) : Point E → Prop
  | .saving m => K.key m = K.key x
  | .refreshing existing _ => K.guid existing = K.guid x ∧ K.key existing = K.key x ∧
      ∃ r ≤ b, K.tag existing = tagAfter K x r
  | .storing e => K.guid e = K.guid x ∧ K.key e = K.key x ∧
      ∃ r ≤ b, K.tag e = tagAfter K x (r + 1)
  | .announcing ev => ev.type = .update ∧ K.guid ev.value = K.guid x
  | .done | .failed _ => True
  | _ => False

variable {K x} {b b' : ℕ} {p : Point E}

theorem tagAfter_succ (n : ℕ) : tagAfter K x (n + 1) = (tagAfter K x n).increment :=
  Function.iterate_succ_apply' _ _ _

theorem tagAfter_index {n : ℕ} (h : (K.tag x).index.toNat + n < 2 ^ 32) :
    (tagAfter K x n).index.toNat = (K.tag x).index.toNat + n := by
  rw [tagAfter, ModificationTag.increment_iterate_toNat, Nat.mod_eq_of_lt h]

theorem Stage.mono (h : Stage K x b p) (hb : b ≤ b') : Stage K x b' p := by
  cases p with
  | refreshing existing m =>
    obtain ⟨hg, hk, r, hr, ht⟩ := h
    exact ⟨hg, hk, r, hr.trans hb, ht⟩
  | storing e =>
    obtain ⟨hg, hk, r, hr, ht⟩ := h
    exact ⟨hg, hk, r, hr.trans hb, ht⟩
  | _ => exact h

end Points

section Reads
variable {E C κ ι : Type} {K : Kind E C κ} {x : E}

variable (K x) in
/-- The row of `x` is stored with the tag of `v` updates, and nobody has read more than `b`. -/
structure Reads (b v : ℕ) (w : World K) (pts : ι → Point E) : Prop where
  row : ∃ y, (∀ m, K.key m = K.key x → w.Matched m y) ∧
    K.guid (K.model.ofRow y) = K.guid x ∧ K.tag (K.model.ofRow y) = tagAfter K x v
  le : v ≤ b
  stage : ∀ i, Stage K x b (pts i)

variable {b b' v v' : ℕ} {env : Env} {s : Schema C} {w w' : World K} {pts : ι → Point E}
  {i : ι} {p : Point E} {e : E}

namespace Reads
variable (h : Reads K x b v w pts)
include h

/-- The stored row of the key is one. -/
theorem tag_stored {y : E} (hy : y ∈ w.stored) (hg : K.guid y = K.guid x) :
    K.tag y = tagAfter K x v := by
  obtain ⟨z, hz, hzg, hzt⟩ := h.row
  have hmem : K.model.ofRow z ∈ w.stored := World.mem_stored.mpr ⟨z, (hz x rfl).mem, rfl⟩
  rw [World.stored_inj hy hmem (hg.trans hzg.symm), hzt]

theorem stores (hg : K.guid e = K.guid x) : w.table.Stores (.text (K.guid e)) := by
  obtain ⟨z, hz, hzg, -⟩ := h.row
  have hmem := (hz x rfl).mem
  exact ⟨z, hmem, by rw [(w.typed z hmem).pk, hzg, hg]⟩

theorem tick (d : ℕ) : Reads K x b v (w.tick d) pts := by
  obtain ⟨z, hz, hz'⟩ := h.row
  exact ⟨⟨z, fun m hm => ⟨(hz m hm).select, (hz m hm).ne_zero⟩, hz'⟩, h.le, h.stage⟩

variable [DecidableEq E]

/-- What a step of a save does while the row stays stored. -/
theorem cases (hs : Step env s w (pts i) p w') :
    (w.Emits w' [] ∧ Stage K x b p ∧ (pts i).wrote = false ∧ p.wrote = false) ∨
    (∃ e, pts i = .storing e ∧ p = .announcing ⟨.update, e⟩ ∧ w.Updates w' s e ∧
      K.guid e ≠ "") ∨
    (∃ ev, pts i = .announcing ev ∧ p = .done ∧ w.Emits w' [ev]) ∨ (w' = w ∧ p = pts i) := by
  obtain ⟨z, hz, hzg, hzt⟩ := h.row
  have hstage := h.stage i
  generalize pts i = q at hs hstage
  cases hs with
  | failed _ e _ hf hw _ =>
    refine .inl ⟨hw, trivial, ?_, rfl⟩
    cases q <;> first | rfl | cases hf
  | matched m y _ hw hy =>
    have hyz : y = z := hy.eq (hz m hstage)
    subst hyz
    exact .inl ⟨hw, ⟨hzg, hy.key.trans hstage, v, h.le, hzt⟩, rfl, rfl⟩
  | unmatched m _ _ hn => exact absurd hn (hz m hstage).not_unmatched
  | refreshed existing m e hu =>
    obtain ⟨hg, hk, r, hr, ht⟩ := hstage
    refine .inl ⟨.refl w, ⟨(K.update_guid _ _ _ _ hu).trans hg,
      (K.update_key _ _ _ _ hu).trans hk, r, hr, ?_⟩, rfl, rfl⟩
    rw [K.update_tag _ _ _ _ hu, ht, tagAfter_succ]
  | updated e _ hne hup => exact .inr (.inl ⟨e, rfl, rfl, hup, hne⟩)
  | reinserted e _ hn _ _ => exact absurd (h.stores hstage.1) hn
  | overwritten e _ _ _ hn _ => exact absurd (h.stores hstage.1) hn
  | announced ev _ hw => exact .inr (.inr (.inl ⟨ev, rfl, rfl, hw⟩))
  | finished _ _ => exact .inr (.inr (.inr ⟨rfl, rfl⟩))
  | _ => exact hstage.elim

omit [DecidableEq E] in
theorem emits {evs : List (Event E)} (hw : w.Emits w' evs) : Reads K x b v w' pts := by
  obtain ⟨z, hz, hzg, hzt⟩ := h.row
  exact ⟨⟨z, fun m hm => (hz m hm).emits hw, hzg, hzt⟩, h.le, h.stage⟩

variable [DecidableEq ι]

omit [DecidableEq E] in
theorem moves (hp : Stage K x b p) : Reads K x b v w (Function.update pts i p) :=
  ⟨h.row, h.le, (Function.forall_update_iff pts fun _ q => Stage K x b q).mpr
    ⟨hp, fun a _ => h.stage a⟩⟩

omit [DecidableEq E] in
theorem writes (hi : pts i = .storing e) (hup : w.Updates w' s e) (hne : K.guid e ≠ "")
    (ht : K.tag e = tagAfter K x v') (hv : v' ≤ b') (hb : b ≤ b') :
    Reads K x b' v' w' (Function.update pts i (.announcing ⟨.update, e⟩)) := by
  obtain ⟨z, hz, hzg, -⟩ := h.row
  have hstage := h.stage i
  rw [hi] at hstage
  obtain ⟨hg, hk, -⟩ := hstage
  have hrow : ∀ m, K.key m = K.key x → w'.Matched m (K.model.toRow e) := fun m hm =>
    (hz m hm).updates hup (hg.trans hzg.symm) (hk.trans hm.symm) hne
  have hwider : Reads K x b' v' w' pts := by
    refine ⟨⟨_, hrow, ?_, ?_⟩, hv, fun a => (h.stage a).mono hb⟩
    · rw [K.ofRow_toRow, hg]
    · rw [K.ofRow_toRow, ht]
  exact hwider.moves ⟨rfl, hg⟩

end Reads
end Reads

section Order
variable {E C κ ι : Type} {K : Kind E C κ} {x : E} {w₀ w w' : World K} {ws ls : List ι}
  {pts : ι → Point E} {i : ι} {p : Point E}

/-- The calls that have written, in the order of their writes. -/
structure Written (ws : List ι) (pts : ι → Point E) : Prop where
  nodup : ws.Nodup
  mem : ∀ i, i ∈ ws ↔ (pts i).wrote = true

section Written
variable [DecidableEq ι]

theorem Written.keep (h : Written ws pts) (hp : p.wrote = (pts i).wrote) :
    Written ws (Function.update pts i p) :=
  ⟨h.nodup, (Function.forall_update_iff pts fun a q => a ∈ ws ↔ q.wrote = true).mpr
    ⟨by rw [hp, h.mem], fun a _ => h.mem a⟩⟩

theorem Written.add (h : Written ws pts) (hi : (pts i).wrote = false) (hp : p.wrote = true) :
    Written (ws ++ [i]) (Function.update pts i p) := by
  have hnew : i ∉ ws := by simp [h.mem, hi]
  refine ⟨List.concat_eq_append ▸ h.nodup.concat hnew,
    (Function.forall_update_iff pts fun a q => a ∈ ws ++ [i] ↔ q.wrote = true).mpr ⟨?_, ?_⟩⟩
  · simp [hp]
  · intro a ha
    simp [ha, h.mem]

end Written

variable [DecidableEq ι]

variable (x w₀ ws ls) in
/-- The calls that have announced their write, in order. As long as nobody has overtaken
anybody, the position of a write says which tag it carries. -/
structure InOrder (w : World K) (pts : ι → Point E) : Prop where
  nodup : ls.Nodup
  mem : ∀ i, i ∈ ls ↔ pts i = .done
  pending : ∀ i ev, pts i = .announcing ev → K.tag ev.value = tagAfter K x (ws.idxOf i + 1)
  log : ∃ evs, w.log = w₀.log ++ evs ∧
    (∀ ev ∈ evs, ev.type.string = "Upsert" ∧ K.guid ev.value = K.guid x) ∧
    (evs.map fun ev => K.tag ev.value) = ls.map fun i => tagAfter K x (ws.idxOf i + 1)

namespace InOrder
variable (h : InOrder x w₀ ws ls w pts)
include h

theorem congr (hlog : w'.log = w.log) : InOrder x w₀ ws ls w' pts :=
  ⟨h.nodup, h.mem, h.pending, hlog ▸ h.log⟩

theorem keep (hi : (pts i).wrote = false) (hp : p.wrote = false) :
    InOrder x w₀ ws ls w (Function.update pts i p) := by
  refine ⟨h.nodup,
    (Function.forall_update_iff pts fun a q => a ∈ ls ↔ q = .done).mpr
      ⟨?_, fun a _ => h.mem a⟩,
    (Function.forall_update_iff pts fun a q => ∀ ev, q = .announcing ev →
      K.tag ev.value = tagAfter K x (ws.idxOf a + 1)).mpr ⟨?_, fun a _ => h.pending a⟩, h.log⟩
  · rw [h.mem]
    constructor
    · intro hd
      rw [hd] at hi
      cases hi
    · rintro rfl
      cases hp
  · rintro ev rfl
    cases hp

/-- The next write carries the next tag. -/
theorem add {e : E} (hws : Written ws pts) (hi : (pts i).wrote = false)
    (ht : K.tag e = tagAfter K x (ws.length + 1)) :
    InOrder x w₀ (ws ++ [i]) ls w (Function.update pts i (.announcing ⟨.update, e⟩)) := by
  have hnew : i ∉ ws := by simp [hws.mem, hi]
  have hidx : (ws ++ [i]).idxOf i = ws.length := by
    rw [List.idxOf_append_of_notMem hnew]
    simp
  have hold {a : ι} (ha : (pts a).wrote = true) : (ws ++ [i]).idxOf a = ws.idxOf a :=
    List.idxOf_append_of_mem ((hws.mem a).mpr ha)
  refine ⟨h.nodup,
    (Function.forall_update_iff pts fun a q => a ∈ ls ↔ q = .done).mpr
      ⟨?_, fun a _ => h.mem a⟩,
    (Function.forall_update_iff pts fun a q => ∀ ev, q = .announcing ev →
      K.tag ev.value = tagAfter K x ((ws ++ [i]).idxOf a + 1)).mpr ⟨?_, ?_⟩, ?_⟩
  · rw [h.mem]
    constructor
    · intro hd
      rw [hd] at hi
      cases hi
    · nofun
  · rintro ev hev
    cases hev
    rw [hidx, ht]
  · intro a _ ev hev
    rw [hold (by rw [hev]; rfl)]
    exact h.pending a ev hev
  · obtain ⟨evs, hlog, hevs, htags⟩ := h.log
    refine ⟨evs, hlog, hevs, htags.trans (List.map_congr_left fun a ha => ?_)⟩
    rw [hold (by rw [(h.mem a).mp ha]; rfl)]

theorem announce {ev : Event E} (hi : pts i = .announcing ev) (hw : w.Emits w' [ev])
    (hev : ev.type = .update ∧ K.guid ev.value = K.guid x) :
    InOrder x w₀ ws (ls ++ [i]) w' (Function.update pts i .done) := by
  have hnew : i ∉ ls := by simp [h.mem, hi]
  refine ⟨List.concat_eq_append ▸ h.nodup.concat hnew,
    (Function.forall_update_iff pts fun a q => a ∈ ls ++ [i] ↔ q = .done).mpr ⟨by simp, ?_⟩,
    (Function.forall_update_iff pts fun a q => ∀ ev, q = .announcing ev →
      K.tag ev.value = tagAfter K x (ws.idxOf a + 1)).mpr ⟨nofun, fun a _ => h.pending a⟩, ?_⟩
  · intro a ha
    simp [ha, h.mem]
  · obtain ⟨evs, hlog, hevs, htags⟩ := h.log
    refine ⟨evs ++ [ev], by rw [hw.log, hlog, List.append_assoc], ?_, ?_⟩
    · intro ev' hev'
      rw [List.mem_append, List.mem_singleton] at hev'
      rcases hev' with hev' | rfl
      · exact hevs ev' hev'
      · exact ⟨by rw [hev.1]; rfl, hev.2⟩
    · rw [List.map_append, htags, List.map_append, List.map_singleton, List.map_singleton,
        h.pending i ev hi]

end InOrder
variable (x w₀) in
/-- So far every write has followed on the last one. -/
def Chained (w : World K) (pts : ι → Point E) : Prop :=
  ∃ ws ls, Reads K x ws.length ws.length w pts ∧ Written ws pts ∧ InOrder x w₀ ws ls w pts

omit [DecidableEq ι] in
variable (x) in
/-- The stored tag, and everything that has been read, is behind the number of writes. -/
def Behind (w : World K) (pts : ι → Point E) : Prop :=
  ∃ ws b v, b + 1 = ws.length ∧ Reads K x b v w pts ∧ Written ws pts

variable [DecidableEq E] {env : Env} {s : Schema C}

theorem Chained.step (h : Chained x w₀ w pts) (hs : Step env s w (pts i) p w')
    (hQ : ∀ e ∈ Call.saved ((pts i).call K), ∀ y ∈ w.stored, K.guid y = K.guid e →
      K.tag e = (K.tag y).increment) : Chained x w₀ w' (Function.update pts i p) := by
  obtain ⟨ws, ls, hr, hws, hls⟩ := h
  rcases hr.cases hs with ⟨hw, hstage, hi, hp⟩ | ⟨e, hi, rfl, hup, hne⟩ | ⟨ev, hi, rfl, hw⟩ |
    ⟨rfl, rfl⟩
  · exact ⟨ws, ls, (hr.emits hw).moves hstage, hws.keep (hp.trans hi.symm),
      (hls.congr (hw.log.trans (List.append_nil _))).keep hi hp⟩
  · have hwrote : (pts i).wrote = false := by rw [hi]; rfl
    have hstage := hr.stage i
    rw [hi] at hstage
    obtain ⟨z, hz, hzg, hzt⟩ := hr.row
    have ht : K.tag e = tagAfter K x (ws.length + 1) := by
      rw [tagAfter_succ, ← hzt]
      exact hQ e (by rw [hi]; rfl) _ (World.mem_stored.mpr ⟨z, (hz x rfl).mem, rfl⟩)
        (hzg.trans hstage.1.symm)
    refine ⟨ws ++ [i], ls, ?_, hws.add hwrote rfl, (hls.congr hup.log).add hws hwrote ht⟩
    rw [List.length_append, List.length_singleton]
    exact hr.writes hi hup hne ht le_rfl (Nat.le_succ _)
  · have hstage := hr.stage i
    rw [hi] at hstage
    exact ⟨ws, ls ++ [i], (hr.emits hw).moves trivial, hws.keep (by rw [hi]; rfl),
      hls.announce hi hw hstage⟩
  · rw [Function.update_eq_self]
    exact ⟨ws, ls, hr, hws, hls⟩

/-- A write that does not follow on the last one fails or leaves the tag behind. -/
theorem Chained.breaks (h : Chained x w₀ w pts) (hs : Step env s w (pts i) p w')
    (hQ : ¬∀ e ∈ Call.saved ((pts i).call K), ∀ y ∈ w.stored, K.guid y = K.guid e →
      K.tag e = (K.tag y).increment) :
    (∃ e, p = .failed e) ∨ Behind x w' (Function.update pts i p) := by
  obtain ⟨ws, ls, hr, hws, -⟩ := h
  simp only [not_forall] at hQ
  obtain ⟨e, he, y, hy, hyg, hne⟩ := hQ
  have hi : pts i = .storing e := storing_of_saved he
  have hstage := hr.stage i
  rw [hi] at hs hstage
  obtain ⟨hg, -, r, hle, ht⟩ := hstage
  have hlt : r < ws.length := by
    refine lt_of_le_of_ne hle fun hrw => hne ?_
    rw [ht, hrw, tagAfter_succ, hr.tag_stored hy (hyg.trans hg)]
  cases hs with
  | failed _ e' => exact .inl ⟨e', rfl⟩
  | updated _ _ hne' hup =>
    exact .inr ⟨ws ++ [i], ws.length, r + 1, by simp, hr.writes hi hup hne' ht hlt le_rfl,
      hws.add (by rw [hi]; rfl) rfl⟩
  | reinserted _ _ hn _ _ => exact absurd (hr.stores hg) hn
  | overwritten _ _ _ _ hn _ => exact absurd (hr.stores hg) hn
  | finished _ hf => cases hf

theorem Behind.step (h : Behind x w pts) (hs : Step env s w (pts i) p w') :
    Behind x w' (Function.update pts i p) := by
  obtain ⟨ws, b, v, hb, hr, hws⟩ := h
  rcases hr.cases hs with ⟨hw, hstage, hi, hp⟩ | ⟨e, hi, rfl, hup, hne⟩ | ⟨ev, hi, rfl, hw⟩ |
    ⟨rfl, rfl⟩
  · exact ⟨ws, b, v, hb, (hr.emits hw).moves hstage, hws.keep (hp.trans hi.symm)⟩
  · have hstage := hr.stage i
    rw [hi] at hstage
    obtain ⟨-, -, r, hle, ht⟩ := hstage
    exact ⟨ws ++ [i], b + 1, r + 1, by simp [hb], hr.writes hi hup hne ht (by omega) (by omega),
      hws.add (by rw [hi]; rfl) rfl⟩
  · exact ⟨ws, b, v, hb, (hr.emits hw).moves trivial, hws.keep (by rw [hi]; rfl)⟩
  · rw [Function.update_eq_self]
    exact ⟨ws, b, v, hb, hr, hws⟩

end Order

section Runs
variable {E C κ ι : Type} [DecidableEq E] [DecidableEq ι] {K : Kind E C κ} {x : E}
  {env : Env} {s : Schema C} {w : World K} {pts : ι → Point E} {ms : List (Move ℕ ι)}

variable (x) in
/-- A save has failed, or the tag is behind. -/
def Spoiled (w : World K) (pts : ι → Point E) : Prop :=
  (∃ j e, pts j = .failed e) ∨ Behind x w pts

omit [DecidableEq E] [DecidableEq ι] in
theorem Behind.tick (h : Behind x w pts) (d : ℕ) : Behind x (w.tick d) pts := by
  obtain ⟨ws, b, v, hb, hr, hws⟩ := h
  exact ⟨ws, b, v, hb, hr.tick d, hws⟩

omit [DecidableEq E] in
theorem Chained.tick {w₀ : World K} (h : Chained x w₀ w pts) (d : ℕ) :
    Chained x w₀ (w.tick d) pts := by
  obtain ⟨ws, ls, hr, hws, hls⟩ := h
  exact ⟨ws, ls, hr.tick d, hws, hls.congr rfl⟩

theorem Spoiled.step (h : Spoiled x w pts) (i : ι) :
    Spoiled x ((chart env s).step (pts i) w)
      (Function.update pts i ((chart env s).next (pts i) w)) := by
  rcases h with ⟨j, e, hj⟩ | h
  · left
    by_cases hji : j = i
    · subst hji
      exact ⟨j, e, by rw [Function.update_self, hj]; rfl⟩
    · exact ⟨j, e, by rw [Function.update_of_ne hji, hj]⟩
  · exact .inr (h.step (chart_step env s w (pts i)))

variable {m : E} {row : Row C} {saved : ι → E}

omit [DecidableEq E] in
theorem chained_start (hrow : w.Matched m row) (hkey : ∀ i, K.key (saved i) = K.key m) :
    Chained (K.model.ofRow row) w w fun i => (Job.save (saved i)).start := by
  have hm : K.key (K.model.ofRow row) = K.key m := hrow.key
  refine ⟨[], [], ⟨⟨row, fun m' hm' => hrow.congr (hm'.trans hm), rfl, rfl⟩, le_rfl, ?_⟩,
    ⟨List.nodup_nil, fun i => ?_⟩, List.nodup_nil, fun i => ?_, nofun, [], by simp, by simp, rfl⟩
  · exact fun i => (hkey i).trans hm.symm
  · simp [Job.start, Point.wrote]
  · simp [Job.start]

theorem chained_play (hrow : w.Matched m row) (hkey : ∀ i, K.key (saved i) = K.key m)
    (hms : Meets (move env s) WritesNext (calls w fun i => .save (saved i)) ms) :
    (chart env s).At (Chained (K.model.ofRow row) w)
      (play (move env s) (calls w fun i => .save (saved i)) ms) := by
  refine play_of_meets (Chart.at_move (fun w pts d h _ => h.tick d) ?_) ?_ hms
  · intro w pts i h hQ
    refine h.step (chart_step env s w (pts i)) ?_
    rw [← next?_prog]
    exact hQ
  · rw [calls_eq env s]
    exact ⟨_, rfl, chained_start hrow hkey⟩

theorem meets_of_unspoiled (hrow : w.Matched m row) (hkey : ∀ i, K.key (saved i) = K.key m)
    (hend : ¬(chart env s).At (Spoiled (K.model.ofRow row))
      (play (move env s) (calls w fun i => .save (saved i)) ms)) :
    Meets (move env s) WritesNext (calls w fun i => .save (saved i)) ms := by
  refine meets_of_play (I := (chart env s).At (Chained (K.model.ofRow row) w))
    (Chart.at_move (fun w pts d h _ => h.tick d) ?_)
    (Chart.at_move (fun w pts d _ hQ => absurd trivial hQ) ?_) ?_ ?_ hend
  · intro w pts i h hQ
    refine h.step (chart_step env s w (pts i)) ?_
    rw [← next?_prog]
    exact hQ
  · intro w pts i h hQ
    have hQ' := h.breaks (chart_step env s w (pts i)) (by rw [← next?_prog]; exact hQ)
    refine hQ'.imp_left fun ⟨e, he⟩ => ⟨i, e, ?_⟩
    rw [Function.update_self, he]
  · intro P m' hP
    refine Chart.at_move (Q := fun _ _ => True) ?_ (fun w pts i h _ => h.step i) P m' hP trivial
    exact fun w pts d h _ => h.imp_right fun h => h.tick d
  · rw [calls_eq env s]
    exact ⟨_, rfl, chained_start hrow hkey⟩

/-- A save that has returned without an error has announced its write. -/
theorem Stage.done {b : ℕ} {p : Point E} (h : Stage K x b p) (hfin : (p.prog K).Finished)
    (hok : (p.prog K).error? = none) : p = .done := by
  rw [Finished, next?_prog] at hfin
  cases p with
  | done => rfl
  | failed e => cases hok
  | expiring routes => exact h.elim
  | _ => cases hfin

end Runs

section Ends
variable {E C κ ι : Type} [DecidableEq ι] [Fintype ι] {K : Kind E C κ} {x : E} {w : World K}
  {pts : ι → Point E}

theorem length_of_all {l : List ι} (hl : l.Nodup) (hall : ∀ i, i ∈ l) :
    l.length = Fintype.card ι := by
  have huniv : l.toFinset = Finset.univ := by
    ext i
    simp [hall]
  rw [← List.toFinset_card_of_nodup hl, huniv, Finset.card_univ]

/-- A chain of writes that is complete has counted every one of them. -/
theorem Chained.counts {w₀ : World K} (h : Chained x w₀ w pts)
    (hdone : ∀ i, pts i = .done) (hfits : (K.tag x).index.toNat + Fintype.card ι < 2 ^ 32) :
    CountsUpdates (Fintype.card ι) x w₀ w := by
  obtain ⟨ws, ls, hr, hws, hls⟩ := h
  have hwritten : ∀ i, i ∈ ws := fun i => (hws.mem i).mpr (by rw [hdone i]; rfl)
  have hn : ws.length = Fintype.card ι := length_of_all hws.nodup hwritten
  have hn' : ls.length = Fintype.card ι :=
    length_of_all hls.nodup fun i => (hls.mem i).mpr (hdone i)
  have hindex {k : ℕ} (hk : k ≤ Fintype.card ι) :
      (tagAfter K x k).index.toNat = (K.tag x).index.toNat + k := tagAfter_index (by omega)
  obtain ⟨z, hz, hzg, hzt⟩ := hr.row
  obtain ⟨evs, hlog, hevs, htags⟩ := hls.log
  refine ⟨⟨_, World.mem_stored.mpr ⟨z, (hz x rfl).mem, rfl⟩, hzg, ?_⟩, evs, hlog, ?_, hevs, ?_⟩
  · rw [hzt, hindex hn.le, hn]
  · have hlen := congrArg List.length htags
    rw [List.length_map, List.length_map] at hlen
    rw [hlen, hn']
  · rw [htags]
    refine hls.nodup.map_on fun a _ b _ hab => ?_
    -- tags that are equal stand at the same position of the chain
    have hlt {i : ι} : ws.idxOf i < Fintype.card ι := hn ▸ List.idxOf_lt_length_iff.mpr (hwritten i)
    have hidx := congrArg (fun t : ModificationTag => t.index.toNat) hab
    simp only [hindex hlt] at hidx
    exact (List.idxOf_inj (hwritten a)).mp (by omega)

/-- A tag that is behind has not grown by the number of writes. -/
theorem Behind.not_grown (h : Behind x w pts) (hdone : ∀ i, pts i = .done) {y : E}
    (hy : y ∈ w.stored) (hg : K.guid y = K.guid x) :
    (K.tag y).index.toNat < (K.tag x).index.toNat + Fintype.card ι := by
  obtain ⟨ws, b, v, hb, hr, hws⟩ := h
  have hn : ws.length = Fintype.card ι :=
    length_of_all hws.nodup fun i => (hws.mem i).mpr (by rw [hdone i]; rfl)
  have hle := hr.le
  rw [hr.tag_stored hy hg, tagAfter, ModificationTag.increment_iterate_toNat]
  have hmod := Nat.mod_le ((K.tag x).index.toNat + v) (2 ^ 32)
  omega

end Ends

/-- Any number of concurrent saves of one key whose row is stored and found. Once all have
succeeded, the tag has grown by their number and every update was announced under a tag of
its own, precisely if the index did not wrap around and each save wrote the tag that
follows on the stored one. -/
theorem concurrent_saves_counted_iff {E C κ ι : Type} [DecidableEq E] [DecidableEq ι] [Fintype ι]
    (K : Kind E C κ) (env : Env) (s : Schema C) (w : World K) (m : E) (row : Row C)
    (hrow : w.Matched m row) (saved : ι → E) (hkey : ∀ i, K.key (saved i) = K.key m)
    (ms : List (Move ℕ ι)) :
    let P := play (move env s) (calls w fun i => .save (saved i)) ms
    (∀ i, (P.threads i).Finished ∧ (P.threads i).error? = none) →
      (CountsUpdates (Fintype.card ι) (K.model.ofRow row) w P.world ↔
        (K.tag (K.model.ofRow row)).index.toNat + Fintype.card ι < 2 ^ 32 ∧
          Meets (move env s) WritesNext (calls w fun i => .save (saved i)) ms) := by
  intro P hok
  have hdone {b : ℕ} {pts : ι → Point E} (hP : P = (chart env s).pool P.world pts)
      (hstage : ∀ i, Stage K (K.model.ofRow row) b (pts i)) (i : ι) : pts i = .done := by
    have hi := hok i
    rw [hP] at hi
    exact (hstage i).done hi.1 hi.2
  constructor
  · rintro ⟨⟨y, hy, hyg, hyi⟩, -⟩
    refine ⟨hyi ▸ (K.tag y).index.toNat_lt, meets_of_unspoiled hrow hkey ?_⟩
    rintro ⟨pts, hP, ⟨j, e, hj⟩ | h⟩
    · have herr : (((chart env s).pool P.world pts).threads j).error? = none :=
        hP ▸ (hok j).2
      simp [chart, hj, Point.prog, error?] at herr
    · obtain ⟨ws, b, v, hb, hr, hws⟩ := h
      have hlt := Behind.not_grown ⟨ws, b, v, hb, hr, hws⟩ (hdone hP hr.stage) hy hyg
      omega
  · rintro ⟨hfits, hms⟩
    obtain ⟨pts, hP, ws, ls, hr, hws, hls⟩ := chained_play hrow hkey hms
    exact Chained.counts ⟨ws, ls, hr, hws, hls⟩ (hdone hP hr.stage) hfits

/-- A table with one route, saved at its first registration. -/
def registered : World routeKind :=
  ((saveRoute exampleRoute).run (handler .quiet (routeSchema .mysql)) (World.initial routeKind)).2

/-- Two refreshes of it with different contents. -/
def refreshes : Fin 2 → Route
  | 0 => { exampleRoute with logGuid := "first" }
  | 1 => { exampleRoute with logGuid := "second" }

/-- Both read the tag before either writes. -/
def readTogether : List (Move ℕ (Fin 2)) :=
  [.step 0, .step 1, .step 0, .step 0, .step 0, .step 1, .step 1, .step 1]

/-- Both succeed, the index is 1, and two different rows are announced under one tag. -/
theorem refresh_lost :
    let P := play (move .quiet (routeSchema .mysql))
      (calls registered fun i => .save (refreshes i)) readTogether
    (∀ i, (P.threads i).Finished ∧ (P.threads i).error? = none) ∧
      registered.stored.map Route.modificationTag = [⟨"uu", 0⟩] ∧
      P.world.stored.map Route.modificationTag = [⟨"uu", 1⟩] ∧
      (P.world.log.drop registered.log.length).map
          (fun ev => (ev.type.string, ev.value.modificationTag, ev.value.logGuid)) =
        [("Upsert", ⟨"uu", 1⟩, "first"), ("Upsert", ⟨"uu", 1⟩, "second")] := by
  decide +kernel

/-- The second reads once the first has written; it may announce before the first. -/
def readInTurn : List (Move ℕ (Fin 2)) :=
  [.step 0, .step 0, .step 0, .step 1, .env 5, .step 1, .step 1, .step 1, .step 0]

theorem refreshes_counted :
    let P := play (move .quiet (routeSchema .mysql))
      (calls registered fun i => .save (refreshes i)) readInTurn
    (∀ i, (P.threads i).Finished ∧ (P.threads i).error? = none) ∧
      CountsUpdates 2 (registered.stored.headD Route.zero) registered P.world := by
  have hok : ∀ i, ((play (move .quiet (routeSchema .mysql))
      (calls registered fun i => .save (refreshes i)) readInTurn).threads i).Finished ∧
      ((play (move .quiet (routeSchema .mysql))
        (calls registered fun i => .save (refreshes i)) readInTurn).threads i).error? = none := by
    decide +kernel
  have hfound : (registered.table.select (routeKind.lookup exampleRoute)).map Route.ofRow =
      [registered.stored.headD Route.zero] := by decide +kernel
  obtain ⟨row, hsel, hrow⟩ := List.map_eq_singleton_iff.mp hfound
  have hne : Route.ofRow row ≠ Route.zero := by
    rw [hrow]
    decide +kernel
  have hcounts := concurrent_saves_counted_iff routeKind .quiet (routeSchema .mysql) registered
    exampleRoute row ⟨hsel, hne⟩ refreshes (by decide) readInTurn hok
  refine ⟨hok, hrow ▸ hcounts.mpr ⟨?_, by decide +kernel⟩⟩
  show (Route.ofRow row).modificationTag.index.toNat + 2 < 2 ^ 32
  rw [hrow]
  decide +kernel

end RoutingApi.Concurrency
