import Mathlib.Logic.Function.Basic
import Mathlib.Tactic

/-! Replicas that are kept up to date by replaying versioned changes. A change is
applied only when the version the replica holds is succeeded by the change's
version, so a replica may be handed changes it has already seen. -/
namespace RoutingApi.Replica

/-- What a replica has to know about its entries. -/
structure Rules (E κ τ : Type) where
  key : E → κ
  version : E → τ
  succeeded : τ → τ → Bool

inductive Change (E : Type) where
  | upsert (e : E)
  | delete (e : E)
  deriving DecidableEq, Repr

def Change.entry {E : Type} : Change E → E
  | .upsert e => e
  | .delete e => e

/-- What a change leaves behind once it has been applied. -/
def Change.outcome {E : Type} : Change E → Option E
  | .upsert e => some e
  | .delete _ => none

section Rules
variable {E κ τ : Type} [DecidableEq τ] (R : Rules E κ τ)

/-- One change against the entry held for its key. -/
def applyTo (old : Option E) : Change E → Option E
  | .upsert e => match old with
    | none => some e
    | some o => if R.succeeded (R.version o) (R.version e) then some e else some o
  | .delete e => match old with
    | none => none
    | some o =>
      if R.succeeded (R.version o) (R.version e) ∨ R.version o = R.version e then none
      else some o

/-- `o` is not newer than the change: it is succeeded by it, or it is the very entry. -/
def Dominated (o : E) (c : Change E) : Prop :=
  R.succeeded (R.version o) (R.version c.entry) = true ∨ o = c.entry

variable {R} in
theorem applyTo_dominated {old : Option E} {c : Change E}
    (h : ∀ o, old = some o → Dominated R o c) : applyTo R old c = c.outcome := by
  cases old with
  | none => cases c <;> rfl
  | some o =>
    rcases h o rfl with hs | rfl
    · cases c <;> simp_all [applyTo, Change.outcome, Change.entry]
    · cases c with
      | upsert e => exact ite_self _
      | delete e => simp [applyTo, Change.outcome, Change.entry]

variable [DecidableEq κ]

def apply (m : κ → Option E) (c : Change E) : κ → Option E :=
  Function.update m (R.key c.entry) (applyTo R (m (R.key c.entry)) c)

def replay (m : κ → Option E) (cs : List (Change E)) : κ → Option E := cs.foldl (apply R) m

@[simp] theorem replay_nil (m : κ → Option E) : replay R m [] = m := rfl

@[simp] theorem replay_cons (m : κ → Option E) (c : Change E) (cs : List (Change E)) :
    replay R m (c :: cs) = replay R (apply R m c) cs := rfl

theorem replay_append (m : κ → Option E) (cs ds : List (Change E)) :
    replay R m (cs ++ ds) = replay R (replay R m cs) ds := by
  simp [replay]

theorem apply_of_key (m : κ → Option E) {c : Change E} {k : κ} (h : R.key c.entry = k) :
    apply R m c k = applyTo R (m k) c := by
  subst h
  simp [apply]

theorem apply_of_ne (m : κ → Option E) {c : Change E} {k : κ} (h : R.key c.entry ≠ k) :
    apply R m c k = m k := by
  simp [apply, Ne.symm h]

/-- Changes of other keys leave an entry alone. -/
theorem replay_of_ne (m : κ → Option E) {cs : List (Change E)} {k : κ}
    (h : ∀ c ∈ cs, R.key c.entry ≠ k) : replay R m cs k = m k := by
  induction cs generalizing m with
  | nil => rfl
  | cons c cs ih =>
    rw [replay_cons, ih _ fun d hd => h d (List.mem_cons_of_mem c hd)]
    exact apply_of_ne R m (h c List.mem_cons_self)

/-- The entry of one key depends on no other. -/
theorem replay_congr {m m' : κ → Option E} {k : κ} (h : m k = m' k) (cs : List (Change E)) :
    replay R m cs k = replay R m' cs k := by
  induction cs generalizing m m' with
  | nil => exact h
  | cons c cs ih =>
    rw [replay_cons, replay_cons]
    apply ih
    by_cases hk : R.key c.entry = k
    · rw [apply_of_key R m hk, apply_of_key R m' hk, h]
    · rw [apply_of_ne R m hk, apply_of_ne R m' hk, h]

variable {R}

/-- Whatever a replica holds comes from where it started or from an upsert it saw. -/
theorem replay_source {m : κ → Option E} {cs : List (Change E)} {k : κ} {o : E}
    (h : replay R m cs k = some o) :
    m k = some o ∨ ∃ c ∈ cs, c = .upsert o ∧ R.key o = k := by
  induction cs generalizing m with
  | nil => exact .inl h
  | cons c cs ih =>
    rcases ih (by simpa using h) with hm | ⟨d, hd, he⟩
    · by_cases hk : R.key c.entry = k
      · rw [apply_of_key R m hk] at hm
        cases c with
        | upsert e =>
          cases hmk : m k with
          | none =>
            rw [hmk] at hm
            cases hm
            exact .inr ⟨_, List.mem_cons_self, rfl, hk⟩
          | some o' =>
            simp only [applyTo, hmk] at hm
            split at hm
            · cases hm
              exact .inr ⟨_, List.mem_cons_self, rfl, hk⟩
            · exact .inl hm
        | delete e =>
          cases hmk : m k with
          | none => rw [hmk] at hm; cases hm
          | some o' =>
            simp only [applyTo, hmk] at hm
            split at hm
            · cases hm
            · exact .inl hm
      · rw [apply_of_ne R m hk] at hm
        exact .inl hm
    · exact .inr ⟨d, List.mem_cons_of_mem c hd, he⟩

/-- The last change of a key decides, provided nothing newer was there before it. -/
theorem replay_last {m : κ → Option E} {cs ds : List (Change E)} {c : Change E} {k : κ}
    (hk : R.key c.entry = k) (hds : ∀ d ∈ ds, R.key d.entry ≠ k)
    (hm : ∀ o, m k = some o → Dominated R o c)
    (hcs : ∀ o, .upsert o ∈ cs → R.key o = k → Dominated R o c) :
    replay R m (cs ++ c :: ds) k = c.outcome := by
  rw [replay_append, replay_cons, replay_of_ne R _ hds, apply_of_key R _ hk]
  apply applyTo_dominated
  intro o ho
  rcases replay_source ho with h | ⟨d, hd, rfl, hko⟩
  · exact hm o h
  · exact hcs o hd hko

end Rules

section Settle
variable {E κ τ : Type} [DecidableEq κ] (R : Rules E κ τ)

/-- What the changes leave for each key when every one of them is applied. -/
def settle (cs : List (Change E)) : κ → Option E :=
  cs.foldl (fun m c => Function.update m (R.key c.entry) c.outcome) fun _ => none

@[simp] theorem settle_nil : settle R [] = fun _ => none := rfl

theorem settle_snoc (cs : List (Change E)) (c : Change E) :
    settle R (cs ++ [c]) = Function.update (settle R cs) (R.key c.entry) c.outcome := by
  simp [settle]

theorem settle_append_of_ne (cs : List (Change E)) {ds : List (Change E)} {k : κ}
    (h : ∀ d ∈ ds, R.key d.entry ≠ k) : settle R (cs ++ ds) k = settle R cs k := by
  induction ds using List.reverseRecOn with
  | nil => simp
  | append_singleton ds d ih =>
    have hd : k ≠ R.key d.entry := (h d (by simp)).symm
    rw [← List.append_assoc, settle_snoc, Function.update_of_ne hd]
    exact ih fun c hc => h c (List.mem_append_left _ hc)

theorem settle_last (cs : List (Change E)) {ds : List (Change E)} {c : Change E} {k : κ}
    (hk : R.key c.entry = k) (hds : ∀ d ∈ ds, R.key d.entry ≠ k) :
    settle R (cs ++ c :: ds) k = c.outcome := by
  rw [List.append_cons, settle_append_of_ne R _ hds, settle_snoc, hk, Function.update_self]

/-- Either no change has the property, or there is a last one that has it. -/
theorem last_or_none {α : Type} (p : α → Prop) (l : List α) :
    (∀ a ∈ l, ¬p a) ∨ ∃ as a bs, l = as ++ a :: bs ∧ p a ∧ ∀ b ∈ bs, ¬p b := by
  induction l with
  | nil => exact .inl fun _ h => by cases h
  | cons x l ih =>
    rcases ih with hnone | ⟨as, a, bs, rfl, ha, hbs⟩
    · by_cases hx : p x
      · exact .inr ⟨[], x, l, rfl, hx, hnone⟩
      · left
        intro a ha
        rcases List.mem_cons.mp ha with rfl | ha
        · exact hx
        · exact hnone a ha
    · exact .inr ⟨x :: as, a, bs, rfl, ha, hbs⟩

variable {R}

theorem settle_source {cs : List (Change E)} {k : κ} {o : E} (h : settle R cs k = some o) :
    .upsert o ∈ cs ∧ R.key o = k := by
  rcases last_or_none (fun c => R.key c.entry = k) cs with hnone | ⟨as, c, bs, rfl, hc, hbs⟩
  · have hnil := settle_append_of_ne R [] hnone
    rw [List.nil_append, h] at hnil
    cases hnil
  · rw [settle_last R as hc hbs] at h
    cases c with
    | upsert e => cases h; exact ⟨by simp, hc⟩
    | delete e => cases h

end Settle

section Convergence
variable {E κ τ : Type} [DecidableEq κ] [DecidableEq τ] {R : Rules E κ τ}

variable (R) in
/-- What an upsert leaves behind is not newer than a later change of the same key. -/
def Precedes (a b : Change E) : Prop :=
  ∀ o, a = .upsert o → R.key o = R.key b.entry → Dominated R o b

/-- A replica starts from part of what the changes up to some point leave, and is handed
changes from before that point on. For each key it ends with what all changes leave, or,
if it was handed none of that key, with what it started from. -/
theorem replay_suffix {pre mid post : List (Change E)} {m : κ → Option E}
    (hord : (pre ++ mid ++ post).Pairwise (Precedes R))
    (hm : ∀ k o, m k = some o → settle R (pre ++ mid) k = some o) (k : κ) :
    replay R m (mid ++ post) k = settle R (pre ++ mid ++ post) k ∨
      ((∀ c ∈ mid ++ post, R.key c.entry ≠ k) ∧ replay R m (mid ++ post) k = m k) := by
  rcases last_or_none (fun c => R.key c.entry = k) post with
    hpost | ⟨as, c, bs, rfl, hc, hbs⟩
  · rcases last_or_none (fun c => R.key c.entry = k) mid with
      hmid | ⟨as, c, bs, rfl, hc, hbs⟩
    · right
      have hnone : ∀ c ∈ mid ++ post, R.key c.entry ≠ k := by
        intro c hc
        rcases List.mem_append.mp hc with hc | hc
        · exact hmid c hc
        · exact hpost c hc
      exact ⟨hnone, replay_of_ne R m hnone⟩
    · left
      have hend : settle R (pre ++ (as ++ c :: bs)) k = c.outcome := by
        rw [← List.append_assoc]
        exact settle_last R _ hc hbs
      rw [settle_append_of_ne R _ hpost, hend, List.append_assoc, List.cons_append]
      apply replay_last hc
      · intro d hd
        rcases List.mem_append.mp hd with hd | hd
        · exact hbs d hd
        · exact hpost d hd
      · -- what the replica started from for this key is what `c` itself left
        intro o ho
        have hco := (hm k o ho).symm.trans hend
        cases c with
        | upsert e => cases hco; exact .inr rfl
        | delete e => cases hco
      · intro o ho hk
        have hmid := (List.pairwise_append.mp (List.pairwise_append.mp hord).1).2.1
        exact (List.pairwise_append.mp hmid).2.2 _ ho c List.mem_cons_self o rfl (hk.trans hc.symm)
  · left
    have hbefore : ∀ a ∈ pre ++ mid ++ as, Precedes R a c := by
      rw [← List.append_assoc] at hord
      intro a ha
      exact (List.pairwise_append.mp hord).2.2 a ha c List.mem_cons_self
    rw [← List.append_assoc, ← List.append_assoc, settle_last R _ hc hbs]
    apply replay_last hc hbs
    · intro o ho
      obtain ⟨hmem, hk⟩ := settle_source (hm k o ho)
      exact hbefore _ (List.mem_append_left _ hmem) o rfl (hk.trans hc.symm)
    · intro o ho hk
      refine hbefore _ ?_ o rfl (hk.trans hc.symm)
      rw [List.append_assoc]
      exact List.mem_append_right _ ho

def Change.map {E' : Type} (f : E → E') : Change E → Change E'
  | .upsert e => .upsert (f e)
  | .delete e => .delete (f e)

/-- A replica that sees less of each entry goes through the images of the same states. -/
theorem replay_map {E' : Type} {R' : Rules E' κ τ} {f : E → E'}
    (hkey : ∀ e, R'.key (f e) = R.key e) (hver : ∀ e, R'.version (f e) = R.version e)
    (hsucc : R'.succeeded = R.succeeded) (m : κ → Option E) (cs : List (Change E)) :
    replay R' (fun k => (m k).map f) (cs.map (Change.map f)) =
      fun k => (replay R m cs k).map f := by
  induction cs generalizing m with
  | nil => rfl
  | cons c cs ih =>
    rw [List.map_cons, replay_cons, replay_cons, ← ih]
    congr 1
    have hentry : R'.key (Change.map f c).entry = R.key c.entry := by
      cases c <;> exact hkey _
    have happly (old : Option E) :
        applyTo R' (old.map f) (Change.map f c) = (applyTo R old c).map f := by
      cases old with
      | none => cases c <;> rfl
      | some o =>
        cases c <;> simp only [applyTo, Change.map, Option.map_some, hver, hsucc] <;>
          split <;> rfl
    funext k
    by_cases hk : R.key c.entry = k
    · rw [apply_of_key R' _ (hentry.trans hk), apply_of_key R m hk, happly]
    · rw [apply_of_ne R' _ (hentry ▸ hk), apply_of_ne R m hk]

end Convergence
end RoutingApi.Replica
