import Mathlib.Data.List.Infix
import Mathlib.Tactic

/-! Regular expressions that are sequences of symbols and greedy repetitions, possibly bound to the
start of a line, and the replacement of all their matches from left to right. -/
namespace RoutingApi.Text

inductive Item (α : Type) where
  | sym (a : α)
  | many (p : α → Bool)

/-- A sequence that begins with a symbol, so that no match is empty. -/
structure Pattern (α : Type) where
  lineStart : Bool
  first : α
  items : List (Item α)

section Matching
variable {α : Type} [DecidableEq α]

/-- As many symbols as possible, and fewer if what comes next does not match after them. -/
def greedy (p : α → Bool) (next : List α → Option ℕ) : List α → Option ℕ
  | [] => next []
  | c :: s => if p c then ((greedy p next s).map (· + 1)).or (next (c :: s)) else next (c :: s)

/-- The length of the match at the beginning of a text. -/
def matchItems : List (Item α) → List α → Option ℕ
  | [], _ => some 0
  | .sym _ :: _, [] => none
  | .sym a :: items, c :: s => if c = a then (matchItems items s).map (· + 1) else none
  | .many p :: items, s => greedy p (matchItems items) s

def syms (w : List α) : List (Item α) := w.map .sym

omit [DecidableEq α] in
theorem syms_cons (a : α) (w : List α) (items : List (Item α)) :
    syms (a :: w) ++ items = .sym a :: (syms w ++ items) := rfl

variable {p : α → Bool} {next : List α → Option ℕ} {items : List (Item α)} {s : List α}

omit [DecidableEq α] in
/-- A repetition goes on to its end if what comes next cannot begin inside it. -/
theorem greedy_of_stop (h : ∀ c s, p c = true → next (c :: s) = none) (s : List α) :
    greedy p next s = (next (s.dropWhile p)).map (· + (s.takeWhile p).length) := by
  induction s with
  | nil => simp [greedy]
  | cons c s ih =>
    cases hc : p c with
    | false => simp [greedy, hc]
    | true =>
      rw [greedy, if_pos hc, ih, h c s hc, Option.or_none, Option.map_map]
      simp [hc, Function.comp_def, Nat.add_assoc]

omit [DecidableEq α] in
theorem greedy_end (p : α → Bool) (s : List α) :
    greedy p (fun _ => some 0) s = some (s.takeWhile p).length := by
  induction s with
  | nil => rfl
  | cons c s ih =>
    cases hc : p c with
    | false => simp [greedy, hc]
    | true => simp [greedy, hc, ih]

theorem matchItems_syms (w : List α) (s : List α) :
    matchItems (syms w ++ items) (w ++ s) = (matchItems items s).map (· + w.length) := by
  induction w with
  | nil => simp [syms]
  | cons a w ih =>
    rw [syms_cons, List.cons_append, matchItems, if_pos rfl, ih, Option.map_map]
    rfl

theorem matchItems_syms_none {w : List α} (h : ¬w <+: s) :
    matchItems (syms w ++ items) s = none := by
  induction w generalizing s with
  | nil => simp at h
  | cons a w ih =>
    rw [syms_cons]
    cases s with
    | nil => rfl
    | cons c s =>
      rw [matchItems]
      split
      next hc =>
        subst hc
        rw [ih fun hw => h (List.cons_prefix_cons.mpr ⟨rfl, hw⟩)]
        rfl
      next => rfl

theorem matchItems_sym_none {a : α} (h : s.head? ≠ some a) :
    matchItems (.sym a :: items) s = none := by
  cases s with
  | nil => rfl
  | cons c s =>
    rw [matchItems, if_neg]
    exact fun hc => h (by rw [hc]; rfl)

theorem matchItems_sym_stop {a : α} (ha : p a = false) (c : α) (s : List α) (hc : p c = true) :
    matchItems (.sym a :: items) (c :: s) = none := by
  apply matchItems_sym_none
  rintro hca
  cases hca
  rw [hc] at ha
  cases ha

/-- A repetition up to a symbol that it does not take. -/
theorem matchItems_until {a : α} {u : List α} (ha : p a = false) (hu : ∀ c ∈ u, p c = true)
    (s : List α) : matchItems (.many p :: .sym a :: items) (u ++ a :: s) =
      (matchItems items s).map (· + (u.length + 1)) := by
  rw [matchItems, greedy_of_stop (matchItems_sym_stop ha), List.dropWhile_append_of_pos hu,
    List.takeWhile_append_of_pos hu, List.dropWhile_cons_of_neg (by simp [ha]),
    List.takeWhile_cons_of_neg (by simp [ha]), List.append_nil, matchItems, if_pos rfl,
    Option.map_map]
  congr 1
  funext n
  exact Nat.add_right_comm n 1 u.length

theorem matchItems_until_none {a : α} (ha : p a = false) (h : (s.dropWhile p).head? ≠ some a) :
    matchItems (.many p :: .sym a :: items) s = none := by
  rw [matchItems, greedy_of_stop (matchItems_sym_stop ha), matchItems_sym_none h]
  rfl

def Item.isSym (z : α) : Item α → Bool
  | .sym a => decide (a = z)
  | .many _ => false

omit [DecidableEq α] in
theorem greedy_suffix {n : ℕ} (h : greedy p next s = some n) :
    ∃ t m, t <:+ s ∧ next t = some m := by
  induction s generalizing n with
  | nil => exact ⟨[], n, List.suffix_refl _, h⟩
  | cons c s ih =>
    rw [greedy] at h
    split at h
    next =>
      rcases Option.or_eq_some_iff.mp h with h | ⟨-, h⟩
      · obtain ⟨k, hk, -⟩ := Option.map_eq_some_iff.mp h
        obtain ⟨t, m, ht, hm⟩ := ih hk
        exact ⟨t, m, ht.trans (List.suffix_cons c s), hm⟩
      · exact ⟨c :: s, n, List.suffix_refl _, h⟩
    next => exact ⟨c :: s, n, List.suffix_refl _, h⟩

/-- A text has every symbol as often as a pattern that matches it. -/
theorem matchItems_count (z : α) {n : ℕ} (h : matchItems items s = some n) :
    items.countP (Item.isSym z) ≤ s.count z := by
  induction items generalizing s n with
  | nil => simp
  | cons item items ih =>
    cases item with
    | sym a =>
      cases s with
      | nil => cases h
      | cons c s =>
        rw [matchItems] at h
        split at h
        next hc =>
          subst hc
          obtain ⟨k, hk, -⟩ := Option.map_eq_some_iff.mp h
          have hle := ih hk
          by_cases hz : c = z
          · subst hz
            simp only [List.countP_cons, List.count_cons_self, Item.isSym, decide_true, if_true]
            omega
          · rw [List.countP_cons_of_neg (by simp [Item.isSym, hz]), List.count_cons_of_ne hz]
            exact hle
        next => cases h
    | many p =>
      obtain ⟨t, m, ht, hm⟩ := greedy_suffix h
      rw [List.countP_cons_of_neg (by simp [Item.isSym])]
      exact (ih hm).trans (ht.sublist.count_le z)

end Matching

section Replacing
variable {α : Type} [DecidableEq α] (eol : α → Bool) (pat : Pattern α) (repl : List α)

/-- The length of the match that begins with the symbol `c`, not counting that symbol. -/
def Pattern.matchAfter (lineStart : Bool) (c : α) (s : List α) : Option ℕ :=
  if c = pat.first ∧ (pat.lineStart = true → lineStart = true) then matchItems pat.items s else none

/-- The replacement where the first so many symbols belong to a match that has been replaced;
whether a line starts here is known from the symbol before. -/
def replaceFrom : ℕ → Bool → List α → List α
  | _, _, [] => []
  | skip + 1, _, c :: s => replaceFrom skip (eol c) s
  | 0, lineStart, c :: s =>
    match pat.matchAfter lineStart c s with
    | some n => repl ++ replaceFrom n (eol c) s
    | none => c :: replaceFrom 0 (eol c) s

def replaceAll (s : List α) : List α := replaceFrom eol pat repl 0 true s

/-- Whether a line starts after a text. -/
def startsLine (lineStart : Bool) (u : List α) : Bool := u.foldl (fun _ c => eol c) lineStart

variable {eol pat repl} {lineStart : Bool} {c : α} {s u : List α}

omit [DecidableEq α] in
theorem startsLine_of_not_mem (h : ∀ c ∈ u, eol c = false) : startsLine eol false u = false := by
  induction u with
  | nil => rfl
  | cons c u ih =>
    rw [startsLine, List.foldl_cons, h c List.mem_cons_self]
    exact ih fun a ha => h a (List.mem_cons_of_mem c ha)

omit [DecidableEq α] in
theorem startsLine_concat (u : List α) (c : α) : startsLine eol lineStart (u ++ [c]) = eol c := by
  simp [startsLine]

theorem replaceFrom_skip (u s : List α) (lineStart : Bool) :
    replaceFrom eol pat repl u.length lineStart (u ++ s) =
      replaceFrom eol pat repl 0 (startsLine eol lineStart u) s := by
  induction u generalizing lineStart with
  | nil => rfl
  | cons c u ih =>
    rw [List.length_cons, List.cons_append, replaceFrom, ih]
    rfl

theorem replaceFrom_match (h : pat.matchAfter lineStart c (u ++ s) = some u.length) :
    replaceFrom eol pat repl 0 lineStart (c :: (u ++ s)) =
      repl ++ replaceFrom eol pat repl 0 (startsLine eol (eol c) u) s := by
  rw [replaceFrom, h]
  exact congrArg (repl ++ ·) (replaceFrom_skip u s (eol c))

theorem replaceFrom_next (h : pat.matchAfter lineStart c s = none) :
    replaceFrom eol pat repl 0 lineStart (c :: s) = c :: replaceFrom eol pat repl 0 (eol c) s := by
  rw [replaceFrom, h]

/-- Where lines start matters only to a pattern that is bound to it. -/
theorem replaceFrom_lineStart (h : pat.lineStart = false) (n : ℕ) (b b' : Bool) (s : List α) :
    replaceFrom eol pat repl n b s = replaceFrom eol pat repl n b' s := by
  cases s with
  | nil => rw [replaceFrom, replaceFrom]
  | cons c s =>
    cases n with
    | succ n => rfl
    | zero =>
      have hmatch : pat.matchAfter b c s = pat.matchAfter b' c s := by
        simp [Pattern.matchAfter, h]
      rw [replaceFrom, replaceFrom, hmatch]

/-- A symbol that is not there often enough leaves the text as it is. -/
theorem replaceFrom_of_count (z : α)
    (h : s.count z < (Item.sym pat.first :: pat.items).countP (Item.isSym z)) (lineStart : Bool) :
    replaceFrom eol pat repl 0 lineStart s = s := by
  induction s generalizing lineStart with
  | nil => rfl
  | cons c s ih =>
    have hnone : pat.matchAfter lineStart c s = none := by
      rw [Pattern.matchAfter]
      split
      next hc =>
        cases hm : matchItems pat.items s with
        | none => rfl
        | some n =>
          have hle := matchItems_count z hm
          have hcons := List.count_cons (a := z) (b := c) (l := s)
          rw [List.countP_cons, hcons] at h
          simp only [Item.isSym, ← hc.1, decide_eq_true_eq, beq_iff_eq] at h
          omega
      next => rfl
    rw [replaceFrom_next hnone, ih]
    exact lt_of_le_of_lt ((List.sublist_cons_self c s).count_le z) h

/-- The first symbol of the pattern is not at a place where a match could begin. -/
def Avoids (eol : α → Bool) (pat : Pattern α) : Bool → List α → Prop
  | _, [] => True
  | lineStart, c :: s =>
    ¬(c = pat.first ∧ (pat.lineStart = true → lineStart = true)) ∧ Avoids eol pat (eol c) s

theorem replaceFrom_avoids (h : Avoids eol pat lineStart u) (s : List α) :
    replaceFrom eol pat repl 0 lineStart (u ++ s) =
      u ++ replaceFrom eol pat repl 0 (startsLine eol lineStart u) s := by
  induction u generalizing lineStart with
  | nil => rfl
  | cons c u ih =>
    have hnone : pat.matchAfter lineStart c (u ++ s) = none := if_neg h.1
    rw [List.cons_append, replaceFrom_next hnone, ih h.2]
    rfl

omit [DecidableEq α] in
theorem avoids_of_not_mem (h : pat.first ∉ u) (lineStart : Bool) : Avoids eol pat lineStart u := by
  induction u generalizing lineStart with
  | nil => trivial
  | cons c u ih =>
    rw [List.mem_cons, not_or] at h
    exact ⟨fun hc => h.1 hc.1.symm, ih h.2 _⟩

omit [DecidableEq α] in
theorem avoids_of_midline (hpat : pat.lineStart = true) (h : ∀ c ∈ u, eol c = false) :
    Avoids eol pat false u := by
  induction u with
  | nil => trivial
  | cons c u ih =>
    refine ⟨fun hc => Bool.false_ne_true (hc.2 hpat), ?_⟩
    rw [h c List.mem_cons_self]
    exact ih fun a ha => h a (List.mem_cons_of_mem c ha)

omit [DecidableEq α] in
theorem Avoids.append {v : List α} (hu : Avoids eol pat lineStart u)
    (hv : Avoids eol pat (startsLine eol lineStart u) v) : Avoids eol pat lineStart (u ++ v) := by
  induction u generalizing lineStart with
  | nil => exact hv
  | cons c u ih => exact ⟨hu.1, ih hu.2 hv⟩

end Replacing

section Until
variable {α : Type} [DecidableEq α] {eol : α → Bool} {repl : List α} {lineStart : Bool}

/-- A word, and everything up to the next `z`. -/
def wordUntil (a : α) (w : List α) (z : α) : Pattern α :=
  ⟨false, a, syms w ++ [.many fun c => decide (c ≠ z), .sym z]⟩

variable {a z : α} {w : List α}

theorem ne_of_not_mem {v : List α} (hv : z ∉ v) : ∀ c ∈ v, decide (c ≠ z) = true := by
  intro c hc
  exact decide_eq_true fun h => hv (h ▸ hc)

theorem replaceFrom_wordUntil {v : List α} (hv : z ∉ v) (s : List α) :
    replaceFrom eol (wordUntil a w z) repl 0 lineStart (a :: w ++ v ++ z :: s) =
      repl ++ replaceFrom eol (wordUntil a w z) repl 0 lineStart s := by
  have hmatch : (wordUntil a w z).matchAfter lineStart a ((w ++ v ++ [z]) ++ s) =
      some (w ++ v ++ [z]).length := by
    rw [Pattern.matchAfter, if_pos ⟨rfl, nofun⟩, List.append_assoc, List.append_assoc, wordUntil,
      matchItems_syms, List.singleton_append, matchItems_until (by simp) (ne_of_not_mem hv),
      matchItems]
    simp
    omega
  have hsplit : a :: w ++ v ++ z :: s = a :: ((w ++ v ++ [z]) ++ s) := by simp
  rw [hsplit, replaceFrom_match hmatch]
  exact congrArg (repl ++ ·) (replaceFrom_lineStart rfl 0 _ _ s)

theorem replaceFrom_no_match {c : α} {s : List α} (h : ¬a :: w <+: c :: s) :
    replaceFrom eol (wordUntil a w z) repl 0 lineStart (c :: s) =
      c :: replaceFrom eol (wordUntil a w z) repl 0 lineStart s := by
  have hnone : (wordUntil a w z).matchAfter lineStart c s = none := by
    rw [Pattern.matchAfter]
    split
    next hc =>
      apply matchItems_syms_none
      exact fun hw => h (List.cons_prefix_cons.mpr ⟨hc.1.symm, hw⟩)
    next => rfl
  rw [replaceFrom_next hnone]
  exact congrArg (c :: ·) (replaceFrom_lineStart rfl 0 _ _ s)

omit [DecidableEq α] in
/-- A word ends before a symbol that it does not have. -/
theorem prefix_of_not_mem {c : α} {u v s : List α} (hc : c ∉ v) (h : v <+: u ++ c :: s) :
    v <+: u := by
  rcases List.prefix_or_prefix_of_prefix h (List.prefix_append u (c :: s)) with hv | ⟨t, rfl⟩
  · exact hv
  · cases t with
    | nil => simp
    | cons b t =>
      have hb : b = c := (List.cons_prefix_cons.mp ((List.prefix_append_right_inj u).mp h)).1
      exact absurd (by simp [hb]) hc

/-- A text without the word is kept, up to a symbol that is not in the word. -/
theorem replaceFrom_word_free {c : α} {u : List α} (hu : ¬a :: w <:+: u) (hc : c ∉ a :: w)
    (s : List α) :
    replaceFrom eol (wordUntil a w z) repl 0 lineStart (u ++ c :: s) =
      u ++ c :: replaceFrom eol (wordUntil a w z) repl 0 lineStart s := by
  induction u with
  | nil =>
    apply replaceFrom_no_match
    intro h
    rw [(List.cons_prefix_cons.mp h).1] at hc
    exact hc List.mem_cons_self
  | cons b u ih =>
    have hword : ¬a :: w <+: b :: (u ++ c :: s) := by
      intro h
      exact hu (prefix_of_not_mem (u := b :: u) hc h).isInfix
    have hu' : ¬a :: w <:+: u := fun h => hu (h.trans (List.suffix_cons b u).isInfix)
    rw [List.cons_append, replaceFrom_no_match hword, ih hu']
    rfl

/-- A text without `z` is kept. -/
theorem replaceFrom_free {t : List α} (ht : z ∉ t) :
    replaceFrom eol (wordUntil a w z) repl 0 lineStart t = t := by
  apply replaceFrom_of_count z
  rw [List.count_eq_zero_of_not_mem ht, List.countP_pos_iff]
  exact ⟨.sym z, by simp [wordUntil], by simp [Item.isSym]⟩

/-- How the replacement goes through a text: it meets the word with a `z` behind it, the word
without one, or another symbol. -/
theorem word_induction {motive : List α → Prop} (nil : motive [])
    (closed : ∀ v s, z ∉ v → motive s → motive (a :: w ++ v ++ z :: s))
    (unclosed : ∀ v, z ∉ v → motive (a :: w ++ v))
    (next : ∀ c s, ¬a :: w <+: c :: s → motive s → motive (c :: s)) (u : List α) : motive u := by
  induction hn : u.length using Nat.strong_induction_on generalizing u with
  | _ n ih =>
    by_cases hword : a :: w <+: u
    · obtain ⟨v, rfl⟩ := hword
      by_cases hz : z ∈ v
      · obtain ⟨v, s, rfl, hv⟩ := List.eq_append_cons_of_mem hz
        rw [← List.append_assoc]
        refine closed v s hv (ih s.length ?_ s rfl)
        simp at hn
        omega
      · exact unclosed v hz
    · cases u with
      | nil => exact nil
      | cons c s => exact next c s hword (ih s.length (by simp at hn; omega) s rfl)

/-- The word occurs without a `z` behind it. -/
def Dangling (a : α) (w : List α) (z : α) (u : List α) : Prop :=
  ∃ x y, u = x ++ a :: w ++ y ∧ z ∉ y

omit [DecidableEq α] in
theorem closed_append (v s t : List α) :
    a :: w ++ v ++ z :: s ++ t = a :: w ++ v ++ z :: (s ++ t) := by simp

section Scan
variable (hz : z ∉ a :: w)
include hz

omit [DecidableEq α] in
theorem dangling_closed {v s : List α} :
    Dangling a w z (a :: w ++ v ++ z :: s) ↔ Dangling a w z s := by
  constructor
  · rintro ⟨x, y, hxy, hy⟩
    -- what has no `z` at the end of the text is at the end of `s`
    have hsuffix : a :: w ++ y <:+ a :: w ++ v ++ z :: s := ⟨x, by rw [hxy, List.append_assoc]⟩
    have hfree : z ∉ a :: w ++ y := List.not_mem_append hz hy
    have hs : z :: s <:+ a :: w ++ v ++ z :: s := List.suffix_append _ _
    rcases List.suffix_or_suffix_of_suffix hsuffix hs with h | h
    · rcases List.suffix_cons_iff.mp h with heq | h
      · exact absurd (heq ▸ List.mem_cons_self) hfree
      · obtain ⟨x', rfl⟩ := h
        exact ⟨x', y, by simp, hy⟩
    · exact absurd (h.subset List.mem_cons_self) hfree
  · rintro ⟨x, y, rfl, hy⟩
    exact ⟨a :: w ++ v ++ z :: x, y, by simp, hy⟩

omit [DecidableEq α] hz in
theorem dangling_next {c : α} {s : List α} (h : ¬a :: w <+: c :: s) :
    Dangling a w z (c :: s) ↔ Dangling a w z s := by
  constructor
  · rintro ⟨x, y, hxy, hy⟩
    cases x with
    | nil =>
      refine absurd ?_ h
      rw [hxy, List.nil_append]
      exact List.prefix_append _ _
    | cons b x => exact ⟨x, y, (List.cons.inj hxy).2, hy⟩
  · rintro ⟨x, y, rfl, hy⟩
    exact ⟨c :: x, y, by simp, hy⟩

omit [DecidableEq α] hz in
theorem dangling_unclosed {v : List α} (hv : z ∉ v) : Dangling a w z (a :: w ++ v) :=
  ⟨[], v, rfl, hv⟩

/-- After a dangling word, everything up to the next `z` is replaced. -/
theorem replaceFrom_dangling {u t : List α} (hu : Dangling a w z u) (ht : z ∉ t) (s : List α) :
    replaceFrom eol (wordUntil a w z) repl 0 lineStart (u ++ t ++ z :: s) =
      replaceFrom eol (wordUntil a w z) repl 0 lineStart (u ++ z :: s) := by
  induction u using word_induction (a := a) (w := w) (z := z) with
  | nil =>
    obtain ⟨x, y, hxy, -⟩ := hu
    simp at hxy
  | closed v s' hv ih =>
    rw [List.append_assoc, closed_append, closed_append, replaceFrom_wordUntil hv,
      replaceFrom_wordUntil hv, ← List.append_assoc, ih ((dangling_closed hz).mp hu)]
  | unclosed v hv =>
    rw [replaceFrom_wordUntil hv, List.append_assoc (a :: w) v t,
      replaceFrom_wordUntil (List.not_mem_append hv ht)]
  | next c s' hc ih =>
    -- the word is in the text already, so it does not begin here in a longer one
    have hnext (t : List α) : ¬a :: w <+: c :: (s' ++ t) := by
      intro h
      refine hc (List.prefix_of_prefix_length_le h (List.prefix_append (c :: s') t) ?_)
      obtain ⟨x, y, hxy, -⟩ := hu
      rw [hxy]
      simp
      omega
    rw [List.append_assoc, List.cons_append, List.cons_append, replaceFrom_no_match (hnext _),
      replaceFrom_no_match (hnext _), ← List.append_assoc, ih ((dangling_next hc).mp hu)]

theorem replaceFrom_append_free {u t : List α} (ht : z ∉ t) :
    replaceFrom eol (wordUntil a w z) repl 0 lineStart (u ++ t) =
      replaceFrom eol (wordUntil a w z) repl 0 lineStart u ++ t := by
  induction u using word_induction (a := a) (w := w) (z := z) with
  | nil => exact replaceFrom_free ht
  | closed v s' hv ih =>
    rw [closed_append, replaceFrom_wordUntil hv, replaceFrom_wordUntil hv, ih, List.append_assoc]
  | unclosed v hv =>
    have hfree : z ∉ a :: w ++ v := List.not_mem_append hz hv
    rw [replaceFrom_free hfree, replaceFrom_free (List.not_mem_append hfree ht)]
  | next c s' hc ih =>
    by_cases hmem : z ∈ c :: s'
    · have hnext : ¬a :: w <+: c :: (s' ++ t) := by
        intro h
        rcases List.prefix_or_prefix_of_prefix h (List.prefix_append (c :: s') t) with h | h
        · exact hc h
        · exact hz (h.subset hmem)
      rw [List.cons_append, replaceFrom_no_match hnext, replaceFrom_no_match hc, ih,
        List.cons_append]
    · rw [replaceFrom_free hmem, replaceFrom_free (List.not_mem_append hmem ht)]

/-- A text without a dangling word is replaced on its own, up to a symbol that is not in the
word. -/
theorem replaceFrom_append {u : List α} {c : α} (hu : ¬Dangling a w z u) (hc : c ∉ a :: w)
    (s : List α) :
    replaceFrom eol (wordUntil a w z) repl 0 lineStart (u ++ c :: s) =
      replaceFrom eol (wordUntil a w z) repl 0 lineStart u ++
        replaceFrom eol (wordUntil a w z) repl 0 lineStart (c :: s) := by
  induction u using word_induction (a := a) (w := w) (z := z) with
  | nil => rfl
  | closed v s' hv ih =>
    rw [closed_append, replaceFrom_wordUntil hv, replaceFrom_wordUntil hv,
      ih fun h => hu ((dangling_closed hz).mpr h), List.append_assoc]
  | unclosed v hv => exact absurd (dangling_unclosed hv) hu
  | next b s' hb ih =>
    have hnext : ¬a :: w <+: b :: (s' ++ c :: s) :=
      fun h => hb (prefix_of_not_mem (u := b :: s') hc h)
    rw [List.cons_append, replaceFrom_no_match hnext, replaceFrom_no_match hb,
      ih fun h => hu ((dangling_next hb).mpr h), List.cons_append]

end Scan

end Until
end RoutingApi.Text
