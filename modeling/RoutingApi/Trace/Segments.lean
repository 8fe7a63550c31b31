import RoutingApi.Text.Lines
import RoutingApi.Trace.Sanitize

/-! The last five replacements on the texts between the quotes: what they make of the texts before
a quote, of a member of an object and of the texts after it. -/
namespace RoutingApi.Trace
open Text

section Segments
variable {s t : List Char}

/-- The texts between the quotes. -/
def segments (s : List Char) : List (List Char) := s.splitOn '"'

theorem quoted_segments (s : List Char) : quoted (segments s) = s := List.intercalate_splitOn '"'

theorem segments_append (u v : List Char) : segments (u ++ '"' :: v) = segments u ++ segments v :=
  List.splitOn_append_cons_self u v

theorem segments_free (h : '"' ∉ s) : segments s = [s] := List.splitOn_eq_singleton h

theorem segments_cons (h : '"' ∉ s) (t : List Char) :
    segments (s ++ '"' :: t) = s :: segments t := by
  rw [segments_append, segments_free h]
  rfl

theorem segments_ne_nil (s : List Char) : segments s ≠ [] := List.splitOn_ne_nil _ _

theorem exists_segments (s : List Char) : ∃ segs t, segments s = segs ++ [t] :=
  (List.eq_nil_or_concat' (segments s)).resolve_left (segments_ne_nil s)

theorem segments_inj : segments s = segments t ↔ s = t := by
  constructor
  · intro h
    rw [← quoted_segments s, ← quoted_segments t, h]
  · rintro rfl
    rfl

/-- Texts between quotes have none. -/
theorem not_mem_segments (s : List Char) : ∀ t ∈ segments s, '"' ∉ t :=
  fun _ => Text.not_mem_of_mem_splitOn

theorem segments_quoted {segs : List (List Char)} (hsegs : ∀ s ∈ segs, '"' ∉ s) (hne : segs ≠ []) :
    segments (quoted segs) = segs := List.splitOn_intercalate '"' hsegs hne

theorem quoted_concat (segs : List (List Char)) (s t : List Char) :
    quoted (segs ++ [s ++ t]) = quoted (segs ++ [s]) ++ t := by
  induction segs with
  | nil => simp [quoted]
  | cons a segs ih =>
    cases segs with
    | nil => simp [quoted]
    | cons b segs =>
      simp only [List.cons_append] at ih ⊢
      rw [quoted_cons, quoted_cons, ih, List.append_assoc, List.cons_append]

/-- What has no quote belongs to the last text. -/
theorem segments_append_free {segs : List (List Char)} {u : List Char} (h : segments s = segs ++ [t])
    (hu : '"' ∉ u) : segments (s ++ u) = segs ++ [t ++ u] := by
  have hfree : ∀ v ∈ segs ++ [t], '"' ∉ v := h ▸ not_mem_segments s
  rw [← quoted_segments s, h, ← quoted_concat]
  refine segments_quoted ?_ (by simp)
  intro v hv
  rcases List.mem_append.mp hv with hv | hv
  · exact hfree v (List.mem_append_left _ hv)
  · rw [List.mem_singleton.mp hv]
    exact List.not_mem_append (hfree t (by simp)) hu

end Segments

section Property
variable {name : List Char} {s s₁ s₂ : List Char} {segs rest : List (List Char)}

theorem hideProperty_next (h : ¬(s₁ = name ∧ isColon s₂ = true)) (rest : List (List Char)) :
    hideProperty name (s₁ :: s₂ :: rest) = s₁ :: hideProperty name (s₂ :: rest) := by
  match rest with
  | [] | [_] => rfl
  | s₃ :: s₄ :: rest => rw [hideProperty, if_neg h]

theorem hideProperty_skip (h : s ≠ name) (rest : List (List Char)) :
    hideProperty name (s :: rest) = s :: hideProperty name rest := by
  cases rest with
  | nil => rfl
  | cons t rest => exact hideProperty_next (fun hst => h hst.1) rest

theorem not_mem_hideProperty (hname : '"' ∉ name) (hsegs : ∀ s ∈ segs, '"' ∉ s) :
    ∀ s ∈ hideProperty name segs, '"' ∉ s := by
  fun_induction hideProperty name segs with
  | case1 s₁ s₂ s₃ s₄ rest h ih =>
    simp only [List.forall_mem_cons] at hsegs ⊢
    obtain ⟨-, -, -, h₄, hrest⟩ := hsegs
    exact ⟨hname, by decide, by decide, h₄, ih hrest⟩
  | case2 s₁ s₂ s₃ s₄ rest h ih =>
    rw [List.forall_mem_cons] at hsegs ⊢
    exact ⟨hsegs.1, ih hsegs.2⟩
  | case3 segs h => exact hsegs

/-- The text before the first quote is kept. -/
theorem segments_sanitizeJson {t s₀ : List Char} (hname : '"' ∉ name)
    (h : segments t = s₀ :: segs) :
    segments (sanitizeJson name t) = s₀ :: hideProperty name segs := by
  have hsegs : ∀ s ∈ s₀ :: segs, '"' ∉ s := h ▸ not_mem_segments t
  obtain ⟨h₀, hrest⟩ := List.forall_mem_cons.mp hsegs
  rw [← quoted_segments t, h, sanitizeJson_quoted hname hsegs]
  apply segments_quoted
  · exact List.forall_mem_cons.mpr ⟨h₀, not_mem_hideProperty hname hrest⟩
  · exact List.cons_ne_nil _ _

/-- The texts before a quote: what becomes of them, and whether that quote ends a match. -/
def scan (name : List Char) : List (List Char) → List (List Char) × Bool
  | [s₁, s₂, s₃] =>
    if s₁ = name ∧ isColon s₂ then ([name, [':'], privateDataPlaceholder], true)
    else ([s₁, s₂, s₃], false)
  | s₁ :: s₂ :: s₃ :: s₄ :: rest =>
    if s₁ = name ∧ isColon s₂ then
      (name :: [':'] :: privateDataPlaceholder :: s₄ :: (scan name rest).1, (scan name rest).2)
    else
      (s₁ :: (scan name (s₂ :: s₃ :: s₄ :: rest)).1, (scan name (s₂ :: s₃ :: s₄ :: rest)).2)
  | segs => (segs, false)

/-- The last text is kept, as no quote comes after it. -/
theorem hideProperty_concat (segs : List (List Char)) (s : List Char) :
    hideProperty name (segs ++ [s]) = (scan name segs).1 ++ [s] := by
  fun_induction scan name segs with
  | case1 s₁ s₂ s₃ h =>
    obtain ⟨rfl, hcolon⟩ := h
    simp [hideProperty, hcolon]
  | case2 s₁ s₂ s₃ h =>
    rw [List.cons_append, List.cons_append, hideProperty_next h]
    rfl
  | case3 s₁ s₂ s₃ s₄ rest h ih =>
    obtain ⟨rfl, hcolon⟩ := h
    simp [hideProperty, hcolon, ih]
  | case4 s₁ s₂ s₃ s₄ rest h ih =>
    rw [List.cons_append, List.cons_append, hideProperty_next h]
    exact congrArg (s₁ :: ·) ih
  | case5 segs h₃ h₄ =>
    match segs with
    | [] | [_] | [_, _] => rfl
    | [s₁, s₂, s₃] => exact absurd rfl (h₃ s₁ s₂ s₃)
    | s₁ :: s₂ :: s₃ :: s₄ :: rest => exact absurd rfl (h₄ s₁ s₂ s₃ s₄ rest)

/-- The last text before a member has the brace or the comma in it. -/
def Delimited (segs : List (List Char)) : Prop := ∀ s ∈ segs.getLast?, isColon s = false

theorem Delimited.tail (h : Delimited (s :: segs)) : Delimited segs := by
  intro t ht
  cases segs with
  | nil => cases ht
  | cons a segs => exact h t (by rwa [List.getLast?_cons_cons])

theorem hideProperty_append (hsegs : Delimited segs) (hs : isColon s = false)
    (rest : List (List Char)) :
    hideProperty name (segs ++ s :: rest) = (scan name segs).1 ++
      if (scan name segs).2 = true then s :: hideProperty name rest
      else hideProperty name (s :: rest) := by
  fun_induction scan name segs with
  | case1 s₁ s₂ s₃ h =>
    obtain ⟨rfl, hcolon⟩ := h
    simp [hideProperty, hcolon]
  | case2 s₁ s₂ s₃ h =>
    have h₃ : isColon s₃ = false := hsegs s₃ rfl
    simp only [List.cons_append, List.nil_append]
    rw [hideProperty_next h, hideProperty_next (by simp [h₃]), hideProperty_next (by simp [hs])]
    rfl
  | case3 s₁ s₂ s₃ s₄ rest' h ih =>
    obtain ⟨rfl, hcolon⟩ := h
    simp [hideProperty, hcolon, ih hsegs.tail.tail.tail.tail]
  | case4 s₁ s₂ s₃ s₄ rest' h ih =>
    rw [List.cons_append, List.cons_append, hideProperty_next h]
    exact congrArg (s₁ :: ·) (ih hsegs.tail)
  | case5 segs h₃ h₄ =>
    match segs with
    | [] => rfl
    | [s₁] => exact hideProperty_next (by simp [hs]) rest
    | [s₁, s₂] =>
      have h₂ : isColon s₂ = false := hsegs s₂ rfl
      simp only [List.cons_append, List.nil_append]
      rw [hideProperty_next (by simp [h₂]), hideProperty_next (by simp [hs])]
      rfl
    | [s₁, s₂, s₃] => exact absurd rfl (h₃ s₁ s₂ s₃)
    | s₁ :: s₂ :: s₃ :: s₄ :: rest => exact absurd rfl (h₄ s₁ s₂ s₃ s₄ rest)

theorem Delimited.cons (hs : segs = [] → isColon s = false) (h : Delimited segs) :
    Delimited (s :: segs) := by
  intro t ht
  cases segs with
  | nil =>
    cases ht
    exact hs rfl
  | cons a segs => exact h t (by rwa [List.getLast?_cons_cons] at ht)

theorem scan_length (segs : List (List Char)) : (scan name segs).1.length = segs.length := by
  fun_induction scan name segs with
  | case1 | case2 | case5 => rfl
  | case3 s₁ s₂ s₃ s₄ rest h ih => simp [ih]
  | case4 s₁ s₂ s₃ s₄ rest h ih => simp [ih]

theorem Delimited.scan (h : Delimited segs) : Delimited (scan name segs).1 := by
  have hnil (segs : List (List Char)) (hs : (Trace.scan name segs).1 = []) : segs = [] := by
    rw [← List.length_eq_zero_iff, ← scan_length, hs]
    rfl
  fun_induction Trace.scan name segs with
  | case1 s₁ s₂ s₃ hmatch =>
    intro s hs
    cases hs
    rfl
  | case2 s₁ s₂ s₃ hmatch => exact h
  | case3 s₁ s₂ s₃ s₄ rest hmatch ih =>
    have h₄ : (Trace.scan name rest).1 = [] → isColon s₄ = false := by
      intro hs
      exact h.tail.tail.tail s₄ (by rw [hnil rest hs]; rfl)
    exact .cons nofun (.cons nofun (.cons nofun (.cons h₄ (ih h.tail.tail.tail.tail))))
  | case4 s₁ s₂ s₃ s₄ rest hmatch ih =>
    refine (ih h.tail).cons fun hs => ?_
    cases hnil _ hs
  | case5 segs h₃ h₄ => exact h

end Property

section Sanitize
variable {t s₀ : List Char} {segs : List (List Char)} {names : List (List Char)}

/-- The replacements of some properties, one after the other. -/
def hideAll (names segs : List (List Char)) : List (List Char) :=
  names.foldl (fun segs name => hideProperty name segs) segs

/-- What they make of the texts before a quote. -/
def scanAll (names segs : List (List Char)) : List (List Char) :=
  names.foldl (fun segs name => (scan name segs).1) segs

theorem segments_foldl (hnames : ∀ name ∈ names, '"' ∉ name) (h : segments t = s₀ :: segs) :
    segments (names.foldl (fun json name => sanitizeJson name json) t) =
      s₀ :: hideAll names segs := by
  induction names generalizing t segs with
  | nil => exact h
  | cons name names ih =>
    obtain ⟨hname, hnames⟩ := List.forall_mem_cons.mp hnames
    exact ih hnames (segments_sanitizeJson hname h)

theorem segments_sanitize (h : segments (hidePassword (hideAuthorization t)) = s₀ :: segs) :
    segments (sanitize t) = s₀ :: hideAll properties segs := segments_foldl (by decide) h

/-- The last text is kept, whatever it is. -/
theorem segments_sanitizeJson_concat {name : List Char} (hname : '"' ∉ name)
    (segs : List (List Char)) : ∃ segs', ∀ u x, segments u = segs ++ [x] →
      segments (sanitizeJson name u) = segs' ++ [x] := by
  cases segs with
  | nil => exact ⟨[], fun u x hu => segments_sanitizeJson hname hu⟩
  | cons a segs =>
    refine ⟨a :: (scan name segs).1, fun u x hu => ?_⟩
    rw [List.cons_append] at hu
    rw [segments_sanitizeJson hname hu, hideProperty_concat, List.cons_append]

theorem sanitizeJson_append_free {name : List Char} (hname : '"' ∉ name) (ht : '"' ∉ t)
    (s : List Char) : sanitizeJson name (s ++ t) = sanitizeJson name s ++ t := by
  obtain ⟨segs, x, hsegs⟩ := exists_segments s
  obtain ⟨segs', hlast⟩ := segments_sanitizeJson_concat hname segs
  have happend := hlast (s ++ t) (x ++ t) (segments_append_free hsegs ht)
  rw [← segments_inj, happend, segments_append_free (hlast s x hsegs) ht]

theorem foldl_append_free (hnames : ∀ name ∈ names, '"' ∉ name) (ht : '"' ∉ t) (s : List Char) :
    names.foldl (fun json name => sanitizeJson name json) (s ++ t) =
      names.foldl (fun json name => sanitizeJson name json) s ++ t := by
  induction names generalizing s with
  | nil => rfl
  | cons name names ih =>
    obtain ⟨hname, hnames⟩ := List.forall_mem_cons.mp hnames
    rw [List.foldl_cons, sanitizeJson_append_free hname ht, ih hnames]
    rfl

end Sanitize

section Member
variable {as bs value names : List (List Char)} {name other colon b : List Char}

/-- Texts none of which begins a property, except maybe the last. -/
def Inert (value : List (List Char)) : Prop := ∀ s ∈ value.dropLast, s ∉ properties

theorem Inert.tail {s : List Char} (h : Inert (s :: value)) : Inert value := by
  cases value with
  | nil => exact nofun
  | cons t value => exact (List.forall_mem_cons.mp h).2

/-- The texts of a value that is hidden. -/
theorem Inert.hidden (h : Inert value) : Inert (privateDataPlaceholder :: value.tail) := by
  match value with
  | [] | [_] => exact nofun
  | s :: t :: value => exact List.forall_mem_cons.mpr ⟨by decide, h.tail⟩

/-- The text after a string value: it begins with a comma, a brace or a space, if at all. -/
def Follows (b : List Char) : Prop := isColon b = false ∧ b ∉ properties

theorem Inert.kept (h : Inert value) (hb : Follows b) (hname : name ∈ properties)
    (bs : List (List Char)) :
    hideProperty name (value ++ b :: bs) = value ++ b :: hideProperty name bs := by
  have hother : b ≠ name := fun heq => hb.2 (heq ▸ hname)
  induction value with
  | nil => exact hideProperty_skip hother bs
  | cons s value ih =>
    have hnext : hideProperty name (s :: (value ++ b :: bs)) =
        s :: hideProperty name (value ++ b :: bs) := by
      cases value with
      | nil => exact hideProperty_next (by simp [hb.1]) bs
      | cons t value =>
        have hs : s ≠ name := fun heq => h s List.mem_cons_self (heq ▸ hname)
        exact hideProperty_skip hs _
    rw [List.cons_append, hnext, ih h.tail]
    rfl

/-- The texts from the colon of a member to its value. -/
def shown (hidden : Bool) (colon : List Char) (value : List (List Char)) : List (List Char) :=
  if hidden then [':'] :: privateDataPlaceholder :: value.tail else colon :: value

theorem shown_inj {value' : List (List Char)} (hidden : Bool) :
    shown hidden colon value = shown hidden colon value' ↔
      if hidden = true then value.tail = value'.tail else value = value' := by
  cases hidden with
  | false => simp [shown]
  | true => simp [shown]

/-- Whether the property is hidden where it stands behind these texts. -/
def hides (name colon : List Char) (as : List (List Char)) : Bool :=
  isColon colon && !(scan name as).2

theorem properties_isColon : ∀ name ∈ properties, isColon name = false := by decide

theorem hideProperty_other (has : Delimited as) (hname : name ∈ properties)
    (hother : other ∈ properties) (hne : other ≠ name) (hcolon : colon ∉ properties)
    (hvalue : Inert value) (hb : Follows b) (bs : List (List Char)) :
    hideProperty other (as ++ name :: colon :: (value ++ b :: bs)) =
      (scan other as).1 ++ name :: colon :: (value ++ b :: hideProperty other bs) := by
  have hskip : colon ≠ other := fun heq => hcolon (heq ▸ hother)
  rw [hideProperty_append has (properties_isColon name hname), hideProperty_skip hne.symm,
    hideProperty_skip hskip, hvalue.kept hb hother, ite_self]

theorem hideProperty_own {s : List Char} (has : Delimited as) (hname : name ∈ properties)
    (hcolon : colon ∉ properties) (hvalue : Inert (s :: value)) (hb : Follows b)
    (bs : List (List Char)) :
    hideProperty name (as ++ name :: colon :: (s :: value ++ b :: bs)) =
      (scan name as).1 ++ name :: (shown (hides name colon as) colon (s :: value) ++
        b :: hideProperty name bs) := by
  have hskip : colon ≠ name := fun heq => hcolon (heq ▸ hname)
  have hkept : hideProperty name (colon :: (s :: value ++ b :: bs)) =
      colon :: (s :: value ++ b :: hideProperty name bs) := by
    rw [hideProperty_skip hskip, hvalue.kept hb hname]
  rw [hideProperty_append has (properties_isColon name hname), hides, shown]
  cases hspent : (scan name as).2 with
  | true =>
    rw [if_pos rfl, hkept, Bool.not_true, Bool.and_false]
    rfl
  | false =>
    cases hc : isColon colon with
    | false =>
      have hnext : ¬(name = name ∧ isColon colon = true) := by simp [hc]
      rw [if_neg Bool.false_ne_true, hideProperty_next hnext, hkept]
      rfl
    | true =>
      cases value with
      | nil => simp [hideProperty, hc]
      | cons t value =>
        have hrest := hvalue.tail.tail.kept hb hname bs
        simp [hideProperty, hc, hrest]

theorem hideAll_others (hnames : ∀ n ∈ names, n ∈ properties ∧ n ≠ name) (has : Delimited as)
    (hname : name ∈ properties) (hcolon : colon ∉ properties) (hvalue : Inert value)
    (hb : Follows b) (bs : List (List Char)) :
    hideAll names (as ++ name :: colon :: (value ++ b :: bs)) =
      scanAll names as ++ name :: colon :: (value ++ b :: hideAll names bs) := by
  induction names generalizing as bs with
  | nil => rfl
  | cons n names ih =>
    obtain ⟨hn, hnames⟩ := List.forall_mem_cons.mp hnames
    rw [hideAll, List.foldl_cons, hideProperty_other has hname hn.1 hn.2 hcolon hvalue hb]
    exact ih hnames has.scan _

theorem Delimited.scanAll (h : Delimited as) (names : List (List Char)) :
    Delimited (scanAll names as) := by
  induction names generalizing as with
  | nil => exact h
  | cons n names ih => exact ih h.scan

/-- The properties that are replaced before this one. -/
def earlier (name : List Char) : List (List Char) := properties.takeWhile fun n => decide (n ≠ name)

/-- The properties that are replaced after this one. -/
def later (name : List Char) : List (List Char) :=
  (properties.dropWhile fun n => decide (n ≠ name)).tail

theorem properties_split : ∀ name ∈ properties, properties = earlier name ++ name :: later name ∧
    (∀ n ∈ earlier name, n ∈ properties ∧ n ≠ name) ∧
    ∀ n ∈ later name, n ∈ properties ∧ n ≠ name := by decide

/-- What comes before a member and after it does not depend on its value, and the value only loses
its first text. -/
theorem hideAll_member (has : Delimited as) (hname : name ∈ properties)
    (hcolon : colon ∉ properties) (hb : Follows b) (bs : List (List Char)) :
    ∃ as' bs', ∀ s value, Inert (s :: value) →
      hideAll properties (as ++ name :: colon :: (s :: value ++ b :: bs)) =
        as' ++ name :: (shown (hides name colon (scanAll (earlier name) as)) colon (s :: value) ++
          b :: bs') := by
  obtain ⟨hsplit, hearlier, hlater⟩ := properties_split name hname
  set as₁ := scanAll (earlier name) as with has₁
  set bs₁ := hideAll (earlier name) bs with hbs₁
  refine ⟨scanAll (later name) (scan name as₁).1,
    hideAll (later name) (hideProperty name bs₁), fun s value hvalue => ?_⟩
  have hdelimited : Delimited as₁ := has.scanAll _
  have hfold (segs : List (List Char)) : hideAll properties segs =
      hideAll (later name) (hideProperty name (hideAll (earlier name) segs)) := by
    rw [hideAll, hsplit, List.foldl_append, List.foldl_cons]
    rfl
  rw [hfold, hideAll_others hearlier has hname hcolon hvalue hb,
    hideProperty_own hdelimited hname hcolon hvalue hb, shown]
  split
  next =>
    exact hideAll_others hlater hdelimited.scan hname (by decide) hvalue.hidden hb _
  next => exact hideAll_others hlater hdelimited.scan hname hcolon hvalue hb _

end Member

end RoutingApi.Trace
