import RoutingApi.Trace.Segments

/-! Where a secret stands in a dump, and what `Sanitize` leaves of it. -/
namespace RoutingApi.Trace
open Text

section Literals
variable {s u : List Char} {escape : Bool}

def isHexadecimal (c : Char) : Bool := c.isDigit || "abcdefABCDEF".toList.contains c

/-- What may stand between the quotes of a JSON string. -/
inductive Literal : List Char → Prop
  | nil : Literal []
  | plain {c : Char} {s : List Char} :
      32 ≤ c.toNat → c ≠ '"' → c ≠ '\\' → Literal s → Literal (c :: s)
  | escape {c : Char} {s : List Char} :
      c ∈ "\"\\/bfnrt".toList → Literal s → Literal ('\\' :: c :: s)
  | code {digits s : List Char} :
      digits.length = 4 → (∀ c ∈ digits, isHexadecimal c = true) → Literal s →
        Literal ('\\' :: 'u' :: (digits ++ s))

theorem Literal.not_newline (h : Literal s) : '\n' ∉ s := by
  induction h with
  | nil => exact List.not_mem_nil
  | plain hc _ _ _ ih =>
    rw [List.mem_cons, not_or]
    refine ⟨?_, ih⟩
    rintro rfl
    exact absurd hc (by decide)
  | @escape c s hc _ ih =>
    have hletters : '\n' ∉ "\"\\/bfnrt".toList := by decide
    rw [List.mem_cons, List.mem_cons, not_or, not_or]
    exact ⟨by decide, fun h => hletters (h ▸ hc), ih⟩
  | @code digits s _ hdigits _ ih =>
    rw [List.mem_cons, List.mem_cons, List.mem_append, not_or, not_or, not_or]
    exact ⟨by decide, by decide, fun h => absurd (hdigits _ h) (by decide), ih⟩

/-- Every quote has a backslash before it; the flag says whether one comes before the text. -/
def Escaped : Bool → List Char → Prop
  | _, [] => True
  | escape, c :: s => (c = '"' → escape = true) ∧ Escaped (decide (c = '\\')) s

theorem escaped_append (hu : '"' ∉ u) (hs : ∀ escape, Escaped escape s) (escape : Bool) :
    Escaped escape (u ++ s) := by
  induction u generalizing escape with
  | nil => exact hs escape
  | cons c u ih =>
    rw [List.mem_cons, not_or] at hu
    exact ⟨fun hc => absurd hc.symm hu.1, ih hu.2 _⟩

theorem Literal.escaped (h : Literal s) (escape : Bool) : Escaped escape s := by
  induction h generalizing escape with
  | nil => trivial
  | plain _ hquote _ _ ih => exact ⟨fun hc => absurd hc hquote, ih _⟩
  | escape hc _ ih => exact ⟨nofun, fun _ => rfl, ih _⟩
  | @code digits s _ hdigits _ ih =>
    have hfree : '"' ∉ digits := fun h => absurd (hdigits _ h) (by decide)
    exact ⟨nofun, nofun, escaped_append hfree ih _⟩

theorem Escaped.drop {c : Char} (h : Escaped escape (u ++ c :: s)) :
    Escaped (decide (c = '\\')) s := by
  induction u generalizing escape with
  | nil => exact h.2
  | cons b u ih => exact ih h.2

theorem Escaped.backslash (h : Escaped false (u ++ '"' :: s)) : '\\' ∈ u := by
  suffices hback : ∀ escape, Escaped escape (u ++ '"' :: s) → escape = true ∨ '\\' ∈ u by
    exact (hback false h).resolve_left Bool.false_ne_true
  clear h
  induction u with
  | nil => exact fun escape h => .inl (h.1 rfl)
  | cons c u ih =>
    intro escape h
    refine .inr ?_
    rcases ih _ h.2 with hc | hu
    · rw [of_decide_eq_true hc]
      exact List.mem_cons_self
    · exact List.mem_cons_of_mem c hu

/-- No property begins between two quotes of such a text. -/
theorem Escaped.inert (h : Escaped false s) : Inert (segments s) := by
  have hnames : ∀ name ∈ properties, '\\' ∉ name := by decide
  induction hn : s.length using Nat.strong_induction_on generalizing s with
  | _ n ih =>
    by_cases hs : '"' ∈ s
    · obtain ⟨u, v, rfl, hu⟩ := List.eq_append_cons_of_mem hs
      have hv : Inert (segments v) := ih v.length (by simp at hn; omega) h.drop rfl
      rw [segments_cons hu, Inert, List.dropLast_cons_of_ne_nil (segments_ne_nil v),
        List.forall_mem_cons]
      exact ⟨fun hname => hnames u hname h.backslash, hv⟩
    · rw [segments_free hs]
      exact nofun

theorem Escaped.hidePassword (h : Escaped escape s) : Escaped escape (hidePassword s) := by
  induction s using word_induction (a := 'p') (w := "assword=".toList) (z := '&')
    generalizing escape with
  | nil => trivial
  | closed v s hv ih =>
    have hs : ∀ escape, Escaped escape ('&' :: Trace.hidePassword s) := fun _ => ⟨nofun, ih h.drop⟩
    have hfree : '"' ∉ "password=".toList ++ privateDataPlaceholder := by decide
    have hparameter := hidePassword_parameter hv s
    exact (congrArg (Escaped escape) hparameter).mpr (escaped_append hfree hs escape)
  | unclosed v hv =>
    have hfree : '&' ∉ 'p' :: "assword=".toList ++ v := List.not_mem_append (by decide) hv
    rwa [hidePassword_free hfree]
  | next c s hc ih =>
    rw [hidePassword_next hc]
    exact ⟨h.1, ih h.2⟩

end Literals

section Headers

/-- An `Authorization` header line and what is around it. -/
structure Header where
  head : List Char
  rest : List Char
  lines : LineEnd head

def Header.text (h : Header) (value : List Char) : List Char :=
  h.head ++ ("Authorization: ".toList ++ (value ++ h.rest))

theorem Header.hideAuthorization_text (h : Header) {value : List Char} (hvalue : '\n' ∉ value) :
    hideAuthorization (h.text value) = hideAuthorization h.head ++ ("Authorization: ".toList ++
      privateDataPlaceholder ++ hideMidline (h.rest.dropWhile fun c => decide (c ≠ '\n'))) := by
  rw [Header.text, hideAuthorization_append h.lines, hideAuthorization_header,
    List.dropWhile_append_of_pos (ne_of_not_mem hvalue)]

end Headers

section Forms

/-- The characters of a form-encoded body. -/
def isForm (c : Char) : Bool := c.isAlphanum || "*-._~+%=&".toList.contains c

/-- A form-encoded body with a password parameter. -/
structure Form where
  head : List Char
  before : List Char
  after : List Char
  space : List Char
  lines : LineEnd head
  body : ∀ c ∈ before ++ after, isForm c = true
  begins : before = [] ∨ before.getLast? = some '&'
  ends : after = [] ∨ after.head? = some '&'
  blank : ∀ c ∈ space, isSpace c = true

def Form.text (f : Form) (value : List Char) : List Char :=
  f.head ++ (f.before ++ "password=".toList ++ value ++ f.after ++ f.space)

variable (f : Form) {value : List Char}

theorem isForm_free {s : List Char} {c : Char} (hs : ∀ c ∈ s, isForm c = true)
    (hc : isForm c = false) : c ∉ s := fun h => Bool.false_ne_true (hc.symm.trans (hs c h))

theorem Form.hideAuthorization_text (hvalue : ∀ c ∈ value, isForm c = true) :
    hideAuthorization (f.text value) = hideAuthorization f.head ++
      (f.before ++ "password=".toList ++ value ++ f.after ++ f.space) := by
  have hbody := isForm_free f.body (c := ':') (by decide)
  have hvalue := isForm_free hvalue (c := ':') (by decide)
  have hspace : ':' ∉ f.space := fun h => absurd (f.blank _ h) (by decide)
  have hfree : ':' ∉ f.before ++ "password=".toList ++ value ++ f.after ++ f.space := by
    simp only [List.mem_append, not_or] at hbody ⊢
    exact ⟨⟨⟨⟨hbody.1, by decide⟩, hvalue⟩, hbody.2⟩, hspace⟩
  rw [Form.text, hideAuthorization_append f.lines, hideAuthorization_free hfree]

/-- The text up to the value, after the first replacement. -/
def Form.prior : List Char := hideAuthorization f.head ++ f.before ++ "password=".toList

theorem Form.opened : Opened f.prior :=
  ⟨hideAuthorization f.head ++ f.before, [], by simp [Form.prior], nofun⟩

/-- With a parameter behind it, nothing of the value is left. -/
theorem Form.sanitize_text {s : List Char} (hafter : f.after = '&' :: s)
    (hvalue : ∀ c ∈ value, isForm c = true) (hamp : '&' ∉ value) :
    hidePassword (hideAuthorization (f.text value)) =
      hidePassword (f.prior ++ '&' :: (s ++ f.space)) := by
  rw [f.hideAuthorization_text hvalue, ← hidePassword_opened f.opened hamp, hafter]
  simp [Form.prior]

/-- At the end of the body, the value is kept. -/
theorem Form.sanitize_last (hafter : f.after = []) (hvalue : ∀ c ∈ value, isForm c = true)
    (hamp : '&' ∉ value) :
    sanitize (f.text value) = properties.foldl (fun json name => sanitizeJson name json)
      (hidePassword f.prior) ++ (value ++ f.space) := by
  have hfree {c : Char} (hc : isSpace c = false) (hv : c ∉ value) : c ∉ value ++ f.space :=
    List.not_mem_append hv fun h => Bool.false_ne_true (hc.symm.trans (f.blank c h))
  have hquote : '"' ∉ value := isForm_free hvalue (by decide)
  have htext : hideAuthorization (f.text value) = f.prior ++ (value ++ f.space) := by
    rw [f.hideAuthorization_text hvalue, hafter]
    simp [Form.prior]
  rw [sanitize, htext, hidePassword_append_free _ (hfree (by decide) hamp)]
  exact foldl_append_free (by decide) (hfree (by decide) hquote) _

end Forms

section Members

def isBlank (c : Char) : Bool := [' ', '\t', '\n', '\r'].contains c

/-- What may come after a value: nothing, or a comma, a brace or a space first. -/
def Trails : List Char → Prop
  | [] => True
  | c :: _ => c = ',' ∨ c = '}' ∨ isBlank c = true

instance : DecidablePred Trails
  | [] => .isTrue trivial
  | _ :: _ => inferInstanceAs (Decidable (_ ∨ _ ∨ _))

namespace Trails
variable {s b : List Char}

theorem hideMidline (h : Trails s) : Trails (hideMidline s) := by
  cases s with
  | nil => exact h
  | cons c s =>
    have hnext : Trace.hideMidline (c :: s) = c :: replaceFrom newline authorization
        ("Authorization: ".toList ++ privateDataPlaceholder) 0 (newline c) s :=
      replaceFrom_next (if_neg fun hc => Bool.false_ne_true (hc.2 rfl))
    rw [hnext]
    exact h

theorem hidePassword (h : Trails s) : Trails (hidePassword s) := by
  cases s with
  | nil => exact h
  | cons c s =>
    have hword : ¬"password=".toList <+: c :: s := by
      intro hword
      obtain ⟨rfl, -⟩ := List.cons_prefix_cons.mp hword
      exact absurd (show 'p' = ',' ∨ 'p' = '}' ∨ isBlank 'p' = true from h) (by decide)
    rw [hidePassword_next hword]
    exact h

theorem segments {bs : List (List Char)} (h : Trails s) (hs : segments s = b :: bs) : Trails b := by
  cases b with
  | nil => trivial
  | cons c b =>
    rw [← quoted_segments s, hs] at h
    cases bs with
    | nil => exact h
    | cons t bs =>
      rw [quoted_cons] at h
      exact h

theorem follows (h : Trails b) : Follows b := by
  constructor
  · rw [Bool.eq_false_iff]
    intro hcolon
    obtain ⟨space, rfl, -⟩ := isColon_iff.mp hcolon
    exact absurd (show ':' = ',' ∨ ':' = '}' ∨ isBlank ':' = true from h) (by decide)
  · have hnames : ∀ name ∈ properties, ¬Trails name := by decide
    exact fun hb => hnames b hb h

end Trails

/-- A member of a JSON object whose value is a string. The text before it is made of whole lines and
of what comes before it in its own line, which is no header line as it belongs to the object. -/
structure Member where
  head : List Char
  line : List Char
  delimiter : Char
  space : List Char
  name : List Char
  beforeColon : List Char
  afterColon : List Char
  rest : List Char
  lines : LineEnd head
  inLine : '\n' ∉ line
  noHeader : ¬"Authorization: ".toList <+: line
  delimits : delimiter = '{' ∨ delimiter = ','
  property : name ∈ properties
  blank : ∀ c ∈ space ++ beforeColon ++ afterColon, isBlank c = true
  trails : Trails rest

namespace Member
variable (m : Member) {value : List Char}

def colon : List Char := m.beforeColon ++ ':' :: m.afterColon

def key : List Char := m.space ++ '"' :: (m.name ++ '"' :: m.colon)

/-- From the brace or comma to the quote that opens the value. -/
def opening : List Char := m.delimiter :: m.key ++ ['"']

def text (value : List Char) : List Char :=
  m.head ++ (m.line ++ (m.opening ++ value ++ '"' :: m.rest))

/-- The text before the member, after the first replacement. -/
def prior : List Char := hideAuthorization m.head ++ m.line

/-- The text after the value, after the first replacement. -/
def following : List Char := hideMidline m.rest

theorem delimiter_of {P : Char → Prop} (hbrace : P '{') (hcomma : P ',') : P m.delimiter := by
  rcases m.delimits with h | h
  · rwa [h]
  · rwa [h]

theorem not_mem_opening {c : Char} (hc : c ∉ ['{', ',', '"', ':']) (hblank : isBlank c = false)
    (hname : ∀ name ∈ properties, c ∉ name) : c ∉ m.opening := by
  have hspace : c ∉ m.space ++ m.beforeColon ++ m.afterColon :=
    fun h => Bool.false_ne_true (hblank.symm.trans (m.blank c h))
  have hdelimiter : c ≠ m.delimiter := by
    rintro rfl
    have hmem : m.delimiter ∈ ['{', ',', '"', ':'] :=
      m.delimiter_of (P := fun d => d ∈ ['{', ',', '"', ':']) (by decide) (by decide)
    exact hc hmem
  have hproperty := hname m.name m.property
  simp only [List.mem_append, List.mem_cons, not_or, List.not_mem_nil] at hc hspace
  simp only [opening, key, colon, List.mem_append, List.mem_cons, not_or, List.not_mem_nil]
  tauto

theorem opening_starts : startsLine newline false m.opening = false := startsLine_concat _ '"'

theorem hideAuthorization_text (hvalue : '\n' ∉ value) :
    hideAuthorization (m.text value) = m.prior ++ (m.opening ++ value ++ '"' :: m.following) := by
  have hdelimiter : m.delimiter ∉ "Authorization: ".toList :=
    m.delimiter_of (P := fun c => c ∉ "Authorization: ".toList) (by decide) (by decide)
  have hclosed : ∀ c ∈ value ++ ['"'], newline c = false := by
    intro c hc
    refine decide_eq_false ?_
    rintro rfl
    rcases List.mem_append.mp hc with hc | hc
    · exact hvalue hc
    · exact absurd hc (by decide)
  -- no line of the member begins with the header's name
  have havoids : Avoids newline authorization false (m.opening ++ (value ++ ['"'])) := by
    have hopening : 'A' ∉ m.opening := m.not_mem_opening (by decide) (by decide) (by decide)
    refine (avoids_of_not_mem hopening false).append ?_
    rw [opening_starts]
    exact avoids_of_midline rfl hclosed
  have hmember : hideMidline (m.opening ++ (value ++ ['"']) ++ m.rest) =
      m.opening ++ (value ++ ['"']) ++ m.following := by
    rw [hideMidline, replaceFrom_avoids havoids, ← List.append_assoc, startsLine_concat]
    rfl
  have hmidline : hideAuthorization (m.line ++ (m.opening ++ (value ++ ['"']) ++ m.rest)) =
      m.line ++ hideMidline (m.opening ++ (value ++ ['"']) ++ m.rest) :=
    hideAuthorization_midline m.inLine m.noHeader hdelimiter _
  have hclose (s : List Char) :
      m.opening ++ value ++ '"' :: s = m.opening ++ (value ++ ['"']) ++ s := by
    simp
  rw [text, hideAuthorization_append m.lines, hclose, hmidline, hmember, hclose]
  exact (List.append_assoc _ _ _).symm

/-- The form replacement hides the whole member. -/
def Covered : Prop := Opened m.prior ∧ '&' ∈ m.following

/-- Nothing that the form replacement hides begins before the value and ends in it, or begins in it
and ends behind it. -/
def Contains (value : List Char) : Prop :=
  (Opened m.prior → '&' ∉ value) ∧ (¬Opened m.prior → '&' ∈ m.following → ¬Opened value)

theorem hidePassword_covered (h : m.Covered) : ∃ t, ∀ value, '\n' ∉ value → m.Contains value →
    hidePassword (hideAuthorization (m.text value)) = t := by
  obtain ⟨u, v, hfollowing, hu⟩ := List.eq_append_cons_of_mem h.2
  refine ⟨hidePassword (m.prior ++ '&' :: v), fun value hline hvalue => ?_⟩
  have hopening : '&' ∉ m.opening := m.not_mem_opening (by decide) (by decide) (by decide)
  have hamp : '&' ∉ m.opening ++ value ++ '"' :: u :=
    List.not_mem_append (List.not_mem_append hopening (hvalue.1 h.1))
      (List.not_mem_cons_of_ne_of_not_mem (by decide) hu)
  rw [m.hideAuthorization_text hline, hfollowing, ← hidePassword_opened h.1 hamp]
  simp

theorem hidePassword_text (h : ¬m.Covered) (hline : '\n' ∉ value) (hvalue : m.Contains value) :
    hidePassword (hideAuthorization (m.text value)) = hidePassword m.prior ++
      (m.opening ++ hidePassword value ++ '"' :: hidePassword m.following) := by
  have hopening : '&' ∉ m.opening := m.not_mem_opening (by decide) (by decide) (by decide)
  rw [m.hideAuthorization_text hline]
  by_cases hprior : Opened m.prior
  · have hfollowing : '&' ∉ m.following := fun hq => h ⟨hprior, hq⟩
    have hamp := hvalue.1 hprior
    have hfree : '&' ∉ m.opening ++ value ++ '"' :: m.following :=
      List.not_mem_append (List.not_mem_append hopening hamp)
        (List.not_mem_cons_of_ne_of_not_mem (by decide) hfollowing)
    rw [hidePassword_append_free _ hfree, hidePassword_free hamp, hidePassword_free hfollowing]
  · have hrest : hidePassword (value ++ '"' :: m.following) =
        hidePassword value ++ '"' :: hidePassword m.following := by
      by_cases hopened : Opened value
      · have hfollowing : '&' ∉ m.following := fun hq => hvalue.2 hprior hq hopened
        have hfree : '&' ∉ '"' :: m.following :=
          List.not_mem_cons_of_ne_of_not_mem (by decide) hfollowing
        rw [hidePassword_append_free _ hfree, hidePassword_free hfollowing]
      · exact hidePassword_append hopened (by decide) _
    have hequals : '=' ∉ m.opening := m.not_mem_opening (by decide) (by decide) (by decide)
    have hkey : '=' ∉ m.key := by
      intro hk
      exact hequals (List.mem_append_left _ (List.mem_cons_of_mem _ hk))
    have hdelimiter : m.delimiter ∉ "password=".toList :=
      m.delimiter_of (P := fun c => c ∉ "password=".toList) (by decide) (by decide)
    have hopen (s : List Char) : m.opening ++ s = m.delimiter :: (m.key ++ '"' :: s) := by
      simp [opening]
    rw [List.append_assoc, hopen, hidePassword_append hprior hdelimiter,
      hidePassword_skip hkey (by decide), hrest, List.append_assoc, hopen]

theorem segments_text (s t u : List Char) :
    segments (s ++ (m.opening ++ t ++ '"' :: u)) = segments (s ++ m.delimiter :: m.space) ++
      m.name :: m.colon :: (segments t ++ segments u) := by
  have hname : '"' ∉ m.name := by
    have hnames : ∀ name ∈ properties, '"' ∉ name := by decide
    exact hnames _ m.property
  have hspace : '"' ∉ m.space ++ m.beforeColon ++ m.afterColon :=
    fun h => absurd (m.blank _ h) (by decide)
  have hcolon : '"' ∉ m.colon := by
    simp only [List.mem_append, not_or] at hspace
    simp only [colon, List.mem_append, List.mem_cons, not_or]
    exact ⟨hspace.1.2, by decide, hspace.2⟩
  have htext : s ++ (m.opening ++ t ++ '"' :: u) = s ++ m.delimiter :: m.space ++
      '"' :: (m.name ++ '"' :: (m.colon ++ '"' :: (t ++ '"' :: u))) := by
    simp [opening, key]
  rw [htext, segments_append, segments_cons hname, segments_cons hcolon, segments_append]

theorem delimited (s : List Char) : Delimited (segments (s ++ m.delimiter :: m.space)) := by
  have hspace : '"' ∉ m.space ++ m.beforeColon ++ m.afterColon :=
    fun h => absurd (m.blank _ h) (by decide)
  obtain ⟨hquote, hcolon, hnospace⟩ : m.delimiter ≠ '"' ∧ m.delimiter ≠ ':' ∧
      isSpace m.delimiter = false :=
    m.delimiter_of (P := fun c => c ≠ '"' ∧ c ≠ ':' ∧ isSpace c = false) (by decide) (by decide)
  have hfree : '"' ∉ m.delimiter :: m.space := by
    simp only [List.mem_append, not_or] at hspace
    rw [List.mem_cons, not_or]
    exact ⟨hquote.symm, hspace.1.1⟩
  obtain ⟨segs, x, hsegs⟩ := exists_segments s
  rw [segments_append_free hsegs hfree]
  intro t ht
  rw [List.getLast?_concat] at ht
  cases ht
  rw [Bool.eq_false_iff]
  intro h
  obtain ⟨space, heq, hspaces⟩ := isColon_iff.mp h
  have hmem : m.delimiter ∈ ':' :: space := heq ▸ List.mem_append_right x List.mem_cons_self
  rcases List.mem_cons.mp hmem with hd | hd
  · exact hcolon hd
  · exact Bool.false_ne_true (hnospace.symm.trans (hspaces _ hd))

theorem isColon_colon : isColon m.colon = decide (m.beforeColon = []) := by
  have hspaces : ∀ c, isBlank c = true → isSpace c = true := by
    intro c hc
    simp only [isBlank, isSpace, List.contains_eq_mem, decide_eq_true_eq, List.mem_cons] at hc ⊢
    tauto
  have hblank := m.blank
  rw [colon]
  cases hbefore : m.beforeColon with
  | nil =>
    have hafter : ∀ c ∈ m.afterColon, isSpace c = true := by
      intro c hc
      exact hspaces c (hblank c (List.mem_append_right _ hc))
    exact isColon_iff.mpr ⟨m.afterColon, rfl, hafter⟩
  | cons c s =>
    have hc : isBlank c = true := hblank c (by simp [hbefore])
    refine Bool.eq_false_iff.mpr fun h => ?_
    obtain ⟨space, heq, -⟩ := isColon_iff.mp h
    rw [(List.cons.inj heq).1] at hc
    exact absurd hc (by decide)

theorem colon_property : m.colon ∉ properties := by
  have hnames : ∀ name ∈ properties, ':' ∉ name := by decide
  intro h
  exact hnames _ h (List.mem_append_right _ List.mem_cons_self)

/-- Where the member begins, a match of an earlier property of the same name is not ended: its
opening quote ends it. -/
def spent : Bool :=
  (scan m.name (scanAll (earlier m.name)
    (segments (hidePassword m.prior ++ m.delimiter :: m.space)).tail)).2

/-- What two values must have in common: all that comes after their first quote, if the member is
matched at all. -/
def Hides (value value' : List Char) : Prop :=
  m.Covered ∨ if m.beforeColon = [] ∧ m.spent = false then
    (segments (hidePassword value)).tail = (segments (hidePassword value')).tail
  else hidePassword value = hidePassword value'

theorem sanitize_text (h : ¬m.Covered) : ∃ s₀ as bs, ∀ value, Literal value → m.Contains value →
    segments (sanitize (m.text value)) = s₀ :: (as ++ m.name ::
      (shown (decide (m.beforeColon = []) && !m.spent) m.colon (segments (hidePassword value)) ++
        bs)) := by
  obtain ⟨s₀, as, hbefore⟩ := List.exists_cons_of_ne_nil
    (segments_ne_nil (hidePassword m.prior ++ m.delimiter :: m.space))
  obtain ⟨b, bs, hafter⟩ := List.exists_cons_of_ne_nil (segments_ne_nil (hidePassword m.following))
  have has : Delimited as := (hbefore ▸ m.delimited (hidePassword m.prior)).tail
  have hb : Follows b := (m.trails.hideMidline.hidePassword.segments hafter).follows
  have hhides : hides m.name m.colon (scanAll (earlier m.name) as) =
      (decide (m.beforeColon = []) && !m.spent) := by
    rw [hides, spent, hbefore, isColon_colon, List.tail_cons]
  obtain ⟨as', bs', hmember⟩ := hideAll_member has m.property m.colon_property hb bs
  refine ⟨s₀, as', b :: bs', fun value hvalue hcontains => ?_⟩
  obtain ⟨s, segs, hsegs⟩ := List.exists_cons_of_ne_nil (segments_ne_nil (hidePassword value))
  have hinert : Inert (s :: segs) := hsegs ▸ (hvalue.escaped false).hidePassword.inert
  have htext : segments (hidePassword (hideAuthorization (m.text value))) =
      s₀ :: (as ++ m.name :: m.colon :: (s :: segs ++ b :: bs)) := by
    rw [m.hidePassword_text h hvalue.not_newline hcontains, segments_text, hbefore, hafter, hsegs]
    rfl
  rw [segments_sanitize htext, hmember s segs hinert, hhides, hsegs]

theorem sanitize_eq_iff {value value' : List Char} (h : Literal value) (h' : Literal value')
    (hc : m.Contains value) (hc' : m.Contains value') :
    sanitize (m.text value) = sanitize (m.text value') ↔ m.Hides value value' := by
  by_cases hcovered : m.Covered
  · refine iff_of_true ?_ (.inl hcovered)
    obtain ⟨t, ht⟩ := m.hidePassword_covered hcovered
    rw [sanitize, sanitize, ht value h.not_newline hc, ht value' h'.not_newline hc']
  · obtain ⟨s₀, as, bs, htext⟩ := m.sanitize_text hcovered
    rw [← segments_inj, htext value h hc, htext value' h' hc', Hides, or_iff_right hcovered,
      List.cons_inj_right, List.append_right_inj, List.cons_inj_right, List.append_left_inj,
      shown_inj, segments_inj]
    simp

end Member
end Members

section Places

/-- Where the secret of a dump stands. -/
inductive Place where
  | header (h : Header)
  | form (f : Form)
  | member (m : Member)

namespace Place

/-- The dump with this secret. -/
def text : Place → List Char → List Char
  | .header h, value => h.text value
  | .form f, value => f.text value
  | .member m, value => m.text value

/-- The secrets that can stand there. -/
def Value : Place → List Char → Prop
  | .header _, value => '\n' ∉ value
  | .form _, value => '&' ∉ value ∧ ∀ c ∈ value, isForm c = true
  | .member _, value => Literal value

def Contains : Place → List Char → Prop
  | .header _, _ => True
  | .form _, _ => True
  | .member m, value => m.Contains value

/-- When two secrets give the same output. -/
def Hides : Place → List Char → List Char → Prop
  | .header _, _, _ => True
  | .form f, value, value' => f.after ≠ [] ∨ value = value'
  | .member m, value, value' => m.Hides value value'

end Place

theorem sanitize_hides_iff (p : Place) {value value' : List Char} (h : p.Value value)
    (h' : p.Value value') (hc : p.Contains value) (hc' : p.Contains value') :
    sanitize (p.text value) = sanitize (p.text value') ↔ p.Hides value value' := by
  cases p with
  | header hd =>
    refine iff_of_true ?_ trivial
    simp only [Place.text, sanitize]
    rw [hd.hideAuthorization_text h, hd.hideAuthorization_text h']
  | form f =>
    cases hafter : f.after with
    | nil =>
      simp only [Place.text, Place.Hides, hafter, ne_eq, not_true_eq_false, false_or]
      rw [f.sanitize_last hafter h.2 h.1, f.sanitize_last hafter h'.2 h'.1, List.append_right_inj,
        List.append_left_inj]
    | cons c s =>
      refine iff_of_true ?_ (.inl (by simp [hafter]))
      have hamp : f.after = '&' :: s := by
        rcases f.ends with hnil | hhead
        · rw [hafter] at hnil
          cases hnil
        · rw [hafter] at hhead ⊢
          rw [Option.some.inj hhead]
      simp only [Place.text, sanitize]
      rw [f.sanitize_text hamp h.2 h.1, f.sanitize_text hamp h'.2 h'.1]
  | member m => exact m.sanitize_eq_iff h h' hc hc'

/-- An object with a password and nothing else. -/
def onlyPassword : Member where
  head := []
  line := []
  delimiter := '{'
  space := []
  name := "password".toList
  beforeColon := []
  afterColon := []
  rest := ['}']
  lines := .inl rfl
  inLine := nofun
  noHeader := by decide
  delimits := .inl rfl
  property := by decide
  blank := nofun
  trails := by decide

theorem onlyPassword_contains (value : List Char) : onlyPassword.Contains value := by
  have hclosed : ¬Opened onlyPassword.prior := by
    rintro ⟨x, y, h, -⟩
    have hnil : [] = x ++ 'p' :: "assword=".toList ++ y := h
    simp at hnil
  exact ⟨fun h => absurd h hclosed, fun _ h => absurd h (by decide)⟩

theorem literal_singleton {c : Char} (hc : 32 ≤ c.toNat ∧ c ≠ '"' ∧ c ≠ '\\') : Literal [c] :=
  .plain hc.1 hc.2.1 hc.2.2 .nil

theorem sanitize_hides_only_password :
    sanitize ((Place.member onlyPassword).text ['a']) =
      sanitize ((Place.member onlyPassword).text ['b']) := by
  have hspent : onlyPassword.spent = false := by decide
  refine (sanitize_hides_iff (.member onlyPassword) (literal_singleton (by decide))
    (literal_singleton (by decide)) (onlyPassword_contains _) (onlyPassword_contains _)).mpr ?_
  refine .inr ?_
  rw [if_pos ⟨rfl, hspent⟩]
  decide

/-- A space before the colon. -/
def spacedPassword : Member :=
  { onlyPassword with beforeColon := [' '], blank := List.all_eq_true.mp (by decide) }

/-- A password as the last parameter of a body. -/
def lastParameter : Form where
  head := []
  before := "grant_type=password&".toList
  after := []
  space := []
  lines := .inl rfl
  body := List.all_eq_true.mp (by decide)
  begins := .inr rfl
  ends := .inl rfl
  blank := nofun

theorem sanitize_keeps_secrets :
    ((Place.form lastParameter).Value ['a'] ∧ (Place.form lastParameter).Value ['b'] ∧
      sanitize ((Place.form lastParameter).text ['a']) ≠
        sanitize ((Place.form lastParameter).text ['b'])) ∧
    ((Place.member onlyPassword).Value ['\\', '"', 'a'] ∧
      (Place.member onlyPassword).Value ['\\', '"', 'b'] ∧
      sanitize ((Place.member onlyPassword).text ['\\', '"', 'a']) ≠
        sanitize ((Place.member onlyPassword).text ['\\', '"', 'b'])) ∧
    ((Place.member spacedPassword).Value ['a'] ∧ (Place.member spacedPassword).Value ['b'] ∧
      sanitize ((Place.member spacedPassword).text ['a']) ≠
        sanitize ((Place.member spacedPassword).text ['b'])) := by
  have ha : Literal ['a'] := literal_singleton (by decide)
  have hb : Literal ['b'] := literal_singleton (by decide)
  have hquote {s : List Char} (hs : Literal s) : Literal ('\\' :: '"' :: s) :=
    .escape (by decide) hs
  have hform {c : Char} (hc : isForm c = true) : ∀ d ∈ [c], isForm d = true := by
    intro d hd
    rwa [List.mem_singleton.mp hd]
  refine ⟨⟨⟨by decide, hform (by decide)⟩, ⟨by decide, hform (by decide)⟩, by decide +kernel⟩,
    ⟨hquote ha, hquote hb, by decide +kernel⟩, ⟨ha, hb, by decide +kernel⟩⟩

end Places

end RoutingApi.Trace
