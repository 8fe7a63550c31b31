import RoutingApi.Models.Route
import RoutingApi.Process.Runs

/-! `FetchToken`: the token that is cached, when it is served again, and the calls of UAA that fetch
a new one. Its mutex lets one call in at a time, so a history is a sequence of calls. -/
namespace RoutingApi.UaaClient.TokenFetcher
open Models Process

/-- `oauth2.Token`, with its expiry in nanoseconds. -/
structure OAuthToken where
  accessToken : String := ""
  tokenType : String := ""
  refreshToken : String := ""
  expiry : ℤ
  deriving DecidableEq, Repr

structure Config where
  maxNumberOfRetries : UInt64
  retryInterval : Int64
  expirationBufferInSec : Int64

/-- The clock, by how often it has been read or slept on, and what UAA answers, by how often it has
been asked. -/
structure Outside where
  clock : ℕ → ℤ
  token : ℕ → Option OAuthToken × Option String

/-- `time.Time{}`. -/
def zeroTime : ℤ := -62135596800 * second

/-- The fields that change, and how far the clock and UAA have been used. -/
structure State where
  cachedToken : Option OAuthToken := none
  refetchTokenTime : ℤ := zeroTime
  ticks : ℕ := 0
  asked : ℕ := 0
  deriving DecidableEq

section Code
variable (cfg : Config) (out : Outside)

/-- `Sleep`; how far the clock moves meanwhile is up to the clock. -/
def sleep (_ : Int64) (w : State) : State := { w with ticks := w.ticks + 1 }

/-- Without a cached token the clock is not read. -/
def canReturnCachedToken (w : State) : Bool × State :=
  match w.cachedToken with
  | none => (false, w)
  | some _ => (decide (out.clock w.ticks < w.refetchTokenTime), { w with ticks := w.ticks + 1 })

/-- `-1 * time.Duration(c.expirationBufferInSec) * time.Second`, in `int64`. -/
def expirationBuffer : ℤ := (-1 * cfg.expirationBufferInSec * 1000000000).toInt

def updateCachedToken (token : OAuthToken) (w : State) : State :=
  { w with cachedToken := some token, refetchTokenTime := token.expiry + expirationBuffer cfg }

/-- The loop, with the retries that are left: `maxNumberOfRetries - retryCount`. -/
def tokenLoop (left : ℕ) (w : State) : (Option OAuthToken × Option String) × State :=
  let w' := { w with asked := w.asked + 1 }
  match out.token w.asked, left with
  | (some token, err), _ => ((some token, err), w')
  | (none, err), 0 => ((none, err), w')
  | (none, _), left + 1 => tokenLoop left (sleep cfg.retryInterval w')

/-- The part of `FetchToken` after the cache. -/
def askForToken (w : State) : (Option OAuthToken × Option String) × State :=
  match tokenLoop cfg out cfg.maxNumberOfRetries.toNat w with
  | ((some token, err), w) => ((some token, err), updateCachedToken cfg token w)
  | ((none, err), w) => ((none, err), w)

def fetchToken (forceUpdate : Bool) (w : State) : (Option OAuthToken × Option String) × State :=
  let (cached, w) := if forceUpdate then (false, w) else canReturnCachedToken out w
  if cached then ((w.cachedToken, none), w) else askForToken cfg out w

end Code

section Calls
variable {cfg : Config} {out : Outside} {w : State}

/-- `w'` is `w` after more use of the clock. -/
structure Waited (w w' : State) : Prop where
  cachedToken : w'.cachedToken = w.cachedToken
  refetchTokenTime : w'.refetchTokenTime = w.refetchTokenTime

theorem Waited.refl (w : State) : Waited w w := ⟨rfl, rfl⟩

theorem Waited.trans {w₁ w₂ : State} (h : Waited w w₁) (h' : Waited w₁ w₂) : Waited w w₂ :=
  ⟨h'.cachedToken.trans h.cachedToken, h'.refetchTokenTime.trans h.refetchTokenTime⟩

variable (cfg out)

theorem tokenLoop_some {token : OAuthToken} {err : Option String} (left : ℕ)
    (h : out.token w.asked = (some token, err)) :
    tokenLoop cfg out left w = ((some token, err), { w with asked := w.asked + 1 }) := by
  unfold tokenLoop
  rw [h]

theorem tokenLoop_zero {err : Option String} (h : out.token w.asked = (none, err)) :
    tokenLoop cfg out 0 w = ((none, err), { w with asked := w.asked + 1 }) := by
  unfold tokenLoop
  rw [h]

theorem tokenLoop_succ {err : Option String} (left : ℕ) (h : out.token w.asked = (none, err)) :
    tokenLoop cfg out (left + 1) w =
      tokenLoop cfg out left { w with ticks := w.ticks + 1, asked := w.asked + 1 } := by
  conv_lhs => unfold tokenLoop
  rw [h]
  rfl

/-- The loop asks until a token comes or no retry is left. -/
theorem tokenLoop_spec (left : ℕ) (w : State) : ∃ k ≤ left,
    (∀ n, w.asked ≤ n → n < w.asked + k → (out.token n).1 = none) ∧
    (tokenLoop cfg out left w).1 = out.token (w.asked + k) ∧
    (tokenLoop cfg out left w).2.asked = w.asked + k + 1 ∧
    Waited w (tokenLoop cfg out left w).2 := by
  induction left generalizing w with
  | zero =>
    refine ⟨0, le_rfl, by omega, ?_⟩
    rcases h : out.token w.asked with ⟨_ | token, err⟩
    · rw [tokenLoop_zero cfg out h]
      exact ⟨rfl, rfl, rfl, rfl⟩
    · rw [tokenLoop_some cfg out 0 h]
      exact ⟨rfl, rfl, rfl, rfl⟩
  | succ left ih =>
    rcases h : out.token w.asked with ⟨_ | token, err⟩
    · rw [tokenLoop_succ cfg out left h]
      obtain ⟨k, hk, hnone, hresult, hasked, hwaited⟩ :=
        ih { w with ticks := w.ticks + 1, asked := w.asked + 1 }
      have hshift : w.asked + 1 + k = w.asked + (k + 1) := by omega
      simp only [hshift] at hnone hresult hasked
      refine ⟨k + 1, by omega, fun n hn hlt => ?_, hresult, hasked, hwaited.cachedToken,
        hwaited.refetchTokenTime⟩
      rcases Nat.eq_or_lt_of_le hn with rfl | hn
      · rw [h]
      · exact hnone n hn hlt
    · rw [tokenLoop_some cfg out _ h]
      exact ⟨0, by omega, by omega, h.symm, rfl, rfl, rfl⟩

variable {cfg out}

variable (cfg out w) in
/-- What a call can do: serve the cached token, fetch a token, or fail. -/
inductive Fetched (forceUpdate : Bool) : (Option OAuthToken × Option String) × State → Prop
  | cached (token : OAuthToken) (w' : State) : forceUpdate = false → w.cachedToken = some token →
      out.clock w.ticks < w.refetchTokenTime → Waited w w' → w'.asked = w.asked →
      Fetched forceUpdate ((some token, none), w')
  | fetched (k : ℕ) (token : OAuthToken) (err : Option String) (w' : State) :
      k ≤ cfg.maxNumberOfRetries.toNat →
      (∀ n, w.asked ≤ n → n < w.asked + k → (out.token n).1 = none) →
      out.token (w.asked + k) = (some token, err) → w'.asked = w.asked + k + 1 →
      w'.cachedToken = some token → w'.refetchTokenTime = token.expiry + expirationBuffer cfg →
      Fetched forceUpdate ((some token, err), w')
  | failed (k : ℕ) (err : Option String) (w' : State) : k ≤ cfg.maxNumberOfRetries.toNat →
      (∀ n, w.asked ≤ n → n < w.asked + k + 1 → (out.token n).1 = none) →
      w'.asked = w.asked + k + 1 → Waited w w' → Fetched forceUpdate ((none, err), w')

/-- A call that does not serve the cached token. -/
theorem askForToken_fetched {w₁ : State} {forceUpdate : Bool} (hw : Waited w w₁)
    (hasked : w₁.asked = w.asked) :
    Fetched cfg out w forceUpdate (askForToken cfg out w₁) := by
  unfold askForToken
  obtain ⟨k, hk, hnone, hresult, hcount, hwaited⟩ :=
    tokenLoop_spec cfg out cfg.maxNumberOfRetries.toNat w₁
  rw [hasked] at hnone hresult hcount
  generalize tokenLoop cfg out cfg.maxNumberOfRetries.toNat w₁ = r at hresult hcount hwaited
  obtain ⟨⟨_ | token, err⟩, w₂⟩ := r
  · refine .failed k err w₂ hk (fun n hn hlt => ?_) hcount (hw.trans hwaited)
    rcases Nat.eq_or_lt_of_le (Nat.le_of_lt_succ hlt) with rfl | hlt
    · rw [← hresult]
    · exact hnone n hn hlt
  · exact .fetched k token err _ hk hnone hresult.symm hcount rfl rfl

variable (cfg) in
theorem fetchToken_cached {token : OAuthToken} (htoken : w.cachedToken = some token)
    (hnow : out.clock w.ticks < w.refetchTokenTime) :
    fetchToken cfg out false w = ((some token, none), { w with ticks := w.ticks + 1 }) := by
  simp [fetchToken, canReturnCachedToken, htoken, hnow]

variable (cfg out w) in
theorem fetchToken_fetched (forceUpdate : Bool) :
    Fetched cfg out w forceUpdate (fetchToken cfg out forceUpdate w) := by
  cases forceUpdate with
  | true => exact askForToken_fetched (.refl w) rfl
  | false =>
    cases htoken : w.cachedToken with
    | none =>
      simp only [fetchToken, canReturnCachedToken, htoken]
      exact askForToken_fetched (.refl w) rfl
    | some token =>
      by_cases hnow : out.clock w.ticks < w.refetchTokenTime
      · rw [fetchToken_cached cfg htoken hnow]
        exact .cached token _ rfl htoken hnow ⟨rfl, rfl⟩ rfl
      · have hask : fetchToken cfg out false w =
            askForToken cfg out { w with ticks := w.ticks + 1 } := by
          simp [fetchToken, canReturnCachedToken, htoken, hnow]
        rw [hask]
        exact askForToken_fetched ⟨rfl, rfl⟩ rfl

end Calls

section Laws
variable (cfg : Config) (out : Outside)

/-- The token of the last answer that had one, among the first so many. -/
def lastToken : ℕ → Option OAuthToken
  | 0 => none
  | n + 1 => (out.token n).1.or (lastToken n)

/-- What a call is to do in a state. -/
structure Lawful (w : State) (forceUpdate : Bool) : Prop where
  bounded : (fetchToken cfg out forceUpdate w).2.asked ≤
    w.asked + (cfg.maxNumberOfRetries.toNat + 1)
  stops : ∀ n, w.asked ≤ n → n + 1 < (fetchToken cfg out forceUpdate w).2.asked →
    (out.token n).1 = none
  unasked : ∀ token, (fetchToken cfg out forceUpdate w).1.1 = some token →
    (fetchToken cfg out forceUpdate w).2.asked = w.asked → forceUpdate = false ∧
      out.clock w.ticks < token.expiry - cfg.expirationBufferInSec.toInt * second
  latest : ∀ token, (fetchToken cfg out forceUpdate w).1.1 = some token →
    lastToken out (fetchToken cfg out forceUpdate w).2.asked = some token
  failed : (fetchToken cfg out forceUpdate w).1.1 = none ∨
      (fetchToken cfg out forceUpdate w).1.2 ≠ none →
    (fetchToken cfg out forceUpdate w).2.cachedToken = w.cachedToken ∧
      (fetchToken cfg out forceUpdate w).2.refetchTokenTime = w.refetchTokenTime

/-- UAA answers with a token and no error, or without a token. -/
def Outside.Clean : Prop := ∀ n, (out.token n).1 ≠ none → (out.token n).2 = none

/-- The cached token is the last one, and is refetched at the time that was computed for it. -/
structure Cached (w : State) : Prop where
  latest : lastToken out w.asked = w.cachedToken
  refetch : ∀ token, w.cachedToken = some token →
    w.refetchTokenTime = token.expiry + expirationBuffer cfg

variable {cfg out} {w : State}

theorem lastToken_of_none {n k : ℕ} (h : ∀ i, n ≤ i → i < n + k → (out.token i).1 = none) :
    lastToken out (n + k) = lastToken out n := by
  induction k with
  | zero => rfl
  | succ k ih =>
    rw [← Nat.add_assoc, lastToken, h (n + k) (by omega) (by omega), Option.none_or]
    exact ih fun i hi hlt => h i hi (by omega)

theorem Cached.fetchToken (h : Cached cfg out w) (forceUpdate : Bool) :
    Cached cfg out (fetchToken cfg out forceUpdate w).2 := by
  have hfetched := fetchToken_fetched cfg out w forceUpdate
  generalize TokenFetcher.fetchToken cfg out forceUpdate w = r at hfetched
  cases hfetched with
  | cached token w' _ htoken _ hwaited hasked =>
    refine ⟨?_, ?_⟩
    · rw [hasked, hwaited.cachedToken, h.latest]
    · rw [hwaited.cachedToken, hwaited.refetchTokenTime]
      exact h.refetch
  | fetched k token err w' _ _ htoken hasked hcached hrefetch =>
    refine ⟨?_, fun token' htoken' => ?_⟩
    · rw [hasked, hcached, lastToken, htoken, Option.some_or]
    · rw [hcached] at htoken'
      cases htoken'
      exact hrefetch
  | failed k err w' _ hnone hasked hwaited =>
    refine ⟨?_, ?_⟩
    · rw [hasked, hwaited.cachedToken, Nat.add_assoc, lastToken_of_none hnone, h.latest]
    · rw [hwaited.cachedToken, hwaited.refetchTokenTime]
      exact h.refetch

theorem Cached.lawful (h : Cached cfg out w) (hclean : out.Clean)
    (hbuffer : expirationBuffer cfg ≤ -(cfg.expirationBufferInSec.toInt * second))
    (forceUpdate : Bool) : Lawful cfg out w forceUpdate := by
  have hfetched := fetchToken_fetched cfg out w forceUpdate
  have hcached := h.fetchToken forceUpdate
  generalize hr : TokenFetcher.fetchToken cfg out forceUpdate w = r at hfetched hcached
  cases hfetched with
  | cached token w' hforce htoken hnow hwaited hasked =>
    have hrefetch := h.refetch token htoken
    constructor <;> rw [hr]
    · exact hasked.le.trans (by omega)
    · intro n hn hlt
      have hlt : n + 1 < w'.asked := hlt
      omega
    · intro token' htoken' _
      cases htoken'
      exact ⟨hforce, by omega⟩
    · intro token' htoken'
      cases htoken'
      rw [hcached.latest, hwaited.cachedToken, htoken]
    · rintro (hnone | herr)
      · cases hnone
      · exact absurd rfl herr
  | fetched k token err w' hk hnone htoken hasked hcache hrefetch =>
    constructor <;> rw [hr]
    · exact hasked.le.trans (by omega)
    · intro n hn hlt
      have hlt : n + 1 < w'.asked := hlt
      exact hnone n hn (by omega)
    · intro token' _ hsame
      have hsame : w'.asked = w.asked := hsame
      omega
    · intro token' htoken'
      cases htoken'
      rw [hcached.latest, hcache]
    · rintro (hnone | herr)
      · cases hnone
      · have hclean := hclean (w.asked + k) (by simp [htoken])
        rw [htoken] at hclean
        exact absurd hclean herr
  | failed k err w' hk hnone hasked hwaited =>
    constructor <;> rw [hr]
    · exact hasked.le.trans (by omega)
    · intro n hn hlt
      have hlt : n + 1 < w'.asked := hlt
      exact hnone n hn (by omega)
    · intro token' htoken'
      cases htoken'
    · intro token' htoken'
      cases htoken'
    · exact fun _ => ⟨hwaited.cachedToken, hwaited.refetchTokenTime⟩

theorem expirationBuffer_eq (cfg : Config) : expirationBuffer cfg =
    (-(cfg.expirationBufferInSec.toInt * second)).bmod (2 ^ 64) := by
  have hone : (-1 : Int64).toInt = -1 := by decide
  have hsecond : (1000000000 : Int64).toInt = second := by decide
  rw [expirationBuffer, Int64.toInt_mul, Int64.toInt_mul, Int.bmod_mul_bmod, hone, hsecond]
  congr 1
  ring

/-- The product is too large only if it wraps from below. -/
theorem expirationBuffer_le_iff (cfg : Config) :
    expirationBuffer cfg ≤ -(cfg.expirationBufferInSec.toInt * second) ↔
      cfg.expirationBufferInSec.toInt ≤ 9223372036 := by
  rw [expirationBuffer_eq, second]
  generalize cfg.expirationBufferInSec.toInt = b
  constructor
  · intro h
    have hge : -(((2 ^ 64 : ℕ) : ℤ) / 2) ≤ (-(b * 1000000000)).bmod (2 ^ 64) :=
      Int.le_bmod (by decide)
    omega
  · intro h
    by_cases hfits : -(b * 1000000000) < 2 ^ 63
    · exact (Int.bmod_eq_of_le (by omega) (by omega)).le
    · have hlt : (-(b * 1000000000)).bmod (2 ^ 64) < (((2 ^ 64 : ℕ) : ℤ) + 1) / 2 :=
        Int.bmod_lt (by decide)
      omega

end Laws

section Histories

/-- A call in a history: how the state goes on. -/
def call (cfg : Config) (out : Outside) (w : State) (forceUpdate : Bool) : State :=
  (fetchToken cfg out forceUpdate w).2

theorem Cached.start (cfg : Config) (out : Outside) : Cached cfg out {} :=
  ⟨rfl, nofun⟩

/-- UAA has a token that can be used for the buffer and no longer, and the clock stands still. -/
def standing (buffer : Int64) : Outside where
  clock _ := 0
  token _ := (some { expiry := buffer.toInt * second }, none)

/-- The second of two calls there serves the first one's token, if the time to refetch it wrapped. -/
theorem standing_cached (cfg : Config)
    (h : -(cfg.expirationBufferInSec.toInt * second) < expirationBuffer cfg) :
    let out := standing cfg.expirationBufferInSec
    let w := call cfg out {} false
    ¬Lawful cfg out w false := by
  intro out w hlawful
  have hloop : tokenLoop cfg out cfg.maxNumberOfRetries.toNat {} =
      ((some { expiry := cfg.expirationBufferInSec.toInt * second }, none), { asked := 1 }) :=
    tokenLoop_some cfg out _ rfl
  have hw : w = updateCachedToken cfg { expiry := cfg.expirationBufferInSec.toInt * second }
      { asked := 1 } := by
    show (fetchToken cfg out false {}).2 = _
    simp [fetchToken, canReturnCachedToken, askForToken, hloop]
  have htoken : w.cachedToken = some { expiry := cfg.expirationBufferInSec.toInt * second } := by
    rw [hw]
    rfl
  have hnow : out.clock w.ticks < w.refetchTokenTime := by
    rw [hw]
    show 0 < cfg.expirationBufferInSec.toInt * second + expirationBuffer cfg
    omega
  have hserved := fetchToken_cached cfg htoken hnow
  have hlate := (hlawful.unasked _ (by rw [hserved]) (by rw [hserved])).2
  simp [out, standing] at hlate

end Histories

/-- Histories of calls of one fetcher, whatever its settings: UAA is asked at most once more than
there may be retries and not again after a token, a token is served without asking only if that was
not forbidden and its expiry is farther away than the buffer, it is always the last one, and a call
that fails leaves the cache alone. All this holds of every history exactly if the buffer does not
overflow. -/
theorem token_cache_iff (cfg : Config) :
    (∀ (out : Outside) (flags : List Bool), out.Clean → Monotone out.clock →
      Meets (call cfg out) (Lawful cfg out) {} flags) ↔
      cfg.expirationBufferInSec.toInt ≤ 9223372036 := by
  rw [← expirationBuffer_le_iff]
  constructor
  · intro h
    by_contra hlt
    have hrun := h (standing cfg.expirationBufferInSec) [false, false] (fun _ _ => rfl)
      monotone_const
    exact standing_cached cfg (not_le.mp hlt) hrun.2.1
  · intro hbuffer out flags hclean _
    exact meets_of_meets (fun _ b h _ => h.fetchToken b) (fun _ b h _ => h.lawful hclean hbuffer b)
      (Cached.start cfg out) (meets_of_forall (P := fun _ => True) fun _ _ => trivial)

/-- A fetcher with one retry and the given buffer. -/
def withBuffer (buffer : Int64) : Config := ⟨1, 15000000000, buffer⟩

/-- The first answer has no token; the others expire after a minute and after an hour. The clock
shows 20 s, and 40 s from the third look on. -/
def slowStart : Outside where
  clock n := if n < 2 then 20 * second else 40 * second
  token
    | 0 => (none, some "unreachable")
    | 1 => (some { accessToken := "first", expiry := 60 * second }, none)
    | _ => (some { accessToken := "second", expiry := 3600 * second }, none)

/-- With a buffer of 30 s the first token is served at 20 s and no longer at 40 s. -/
theorem token_cache_thirty_seconds :
    let cfg := withBuffer 30
    let w₁ := call cfg slowStart {} false
    let w₂ := call cfg slowStart w₁ false
    w₁.asked = 2 ∧ w₂.asked = 2 ∧ (call cfg slowStart w₂ false).asked = 3 ∧
      Meets (call cfg slowStart) (Lawful cfg slowStart) {} [false, false, false] := by
  refine ⟨by decide, by decide, by decide, (token_cache_iff (withBuffer 30)).mpr (by decide) _ _ ?_ ?_⟩
  · intro n hn
    match n with
    | 0 => exact absurd rfl hn
    | 1 => rfl
    | _ + 2 => rfl
  · intro m n hmn
    simp only [slowStart, second]
    split_ifs <;> omega

/-- A minute's token two minutes later. -/
def expired : Outside where
  clock _ := 120 * second
  token _ := (some { expiry := 60 * second }, none)

/-- With a buffer of 9223372037 s the time to refetch wraps into the future, and the token is served
after its expiry. -/
theorem buffer_overflow_serves_expired :
    let cfg := withBuffer 9223372037
    let w := call cfg expired {} false
    fetchToken cfg expired false w =
        ((some { expiry := 60 * second }, none), { w with ticks := w.ticks + 1 }) ∧
      60 * second < expired.clock w.ticks ∧ ¬Lawful cfg expired w false := by
  intro cfg w
  have hserved : fetchToken cfg expired false w =
      ((some { expiry := 60 * second }, none), { w with ticks := w.ticks + 1 }) := by decide
  refine ⟨hserved, by decide, fun h => ?_⟩
  have hlate := (h.unasked _ (by rw [hserved]) (by rw [hserved])).2
  exact absurd hlate (by decide)

end RoutingApi.UaaClient.TokenFetcher
