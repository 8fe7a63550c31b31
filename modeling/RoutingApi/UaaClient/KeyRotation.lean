import RoutingApi.Process.Traces
import RoutingApi.UaaClient.TokenValidator

/-! Key rotation: UAA changes its key while calls of one validator run concurrently and share the
cached key. A token signed with the new key is accepted exactly when the key that was cached
before can be used at all and its dates pass the check of the library. -/
namespace RoutingApi.UaaClient
open Process Program Jwt

/-- What happens outside the validator: UAA answers otherwise for its key, and time passes. -/
inductive Act where
  | rotate (answer : Except String String)
  | clock (now : ℤ)

def act : Act → World → World
  | .rotate answer, w => { w with serving := answer }
  | .clock now, w => { w with now := now }

/-- Concurrent calls of one validator. -/
def calls {Block Key ι : Type} (c : Codec Block Key) (issuer : String) (headers : ι → String)
    (desired : ι → List String) (w : World) : Pool Call Call.Resp Fault Unit World ι :=
  ⟨w, fun i => validateToken c issuer (headers i) (desired i)⟩

/-- How many keys are fetched. -/
def fetches (tr : List (Exchange Call Call.Resp)) : ℕ := tr.countP fun x => x.1 = .tokenKey

section CheckedKeys
variable {Block Key : Type} {c : Codec Block Key} {issuer : String}

/-- The cached key has passed its check. -/
def Checked (c : Codec Block Key) (w : World) : Prop := checkPublicKey c w.uaaPublicKey = .ok ()

/-- A key is cached only once it has passed the check. -/
def Careful (c : Codec Block Key) : Call → Prop
  | .setUaaPublicKey key => checkPublicKey c key = .ok ()
  | _ => True

theorem checked_newTokenValidator {devMode : Bool} {api : Except String Unit}
    {iss key : Except String String} {cached : String}
    (h : newTokenValidator c devMode api iss key = .ok (.validator issuer cached)) :
    checkPublicKey c cached = .ok () := by
  unfold newTokenValidator at h
  split at h
  next => cases h
  next =>
    obtain ⟨_, -, h⟩ := bind_ok h
    obtain ⟨_, -, h⟩ := bind_ok h
    obtain ⟨_, -, h⟩ := bind_ok h
    obtain ⟨_, hcheck, h⟩ := bind_ok h
    cases h
    exact hcheck

theorem checkPublicKey_ne_empty {key : String} (h : checkPublicKey c key = .ok ()) : key ≠ "" := by
  rintro rfl
  rw [checkPublicKey, c.pemDecode_empty] at h
  cases h

theorem only_getUaaTokenKey (force : Bool) : (getUaaTokenKey c force).Only (Careful c) := by
  simp only [getUaaTokenKey, perform_bind]
  refine ⟨trivial, fun cached => ?_⟩
  beta_reduce
  split
  next =>
    refine ⟨trivial, fun answer => Only.bind (only_ofExcept _) fun key => ?_⟩
    cases hkey : checkPublicKey c key with
    | error err => trivial
    | ok u => exact ⟨hkey, fun _ => trivial⟩
  next => exact ⟨trivial, fun _ => trivial⟩

theorem only_parse (key : String) (jwt : List Char) : (parse c issuer key jwt).Only (Careful c) := by
  unfold parse
  split
  · trivial
  · exact ⟨trivial, fun _ => trivial⟩

theorem only_rounds (jwt : List Char) (n : ℕ) (force : Bool)
    (last : Option Token × Option ValidationError) :
    (rounds c issuer jwt n force last).Only (Careful c) := by
  induction n generalizing force last with
  | zero => trivial
  | succ n ih =>
    refine (only_getUaaTokenKey force).bind fun key => (only_parse key jwt).bind fun last => ?_
    split
    · trivial
    · exact ih true last

theorem only_validateToken (header : String) (desired : List String) :
    (validateToken c issuer header desired).Only (Careful c) := by
  refine (only_ofExcept _).bind fun jwt => (only_rounds jwt 2 false _).bind fun last => ?_
  split
  · trivial
  · trivial
  · refine (only_ofExcept _).bind fun permissions => ?_
    split <;> trivial

end CheckedKeys

section Acceptance
variable {Block Key : Type} {c : Codec Block Key} {issuer header K key : String}
variable {desired : List String} {jwt : List Char} {token : Token}

/-- A bearer token of the issuer with an allowed algorithm and a desired permission, signed with
the private key of the RSA key `K`. -/
structure SignedWith (c : Codec Block Key) (issuer header : String) (desired : List String)
    (K : String) (token : Token) : Prop where
  bearer : ∃ jwt, Bearer header jwt ∧ parseUnverified c jwt = .ok token
  algorithm : token.method ∈ [.rs256, .rs384, .rs512]
  issued : token.claims "iss" = some (.str issuer)
  granted : ∃ permissions : List String, token.claims "scope" = some (.arr (permissions.map .str)) ∧
    ∃ d ∈ permissions, d ∈ desired
  signed : ∃ pub, parseRSAPublicKeyFromPEM c K = .ok pub ∧
    c.verify token.method token.signingString token.signature pub = .ok ()

/-- The key is an RSA key, and there is an issuer to compare with. -/
def Usable (c : Codec Block Key) (issuer key : String) : Prop :=
  issuer ≠ "" ∧ ∃ pub, parseRSAPublicKeyFromPEM c key = .ok pub

/-- What a call finds at each of its steps. -/
structure Ready (c : Codec Block Key) (K : String) (w : World) : Prop where
  checked : Checked c w
  serving : w.serving = .ok K

theorem keyFunc_eq (halg : token.method ∈ [.rs256, .rs384, .rs512])
    (hiss : token.claims "iss" = some (.str issuer)) :
    keyFunc c issuer key token =
      if issuer = "" then .error "invalid issuer" else parseRSAPublicKeyFromPEM c key := by
  have hmethod : isValidSigningMethod token = true := isValidSigningMethod_iff.mpr halg
  have hissuer : isValidIssuer issuer token = true ↔ issuer ≠ "" := by
    rw [isValidIssuer, MapClaims.verifyIssuer_required]
    exact and_iff_left hiss
  unfold keyFunc
  rw [hmethod]
  by_cases hempty : issuer = ""
  · have hinvalid : isValidIssuer issuer token = false := by
      rw [← Bool.not_eq_true, hissuer]
      exact not_not_intro hempty
    simp [hempty ▸ hinvalid, hempty]
  · simp [hissuer.mpr hempty, hempty]

/-- With a key that can be used, only the signature can fail. -/
theorem parseVerified_usable (htoken : SignedWith c issuer header desired K token)
    (hparse : parseUnverified c jwt = .ok token) (hkey : Usable c issuer key) :
    parseVerified c (keyFunc c issuer key) jwt = .ok token ∨
      ∃ msg, parseVerified c (keyFunc c issuer key) jwt =
        .error ⟨validationErrorSignatureInvalid, msg⟩ := by
  obtain ⟨hissuer, pub, hpub⟩ := hkey
  simp only [parseVerified, hparse, keyFunc_eq htoken.algorithm htoken.issued, if_neg hissuer,
    hpub]
  cases c.verify token.method token.signingString token.signature pub with
  | ok u => exact .inl rfl
  | error msg => exact .inr ⟨msg, rfl⟩

theorem parseVerified_signed (htoken : SignedWith c issuer header desired K token)
    (hparse : parseUnverified c jwt = .ok token) (hissuer : issuer ≠ "") :
    parseVerified c (keyFunc c issuer K) jwt = .ok token := by
  obtain ⟨pub, hpub, hsigned⟩ := htoken.signed
  simp only [parseVerified, hparse, keyFunc_eq htoken.algorithm htoken.issued, if_neg hissuer,
    hpub, hsigned]

theorem parseVerified_not_usable (htoken : SignedWith c issuer header desired K token)
    (hparse : parseUnverified c jwt = .ok token) (hkey : ¬Usable c issuer key) :
    ∃ msg, parseVerified c (keyFunc c issuer key) jwt =
      .error ⟨validationErrorUnverifiable, msg⟩ := by
  simp only [parseVerified, hparse, keyFunc_eq htoken.algorithm htoken.issued]
  by_cases hissuer : issuer = ""
  · rw [if_pos hissuer]
    exact ⟨_, rfl⟩
  · rw [if_neg hissuer]
    cases hpub : parseRSAPublicKeyFromPEM c key with
    | error msg => exact ⟨msg, rfl⟩
    | ok pub => exact absurd ⟨hissuer, pub, hpub⟩ hkey

/-- A cached key is never empty, so that nothing is fetched without need. -/
theorem ensures_cached : (getUaaTokenKey c false).Ensures handler (Ready c K) fun tr r =>
    ∃ first cached, tr = [⟨.uaaPublicKey, first⟩, ⟨.uaaPublicKey, cached⟩] ∧ r = .ok cached := by
  simp only [getUaaTokenKey, perform_bind]
  intro w hw
  have hne : w.uaaPublicKey ≠ "" := checkPublicKey_ne_empty hw.checked
  have hcached : ¬((handler .uaaPublicKey w).1 = "" ∨ false = true) := by simpa [handler] using hne
  simp only [if_neg hcached]
  intro w' _
  exact ⟨_, _, rfl, rfl⟩

theorem ensures_fetched (hK : checkPublicKey c K = .ok ()) :
    (getUaaTokenKey c true).Ensures handler (Ready c K) fun tr r =>
      tr.length = 3 ∧ fetches tr = 1 ∧ (∀ x ∈ tr, x.1 ≠ .timeNow) ∧ r = .ok K := by
  simp only [getUaaTokenKey, perform_bind]
  intro w _
  simp only [or_true, if_true]
  intro w hw
  simp only [handler, hw.serving, Except.mapError, ofExcept_ok, ret_bind, hK]
  intro w _
  exact ⟨rfl, rfl, by simp, rfl⟩

/-- The loop has ended with a token whose dates were checked at this clock. -/
def Checks (token : Token) (now : ℤ) (last : Option Token × Option ValidationError) : Prop :=
  last.1 = some token ∧ (last.2 = none ↔ Tolerated token.claims now)

/-- A verified token ends the loop, and its dates decide. -/
theorem ensures_parse (hverified : parseVerified c (keyFunc c issuer key) jwt = .ok token) :
    (parse c issuer key jwt).Ensures handler (Ready c K) fun tr r =>
      ∃ now last last', tr = [⟨.timeNow, now⟩] ∧ r = .ok last ∧ leaveLoop last = some last' ∧
        Checks token now last' := by
  simp only [parse, hverified, perform_bind]
  intro w _
  obtain ⟨err, hleave, htolerated⟩ := leaveLoop_verified token w.now
  exact ⟨w.now, _, _, rfl, rfl, hleave, rfl, htolerated⟩

/-- The second round fetches the key of the signature. -/
theorem ensures_refetched (hK : checkPublicKey c K = .ok ())
    (hverified : parseVerified c (keyFunc c issuer K) jwt = .ok token)
    (last : Option Token × Option ValidationError) :
    (rounds c issuer jwt 1 true last).Ensures handler (Ready c K) fun tr r =>
      ∃ fetched now last', tr = fetched ++ [⟨.timeNow, now⟩] ∧ fetched.length = 3 ∧
        fetches fetched = 1 ∧ (∀ x ∈ fetched, x.1 ≠ .timeNow) ∧ r = .ok last' ∧
        Checks token now last' := by
  apply Ensures.bind
  refine (ensures_fetched hK).mono ?_
  rintro tr r ⟨hlen, hfetches, htime, rfl⟩
  apply Ensures.bind
  refine (ensures_parse hverified).mono ?_
  rintro tr' r ⟨now, last, last', rfl, rfl, hleave, hchecks⟩
  simp only [hleave]
  exact ⟨tr, now, last', by simp, hlen, hfetches, htime, rfl, hchecks⟩

theorem checkPublicKey_of_rsa {pub : Key} (h : parseRSAPublicKeyFromPEM c key = .ok pub) :
    checkPublicKey c key = .ok () := by
  unfold parseRSAPublicKeyFromPEM at h
  unfold checkPublicKey
  cases hblock : c.pemDecode key with
  | none =>
    rw [hblock] at h
    cases h
  | some block => rfl

/-- What a call has done: it has read the cached key, and that key decides, with the dates at the
clock that the call has read. -/
def Decided (c : Codec Block Key) (issuer : String) (m : MapClaims) (accepted : Prop)
    (tr : List (Exchange Call Call.Resp)) : Prop :=
  ∃ first cached rest, tr = ⟨.uaaPublicKey, first⟩ :: ⟨.uaaPublicKey, cached⟩ :: rest ∧
    rest.length ≤ 4 ∧ fetches rest ≤ 1 ∧
    (accepted ↔ Usable c issuer cached ∧ ∀ now, ⟨.timeNow, now⟩ ∈ rest → Tolerated m now)

/-- How the loop ends for a token of the served key. -/
def Ends (c : Codec Block Key) (issuer : String) (token : Token)
    (tr : List (Exchange Call Call.Resp))
    (r : Except Fault (Option Token × Option ValidationError)) : Prop :=
  ∃ t err, r = .ok (t, err) ∧ (err = none → t = some token) ∧
    Decided c issuer token.claims (err = none) tr

/-- The clock is read once, after the keys. -/
theorem Checks.ends {now : ℤ} {cached : String} {tr : List (Exchange Call Call.Resp)}
    {last : Option Token × Option ValidationError} (hlast : Checks token now last)
    (husable : Usable c issuer cached) (first : String) (before : List (Exchange Call Call.Resp))
    (hlen : before.length ≤ 3) (hfetches : fetches before ≤ 1)
    (htime : ∀ x ∈ before, x.1 ≠ .timeNow)
    (htr : tr = ⟨.uaaPublicKey, first⟩ :: ⟨.uaaPublicKey, cached⟩ :: (before ++ [⟨.timeNow, now⟩])) :
    Ends c issuer token tr (.ok last) := by
  obtain ⟨t, err⟩ := last
  obtain ⟨rfl, herr⟩ := hlast
  refine ⟨_, err, rfl, fun _ => rfl, first, cached, _, htr, ?_, ?_, ?_⟩
  · simpa using Nat.lt_succ_of_le hlen
  · simpa [fetches] using hfetches
  · rw [herr, and_iff_right husable]
    constructor
    · intro htolerated now' hmem
      rcases List.mem_append.mp hmem with hbefore | hread
      · exact absurd rfl (htime _ hbefore)
      · cases List.mem_singleton.mp hread
        exact htolerated
    · exact fun h => h now (by simp)

theorem ensures_rounds (htoken : SignedWith c issuer header desired K token)
    (hparse : parseUnverified c jwt = .ok token) :
    (rounds c issuer jwt 2 false (none, none)).Ensures handler (Ready c K)
      (Ends c issuer token) := by
  apply Ensures.bind
  refine ensures_cached.mono ?_
  rintro tr r ⟨first, cached, rfl, rfl⟩
  apply Ensures.bind
  by_cases husable : Usable c issuer cached
  · rcases parseVerified_usable htoken hparse husable with hverified | ⟨msg, hfailed⟩
    · refine (ensures_parse hverified).mono ?_
      rintro tr r ⟨now, last, last', rfl, rfl, hleave, hchecks⟩
      simp only [hleave]
      exact hchecks.ends husable first [] (by simp) (by simp [fetches]) (by simp) rfl
    · -- the signature fails under the cached key, which has been replaced
      obtain ⟨pub, hpub, -⟩ := htoken.signed
      have hverified := parseVerified_signed htoken hparse husable.1
      have hleave : leaveLoop (none, some ⟨validationErrorSignatureInvalid, msg⟩) = none :=
        leaveLoop_signature rfl
      simp only [parse, hfailed, pure_def, ensures_ret, hleave]
      refine (ensures_refetched (checkPublicKey_of_rsa hpub) hverified _).mono ?_
      rintro tr r ⟨fetched, now, last, rfl, hlen, hfetches, htime, rfl, hchecks⟩
      exact hchecks.ends husable first fetched hlen.le hfetches.le htime (by simp)
  · obtain ⟨msg, hfailed⟩ := parseVerified_not_usable htoken hparse husable
    have hleave : leaveLoop (none, some ⟨validationErrorUnverifiable, msg⟩) =
        some (none, some ⟨validationErrorUnverifiable, msg⟩) := leaveLoop_fatal (.inr rfl)
    simp only [parse, hfailed, pure_def, ensures_ret, hleave]
    refine ⟨_, _, rfl, by simp, first, cached, [], rfl, by simp, by simp [fetches], ?_⟩
    exact iff_of_false (Option.some_ne_none _) fun h => husable h.1

theorem ensures_validateToken (htoken : SignedWith c issuer header desired K token) :
    (validateToken c issuer header desired).Ensures handler (Ready c K) fun tr r =>
      Decided c issuer token.claims (r = .ok ()) tr := by
  obtain ⟨jwt, hbearer, hparse⟩ := htoken.bearer
  simp only [validateToken, checkTokenFormat_ok.mpr hbearer, Except.mapError, ofExcept_ok, ret_bind]
  apply Ensures.bind
  refine (ensures_rounds htoken hparse).mono ?_
  rintro tr r ⟨t, err, rfl, hfound, first, cached, rest, rfl, hlen, hfetches, hdecided⟩
  cases err with
  | some err =>
    refine ⟨first, cached, rest, by simp, hlen, hfetches, ?_⟩
    exact iff_of_false nofun fun h => absurd (hdecided.mpr h) (Option.some_ne_none err)
  | none =>
    obtain ⟨permissions, hscope, d, hd, hdesired⟩ := htoken.granted
    have hany : (permissions.any fun permission => desired.contains permission) = true :=
      List.any_eq_true.mpr ⟨d, hd, List.contains_iff_mem.mpr hdesired⟩
    simp only [hfound rfl, extractPermissionsFromToken_ok.mpr hscope, ofExcept_ok, ret_bind, hany,
      if_true]
    exact ⟨first, cached, rest, by simp, hlen, hfetches, iff_of_true rfl (hdecided.mp rfl)⟩

end Acceptance

section Rotation
variable {Block Key ι : Type} [DecidableEq ι] {c : Codec Block Key} {issuer K : String}
variable {headers : ι → String} {desired : ι → List String} {i : ι} {token : Token} {w : World}
variable {P : Pool Call Call.Resp Fault Unit World ι}

/-- A step of the call finds the key served. -/
def Current (K : String) (i : ι) (P : Pool Call Call.Resp Fault Unit World ι)
    (mv : Move Act ι) : Prop :=
  mv = .step i → P.world.serving = .ok K

omit [DecidableEq ι] in
theorem kept_calls (hw : Checked c w) :
    (calls c issuer headers desired w).Kept (Checked c) (Careful c) :=
  ⟨hw, fun i => only_validateToken (headers i) (desired i)⟩

/-- Every key in the cache has passed the check, whatever the calls do. -/
theorem checked_move (P : Pool Call Call.Resp Fault Unit World ι) (mv : Move Act ι)
    (hP : P.Kept (Checked c) (Careful c)) :
    (P.move handler act mv).Kept (Checked c) (Careful c) := by
  apply Pool.kept_move ?_ ?_ P mv hP
  · rintro (_ | key | _ | _) w hcareful hw
    · exact hw
    · exact hcareful
    · exact hw
    · exact hw
  · rintro (answer | now) w hw
    · exact hw
    · exact hw

/-- After a rotation, with any history of keys and of other calls before and meanwhile, a call
with a token of the served key ends after at most one fetch. It accepts exactly when the cached
key that it has read can be used and the dates pass at the clock that it has read. -/
theorem validateToken_after_rotation_iff (c : Codec Block Key) {devMode : Bool}
    {api : Except String Unit} {iss key : Except String String}
    (hnew : newTokenValidator c devMode api iss key = .ok (.validator issuer w.uaaPublicKey))
    (headers : ι → String) (desired : ι → List String) (ms : List (Move Act ι))
    (htoken : SignedWith c issuer (headers i) (desired i) K token)
    (hcurrent : Meets (Pool.move handler act) (Current K i)
      (calls c issuer headers desired w) ms)
    (hsteps : 6 ≤ Pool.steps i ms) :
    ∃ r first cached rest,
      ((play (Pool.move handler act) (calls c issuer headers desired w) ms).threads i).result? =
        some r ∧
      (calls c issuer headers desired w).journal handler act i ms =
        ⟨.uaaPublicKey, first⟩ :: ⟨.uaaPublicKey, cached⟩ :: rest ∧
      fetches ((calls c issuer headers desired w).journal handler act i ms) ≤ 1 ∧
      (r = .ok () ↔ Usable c issuer cached ∧
        ∀ now, ⟨.timeNow, now⟩ ∈ rest → Tolerated token.claims now) := by
  have hready : Meets (Pool.move handler act) (fun P mv => mv = .step i → Ready c K P.world)
      (calls c issuer headers desired w) ms := by
    refine meets_of_meets (fun P mv hP _ => checked_move P mv hP) ?_
      (kept_calls (checked_newTokenValidator hnew)) hcurrent
    intro P mv hP hmv hstep
    exact ⟨hP.world, hmv hstep⟩
  have hensures : ((calls c issuer headers desired w).threads i).Ensures handler
      (Ready c K) fun tr r => Decided c issuer token.claims (r = .ok ()) tr :=
    ensures_validateToken htoken
  obtain ⟨w', hw'⟩ := Pool.exists_of_steps hready (by omega)
  have hshort : ((calls c issuer headers desired w).threads i).Ensures handler
      (Ready c K) fun tr _ => tr.length ≤ 6 := by
    refine hensures.mono ?_
    rintro tr r ⟨first, cached, rest, rfl, hlen, -⟩
    simp only [List.length_cons]
    omega
  obtain ⟨r, hend⟩ := Pool.ends_of_ensures hw' hshort hready hsteps
  obtain ⟨first, cached, rest, hjournal, -, hfetches, hdecided⟩ :=
    Pool.journal_of_ensures hensures hready hend
  refine ⟨r, first, cached, rest, hend, hjournal, ?_, hdecided⟩
  rw [hjournal]
  simpa [fetches] using hfetches

/-- A step of a call leaves UAA alone. -/
theorem advance_serving (p : ValidatorM Unit) (w : World) :
    (p.advance handler w).2.serving = w.serving := by
  rcases p with a | e | ⟨call, next⟩
  · rfl
  · rfl
  · cases call <;> rfl

theorem current_steps (hserving : P.world.serving = .ok K) (n : ℕ) :
    Meets (Pool.move handler act) (Current K i) P (List.replicate n (.step i)) := by
  induction n generalizing P with
  | zero => trivial
  | succ n ih =>
    exact ⟨fun _ => hserving, ih ((advance_serving (P.threads i) P.world).trans hserving)⟩

theorem current_rotated (P : Pool Call Call.Resp Fault Unit World ι) (n : ℕ) :
    Meets (Pool.move handler act) (Current K i) P
      (.env (.rotate (.ok K)) :: List.replicate n (.step i)) :=
  ⟨nofun, current_steps (P := P.move handler act (.env (.rotate (.ok K)))) rfl n⟩

/-- A token that expires at `exp`, signed with the new key. -/
def sampleToken (exp : ℚ) : Token :=
  ⟨.rs256, sampleClaims [("exp", exp)], "h.c".toList, "k2".toList⟩

theorem sample_signedWith (exp : ℚ) : SignedWith (sampleCodec [("exp", exp)]) "uaa"
    "bearer h.c.k2" ["routing.routes.read"] "k2" (sampleToken exp) where
  bearer := ⟨"h.c.k2".toList, checkTokenFormat_ok.mp (by decide), rfl⟩
  algorithm := List.mem_cons_self
  issued := rfl
  granted := ⟨["routing.routes.read"], rfl, "routing.routes.read", by decide, by decide⟩
  signed := ⟨"k2", rfl, rfl⟩

theorem sample_timely {exp : ℚ} {now : ℤ} (h : now < exp) : Timely (sampleToken exp).claims now := by
  have hexp : (sampleToken exp).claims "exp" = some (.num exp) := rfl
  have hnbf : (sampleToken exp).claims "nbf" = none := rfl
  refine ⟨(MapClaims.dated_num hexp).mpr h, ?_⟩
  intro v hv
  rw [hnbf] at hv
  cases hv

/-- UAA goes from one RSA key to another. -/
theorem validateToken_after_rotation_sample :
    let c := sampleCodec [("exp", 2000)]
    let P := calls c "uaa" (fun _ : Unit => "bearer h.c.k2") (fun _ => ["routing.routes.read"])
      ⟨"k1", .ok "k1", 1000⟩
    let ms : List (Move Act Unit) := .env (.rotate (.ok "k2")) :: List.replicate 6 (.step ())
    newTokenValidator c false (.ok ()) (.ok "uaa") (.ok "k1") = .ok (.validator "uaa" "k1") ∧
      ∃ r first cached rest, ((play (Pool.move handler act) P ms).threads ()).result? = some r ∧
        P.journal handler act () ms =
          ⟨.uaaPublicKey, first⟩ :: ⟨.uaaPublicKey, cached⟩ :: rest ∧
        fetches (P.journal handler act () ms) ≤ 1 ∧
        (r = .ok () ↔ Usable c "uaa" cached ∧
          ∀ now, ⟨.timeNow, now⟩ ∈ rest → Tolerated (sampleToken 2000).claims now) := by
  intro c P ms
  have hnew : newTokenValidator c false (.ok ()) (.ok "uaa") (.ok "k1") =
      .ok (.validator "uaa" "k1") := rfl
  exact ⟨hnew, validateToken_after_rotation_iff c hnew _ _ ms (sample_signedWith 2000)
    (current_rotated P 6) (by decide)⟩

/-- A call at second 1000 with a token of the key that UAA serves now, after a start with the key
`first`, and what it returns. -/
def Refuses (exp : ℚ) (first : String) (fetched : ℕ) (err : String) : Prop :=
  let c := sampleCodec [("exp", exp)]
  let P := calls c "uaa" (fun _ : Unit => "bearer h.c.k2") (fun _ => ["routing.routes.read"])
    ⟨first, .ok first, 1000⟩
  let ms : List (Move Act Unit) := .env (.rotate (.ok "k2")) :: List.replicate 6 (.step ())
  newTokenValidator c false (.ok ()) (.ok "uaa") (.ok first) = .ok (.validator "uaa" first) ∧
    SignedWith c "uaa" "bearer h.c.k2" ["routing.routes.read"] "k2" (sampleToken exp) ∧
    Timely (sampleToken exp).claims 1000 ∧ Meets (Pool.move handler act) (Current "k2" ()) P ms ∧
    ((play (Pool.move handler act) P ms).threads ()).result? = some (.error (.returned err)) ∧
    fetches (P.journal handler act () ms) = fetched

/-- The validator was started while UAA served a key that is not an RSA key: a token signed with
the RSA key that UAA serves now is rejected, and the key is not fetched. With an RSA key in the
cache, a token that expires within the running second is rejected. -/
theorem validateToken_after_rotation_stuck :
    Refuses 2000 "ec" 0 "key is not a valid RSA public key" ∧
      Refuses (2001 / 2) "k1" 1 "Token is expired" := by
  constructor
  · refine ⟨rfl, sample_signedWith 2000, sample_timely (by norm_num), current_rotated _ 6, ?_⟩
    decide +kernel
  · refine ⟨rfl, sample_signedWith (2001 / 2), sample_timely (by norm_num), current_rotated _ 6, ?_⟩
    decide +kernel

end Rotation
end RoutingApi.UaaClient
