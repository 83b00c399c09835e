import Picroom.Auth.Oidc
import Picroom.Session.Login
import Picroom.Transition.Run

/-!
# The state of an OIDC login

`oidc_login` signs a state and a nonce into a cookie; `oidc_callback` takes the pair from a cookie
it can verify, compares the state with the query and has the id token checked for the nonce.
Browsers present any cookie and any query, providers answer what they like; only a token that was
signed before verifies.

The cookie does not say which provider it was issued for.
-/

namespace Picroom.OidcFlow

open Transition

structure ProviderConfig where
  issuer : String
  clientId : String
  insecureSkipVerify : Bool

structure Config where
  jwt : JwtService
  providers : String → Option ProviderConfig

/-- A pair that `oidc_login` handed out. -/
structure Login where
  provider : String
  state : String
  nonce : String
  time : Instant

/-- A callback that got past the state check, with the claims it then accepted. -/
structure Passage where
  provider : String
  state : String
  nonce : String
  time : Instant
  accepted : Option IdTokenClaims

/-- The state cookie of a request: a token the service signed, or anything else. -/
inductive Cookie where
  | missing
  | signed (claims : JwtClaims)
  | other

/-- A token that verifies was signed before. -/
def Cookie.genuine (tokens : List JwtClaims) : Cookie → Bool
  | .signed claims => decide (claims ∈ tokens)
  | .missing | .other => true

/-- What discovery and the token endpoint return during a callback. -/
structure ProviderAnswer where
  jwks : Except OidcError Jwks
  idToken : Except OidcError String

structure State where
  now : Instant
  tokens : List JwtClaims
  logins : List Login
  passages : List Passage

def State.start (now : Instant) : State := ⟨now, [], [], []⟩

inductive Action where
  | login (provider : String) (limited discovered : Bool) (stateValue nonce : String)
  | session (account : CheckedAccount) (sid : Uuid)
  | callback (provider : String) (cookie : Cookie) (stateParam : String) (answer : ProviderAnswer)
  | advance (nanoseconds : Nat)

def oidcStateAudience : String := "oidc-state"

/-- `unix_timestamp`. -/
def unixTimestamp (now : Instant) : Int := now / seconds 1

/-- `issue_oidc_state`. -/
def issueOidcState (jwt : JwtService) (stateValue nonce : String) (now : Instant) : JwtClaims :=
  { sub := stateValue, iss := jwt.issuer, aud := oidcStateAudience, iat := unixTimestamp now,
    exp := unixTimestamp now + 600, scopes := [], nonce := some nonce, sid := none }

/-- Default leeway of `jsonwebtoken`, in seconds. -/
def leeway : Int := 60

/-- `verify_oidc_state`. -/
def verifyOidcState (jwt : JwtService) (now : Instant) (claims : JwtClaims) :
    Except JwtError (String × String) :=
  if claims.exp < unixTimestamp now - leeway then .error .expired
  else if claims.iss ≠ jwt.issuer then .error (.decode "InvalidIssuer")
  else if claims.aud ≠ oidcStateAudience then .error (.decode "InvalidAudience")
  else match claims.nonce with
    | none => .error (.decode "missing nonce")
    | some nonce => .ok (claims.sub, nonce)

/-- `oidc_callback`, step 1: the pair of the cookie, when the query carries its state. -/
def checkState (config : Config) (now : Instant) (provider : String) (cookie : Cookie)
    (stateParam : String) : Except ApiError (ProviderConfig × String) :=
  match config.providers provider with
  | none => .error (.notFound ("unknown oidc provider: " ++ provider))
  | some cfg =>
    match cookie with
    | .missing => .error (.badRequest "missing oidc state cookie")
    | .other => .error (.badRequest "invalid oidc state cookie")
    | .signed claims =>
      match verifyOidcState config.jwt now claims with
      | .error _ => .error (.badRequest "invalid oidc state cookie")
      | .ok (cookieState, nonce) =>
        if cookieState ≠ stateParam then .error (.badRequest "oidc state mismatch")
        else .ok (cfg, nonce)

/-- Steps 2 and 3: the claims of the id token, if everything verifies. -/
def acceptIdToken {Key : Type} (jose : Jose Key) (now : Instant) (cfg : ProviderConfig)
    (answer : ProviderAnswer) (nonce : String) : Option IdTokenClaims :=
  match answer.jwks, answer.idToken with
  | .ok jwks, .ok idToken =>
    (verifyIdToken jose ⟨cfg.issuer, cfg.clientId, jwks, cfg.insecureSkipVerify⟩ idToken
      (some nonce) now).toOption
  | _, _ => none

variable {Key : Type}

def step (config : Config) (jose : Jose Key) (state : State) : Action → Option State
  | .login provider limited discovered stateValue nonce =>
    if limited || (config.providers provider).isNone || !discovered then some state
    else
      let token := issueOidcState config.jwt stateValue nonce state.now
      some { state with tokens := token :: state.tokens,
                        logins := ⟨provider, stateValue, nonce, state.now⟩ :: state.logins }
  | .session account sid =>
    let token := AuthHandlers.issueSession config.jwt account sid state.now
    some { state with tokens := token :: state.tokens }
  | .callback provider cookie stateParam answer =>
    if cookie.genuine state.tokens then
      match checkState config state.now provider cookie stateParam with
      | .error _ => some state
      | .ok (cfg, nonce) =>
        let accepted := acceptIdToken jose state.now cfg answer nonce
        some { state with passages :=
                 ⟨provider, stateParam, nonce, state.now, accepted⟩ :: state.passages }
    else none
  | .advance nanoseconds => some { state with now := state.now + nanoseconds }

section Invariant

variable {config : Config} {jose : Jose Key} {state next : State} {action : Action}

/-- The token is a session token, or the state token of a login. -/
def Signed (config : Config) (state : State) (claims : JwtClaims) : Prop :=
  claims.nonce = none ∨ ∃ login ∈ state.logins,
    claims = issueOidcState config.jwt login.state login.nonce login.time

/-- The pair was handed out at most 600 seconds and the leeway ago. -/
def Issued (config : Config) (logins : List Login) (passage : Passage) : Prop :=
  ∃ login ∈ logins, (config.providers login.provider).isSome = true ∧
    login.state = passage.state ∧ login.nonce = passage.nonce ∧ login.time ≤ passage.time ∧
    unixTimestamp passage.time ≤ unixTimestamp login.time + 600 + leeway

structure Sound (config : Config) (state : State) : Prop where
  tokens : ∀ claims ∈ state.tokens, Signed config state claims
  logins : ∀ login ∈ state.logins, login.time ≤ state.now ∧
    (config.providers login.provider).isSome = true
  passages : ∀ passage ∈ state.passages, Issued config state.logins passage
  nonces : ∀ passage ∈ state.passages, ∀ claims, passage.accepted = some claims →
    claims.nonce = some passage.nonce

theorem of_verifyOidcState {jwt : JwtService} {now : Instant} {claims : JwtClaims}
    {stateValue nonce : String}
    (verified : verifyOidcState jwt now claims = .ok (stateValue, nonce)) :
    claims.sub = stateValue ∧ claims.nonce = some nonce ∧
      unixTimestamp now ≤ claims.exp + leeway := by
  unfold verifyOidcState at verified
  split at verified
  next => cases verified
  next live =>
    split at verified
    next => cases verified
    next =>
      split at verified
      next => cases verified
      next =>
        split at verified
        next => cases verified
        next given =>
          cases verified
          exact ⟨rfl, given, by omega⟩

theorem of_checkState {now : Instant} {provider : String} {cookie : Cookie} {stateParam : String}
    {cfg : ProviderConfig} {nonce : String}
    (passed : checkState config now provider cookie stateParam = .ok (cfg, nonce)) :
    ∃ claims, cookie = .signed claims ∧ claims.sub = stateParam ∧ claims.nonce = some nonce ∧
      unixTimestamp now ≤ claims.exp + leeway := by
  unfold checkState at passed
  split at passed
  next => cases passed
  next =>
    split at passed
    next => cases passed
    next => cases passed
    next claims =>
      split at passed
      next => cases passed
      next cookieState given verified =>
        split at passed
        next => cases passed
        next same =>
          cases passed
          obtain ⟨sub, nonce, live⟩ := of_verifyOidcState verified
          exact ⟨claims, rfl, sub.trans (not_not.mp same), nonce, live⟩

theorem nonce_of_checkNonce {claims : IdTokenClaims} {nonce : String}
    (checked : checkNonce claims (some nonce) = .ok ()) : claims.nonce = some nonce := by
  unfold checkNonce at checked
  simp only at checked
  split at checked
  next => cases checked
  next same => exact not_not.mp same

/-- Whatever the provider answers, an accepted id token carries the nonce. -/
theorem nonce_of_verifyIdToken {client : HttpOidcClient} {idToken nonce : String} {now : Instant}
    {claims : IdTokenClaims}
    (verified : verifyIdToken jose client idToken (some nonce) now = .ok claims) :
    claims.nonce = some nonce := by
  unfold verifyIdToken at verified
  split at verified
  next =>
    obtain ⟨decoded, _, verified⟩ := ok_of_bind verified
    obtain ⟨_, checked, verified⟩ := ok_of_bind verified
    cases verified
    exact nonce_of_checkNonce checked
  next =>
    obtain ⟨inputs, _, verified⟩ := ok_of_bind verified
    obtain ⟨decoded, _, verified⟩ := ok_of_bind verified
    obtain ⟨_, checked, verified⟩ := ok_of_bind verified
    cases verified
    exact nonce_of_checkNonce checked

theorem nonce_of_acceptIdToken {now : Instant} {cfg : ProviderConfig} {answer : ProviderAnswer}
    {nonce : String} {claims : IdTokenClaims}
    (accepted : acceptIdToken jose now cfg answer nonce = some claims) :
    claims.nonce = some nonce := by
  unfold acceptIdToken at accepted
  split at accepted
  next =>
    unfold Except.toOption at accepted
    split at accepted
    next decoded verified =>
      cases accepted
      exact nonce_of_verifyIdToken verified
    next => cases accepted
  next => cases accepted

theorem Signed.mono {claims : JwtClaims} (signed : Signed config state claims)
    (kept : ∀ login ∈ state.logins, login ∈ next.logins) : Signed config next claims := by
  rcases signed with session | ⟨login, member, same⟩
  · exact Or.inl session
  · exact Or.inr ⟨login, kept login member, same⟩

theorem Issued.mono {logins more : List Login} {passage : Passage}
    (issued : Issued config logins passage) (kept : ∀ login ∈ logins, login ∈ more) :
    Issued config more passage := by
  obtain ⟨login, member, rest⟩ := issued
  exact ⟨login, kept login member, rest⟩

theorem sound_of_step (sound : Sound config state)
    (stepped : step config jose state action = some next) : Sound config next := by
  cases action with
  | login provider limited discovered stateValue nonce =>
      simp only [step] at stepped
      split at stepped
      next =>
        cases stepped
        exact sound
      next granted =>
        cases stepped
        have kept : ∀ login ∈ state.logins,
            login ∈ (⟨provider, stateValue, nonce, state.now⟩ : Login) :: state.logins :=
          fun login member => List.mem_cons_of_mem _ member
        refine ⟨?_, ?_, fun passage member => (sound.passages passage member).mono kept,
          sound.nonces⟩
        · intro claims member
          rcases List.mem_cons.mp member with rfl | old
          · exact Or.inr ⟨_, List.mem_cons_self, rfl⟩
          · exact (sound.tokens claims old).mono kept
        · intro login member
          rcases List.mem_cons.mp member with rfl | old
          · refine ⟨le_refl _, ?_⟩
            simp only [Bool.or_eq_true, not_or] at granted
            exact Option.isSome_iff_ne_none.mpr (by simpa using granted.1.2)
          · exact sound.logins login old
  | session account sid =>
      cases stepped
      refine { sound with tokens := ?_ }
      intro claims member
      rcases List.mem_cons.mp member with rfl | old
      · exact Or.inl rfl
      · exact sound.tokens claims old
  | callback provider cookie stateParam answer =>
      simp only [step] at stepped
      split at stepped
      next genuine =>
        split at stepped
        next =>
          cases stepped
          exact sound
        next cfg nonce passed =>
          cases stepped
          obtain ⟨claims, rfl, sub, given, live⟩ := of_checkState passed
          have known : claims ∈ state.tokens := by simpa [Cookie.genuine] using genuine
          refine { sound with passages := ?_, nonces := ?_ }
          · intro passage member
            rcases List.mem_cons.mp member with rfl | old
            · rcases sound.tokens claims known with session | ⟨login, issued, same⟩
              · rw [session] at given
                cases given
              · -- the pair of the token is the pair of its login
                subst same
                cases given
                obtain ⟨before, configured⟩ := sound.logins login issued
                exact ⟨login, issued, configured, sub, rfl, before, live⟩
            · exact sound.passages passage old
          · intro passage member accepted agreed
            rcases List.mem_cons.mp member with rfl | old
            · exact nonce_of_acceptIdToken agreed
            · exact sound.nonces passage old accepted agreed
      next => cases stepped
  | advance nanoseconds =>
      cases stepped
      refine { sound with logins := ?_ }
      intro login member
      obtain ⟨before, configured⟩ := sound.logins login member
      refine ⟨?_, configured⟩
      change login.time ≤ state.now + (nanoseconds : Int)
      grind

/-- A callback proceeds only with a pair that some login handed out within the last 600 seconds
and the leeway, and the id token it accepts carries the nonce of that pair. -/
theorem callback_uses_issued_pair (config : Config) (jose : Jose Key) (now : Instant)
    (actions : List Action) (last : State)
    (reached : run (step config jose) (.start now) actions = some last) :
    ∀ passage ∈ last.passages,
      (∃ login ∈ last.logins, (config.providers login.provider).isSome = true ∧
        login.state = passage.state ∧ login.nonce = passage.nonce ∧ login.time ≤ passage.time ∧
        unixTimestamp passage.time ≤ unixTimestamp login.time + 600 + leeway) ∧
      ∀ claims, passage.accepted = some claims → claims.nonce = some passage.nonce := by
  have start : Sound config (.start now) := by
    refine ⟨?_, ?_, ?_, ?_⟩ <;> simp [State.start]
  have sound : Sound config last := by
    refine run_invariant (Sound config) ?_ start reached
    intro state action next sound stepped
    exact sound_of_step sound stepped
  intro passage member
  exact ⟨sound.passages passage member, sound.nonces passage member⟩

end Invariant

section Samples

def twoProviders : Config where
  jwt := ⟨"picroom", "picroom-api", 3600⟩
  providers name :=
    if name = "one" ∨ name = "two" then some ⟨"https://idp.example.org", "picroom", false⟩ else none

/-- A login with the second provider, and its pair presented to the callback of the first. -/
def mixedUp : List Action :=
  [.login "two" false true "state" "nonce",
    .callback "one" (.signed (issueOidcState twoProviders.jwt "state" "nonce" 0)) "state"
      ⟨.error (.discovery "down"), .error (.http "down")⟩]

theorem state_of_other_provider_passes :
    ¬ ∀ (config : Config) (jose : Jose (String × String)) (now : Instant) (actions : List Action)
        (last : State), run (step config jose) (.start now) actions = some last →
      ∀ passage ∈ last.passages, ∃ login ∈ last.logins, login.provider = passage.provider ∧
        login.state = passage.state ∧ login.nonce = passage.nonce := by
  intro bound
  have reached : run (step twoProviders plainJose) (.start 0) mixedUp =
      some ⟨0, [issueOidcState twoProviders.jwt "state" "nonce" 0],
        [⟨"two", "state", "nonce", 0⟩], [⟨"one", "state", "nonce", 0, none⟩]⟩ := rfl
  obtain ⟨login, member, same, _⟩ := bound twoProviders plainJose 0 mixedUp _ reached
    ⟨"one", "state", "nonce", 0, none⟩ (List.mem_singleton_self _)
  cases List.mem_singleton.mp member
  exact absurd same (by decide)

def visitorClaims : IdTokenClaims :=
  ⟨"visitor", "https://idp.example.org", "picroom", 3600, 0, some "nonce", none, none, none⟩

/-- The provider's key has signed one token. -/
def signingJose : Jose (String × String) :=
  { plainJose with
    decode := fun token key validation =>
      if token = namedToken ∧ key = ("AQAB", "AQAB") ∧ validation.issuer = visitorClaims.iss then
        .ok visitorClaims
      else .error "InvalidSignature" }

def signedAnswer : ProviderAnswer := ⟨.ok ⟨[rsaKey (some "old")]⟩, .ok namedToken⟩

/-- Two logins, and at the end of the leeway two callbacks with the id token of the first. -/
def replayed : List Action :=
  [.login "one" false true "state" "nonce", .login "one" false true "later" "fresh",
    .advance 660000000000,
    .callback "one" (.signed (issueOidcState twoProviders.jwt "state" "nonce" 0)) "state"
      signedAnswer,
    .callback "one" (.signed (issueOidcState twoProviders.jwt "later" "fresh" 0)) "later"
      signedAnswer]

/-- The id token is accepted for the nonce it carries and refused for the other. -/
theorem replayed_token_refused :
    ∃ last, run (step twoProviders signingJose) (.start 0) replayed = some last ∧
      (last.passages.map fun passage => (passage.nonce, passage.accepted)) =
        [("fresh", none), ("nonce", some visitorClaims)] ∧
      ∀ passage ∈ last.passages,
        (∃ login ∈ last.logins, (twoProviders.providers login.provider).isSome = true ∧
          login.state = passage.state ∧ login.nonce = passage.nonce ∧
          login.time ≤ passage.time ∧
          unixTimestamp passage.time ≤ unixTimestamp login.time + 600 + leeway) ∧
        ∀ claims, passage.accepted = some claims → claims.nonce = some passage.nonce :=
  ⟨_, rfl, rfl, callback_uses_issued_pair twoProviders signingJose 0 replayed _ rfl⟩

end Samples

end Picroom.OidcFlow
