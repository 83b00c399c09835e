import Mathlib.Data.List.Infix
import Mathlib.Logic.Function.Basic
import Picroom.Domain.Error
import Picroom.Transition.Run

/-!
# The profiles of the desktop client

`settings.json` holds the profiles, the keychain of the system their tokens.  Whatever fails during
a command, no token reaches the settings, and a token is only ever used with a server of the host it
was issued by.

The `keyring` crate is a parameter.  Which store it stands for depends on how it is built: the one
of the operating system, or, with no store enabled, a mock that gives nothing back.
-/

namespace Picroom.Desktop

open Transition

structure Profile where
  name : String
  serverUrl : String
  email : String
  token : Option String
  deriving DecidableEq

/-- `settings.json`; profiles that cannot be read count as none. -/
structure Settings where
  profiles : List Profile
  active : Option String

/-- Entries of the `keyring` crate, made for a name and asked at once. -/
structure Keyring (Chain : Type) where
  getPassword : Chain → String → Option String
  setPassword : Chain → String → String → Chain
  deleteCredential : Chain → String → Chain

/-- What is given back for a name was set for that name. -/
structure Keyring.Honest {Chain : Type} (keyring : Keyring Chain) : Prop where
  of_set : ∀ {chain name token other held},
    keyring.getPassword (keyring.setPassword chain name token) other = some held →
      other = name ∧ held = token ∨ keyring.getPassword chain other = some held
  of_delete : ∀ {chain name other held},
    keyring.getPassword (keyring.deleteCredential chain name) other = some held →
      keyring.getPassword chain other = some held

/-- The settings as the client holds them and as they are on disk, and the tokens by profile. -/
structure Device (Chain : Type) where
  store : Settings
  disk : Settings
  keychain : Chain

/-- What the system does while a command runs. -/
structure Conditions where
  opens : Except String Unit
  savesProfiles : WriteOutcome String
  savesActive : WriteOutcome String
  readable : String → Bool
  sets : String → WriteOutcome String
  deletes : String → Bool

structure Session where
  name : String
  serverUrl : String
  email : String
  token : String
  deriving DecidableEq

/-- A command of the user; a login carries the token of the server's answer, or what went wrong. -/
inductive Command where
  | login (serverUrl email : String) (answer : Except String String)
  | logout
  | getSession
  | listProfiles
  | saveProfile (profile : Profile)
  | setActiveProfile (name : String)
  | removeProfile (name : String)

/-- What a command answers; `Listing` is what becomes of the list of profiles. -/
inductive Reply (Listing : Type) where
  | loggedIn (email serverUrl token : String)
  | session (session : Option Session)
  | profiles (profiles : Listing)
  | done

section Urls

/-- `trim_end_matches('/')`. -/
def trimSlashes (url : String) : String :=
  String.ofList ((url.toList.reverse.dropWhile (· == '/')).reverse)

/-- What follows the first `://`. -/
def afterScheme : List Char → Option (List Char)
  | [] => none
  | char :: rest =>
      if "://".toList.isPrefixOf (char :: rest) then some (rest.drop 2) else afterScheme rest

/-- `host[:port]`. -/
def profileNameFor (serverUrl : String) : String :=
  let trimmed := (trimSlashes serverUrl).toList
  String.ofList (((afterScheme trimmed).getD trimmed).takeWhile (· != '/'))

def isLoopback (url : String) : Bool :=
  ["://localhost", "://127.0.0.1", "://[::1]"].any fun host => decide (host.toList <:+: url.toList)

def insecureMessage : String :=
  "insecure server URL: production profiles must use https:// (dev builds may use http://localhost)"

def validateServerUrl (debugAssertions : Bool) (serverUrl : String) : Except String Unit :=
  if "https://".toList.isPrefixOf serverUrl.toList || (debugAssertions && isLoopback serverUrl) then
    .ok ()
  else .error insecureMessage

def validateAll (debugAssertions : Bool) : List Profile → Except String Unit
  | [] => .ok ()
  | profile :: rest =>
      match validateServerUrl debugAssertions profile.serverUrl with
      | .error message => .error message
      | .ok () => validateAll debugAssertions rest

end Urls

section Store

variable {Chain : Type} (keyring : Keyring Chain) (debugAssertions : Bool)
  (conditions : Conditions)

def keychainSet (keychain : Chain) (name token : String) : Chain × Except String Unit :=
  (if (conditions.sets name).takesEffect then keyring.setPassword keychain name token
    else keychain, (conditions.sets name).answer.mapError ("keychain: " ++ ·))

def keychainGet (keychain : Chain) (name : String) : Option String :=
  if conditions.readable name then keyring.getPassword keychain name else none

/-- That a token cannot be deleted is ignored. -/
def keychainDelete (keychain : Chain) (name : String) : Chain :=
  if conditions.deletes name then keyring.deleteCredential keychain name else keychain

/-- The tokens come from the keychain, not from the disk. -/
def loadProfiles (device : Device Chain) : Except String (List Profile) :=
  match conditions.opens with
  | .error message => .error message
  | .ok () => .ok (device.store.profiles.map fun profile =>
      { profile with token := keychainGet keyring conditions device.keychain profile.name })

/-- A token goes to the keychain; a profile without one loses what is there. -/
def keepTokens : List Profile → Chain → Chain × Except String Unit
  | [], keychain => (keychain, .ok ())
  | profile :: rest, keychain =>
      match profile.token with
      | some token =>
          match keychainSet keyring conditions keychain profile.name token with
          | (after, .error message) => (after, .error message)
          | (after, .ok ()) => keepTokens rest after
      | none => keepTokens rest (keychainDelete keyring conditions keychain profile.name)

def sanitized (profiles : List Profile) : List Profile :=
  profiles.map fun profile => { profile with token := none }

/-- The settings that are set are written to disk, unless that fails. -/
def Device.save (device : Device Chain) (store : Settings) (saves : WriteOutcome String) :
    Device Chain × Except String Unit :=
  ({ device with store, disk := if saves.takesEffect then store else device.disk }, saves.answer)

def saveProfiles (device : Device Chain) (profiles : List Profile) :
    Device Chain × Except String Unit :=
  match validateAll debugAssertions profiles with
  | .error message => (device, .error message)
  | .ok () =>
      match conditions.opens with
      | .error message => (device, .error message)
      | .ok () =>
          match keepTokens keyring conditions profiles device.keychain with
          | (keychain, .error message) => ({ device with keychain }, .error message)
          | (keychain, .ok ()) =>
              Device.save { device with keychain }
                { device.store with profiles := sanitized profiles } conditions.savesProfiles

def activeProfileName (device : Device Chain) : Except String (Option String) :=
  match conditions.opens with
  | .error message => .error message
  | .ok () => .ok device.store.active

def setActiveProfileName (device : Device Chain) (name : Option String) :
    Device Chain × Except String Unit :=
  match conditions.opens with
  | .error message => (device, .error message)
  | .ok () => device.save { device.store with active := name } conditions.savesActive

def loadActiveProfile (device : Device Chain) : Except String (Option Profile) := do
  let profiles ← loadProfiles keyring conditions device
  let active ← activeProfileName conditions device
  return active.bind fun name => profiles.find? (·.name == name)

end Store

section Commands

variable {Chain : Type} (keyring : Keyring Chain) (debugAssertions : Bool)
  (conditions : Conditions)

/-- The first profile of the name is changed, or a new one is added. -/
def upsert (name : String) (change : Profile → Profile) (fresh : Profile) :
    List Profile → List Profile
  | [] => [fresh]
  | profile :: rest =>
      if profile.name = name then change profile :: rest
      else profile :: upsert name change fresh rest

/-- The first profile of the name loses its token. -/
def forget (name : String) : List Profile → List Profile
  | [] => []
  | profile :: rest =>
      if profile.name = name then { profile with token := none } :: rest
      else profile :: forget name rest

/-- Loads the profiles, and saves what becomes of them. -/
def changeProfiles (device : Device Chain) (change : List Profile → List Profile) :
    Device Chain × Except String Unit :=
  match loadProfiles keyring conditions device with
  | .error message => (device, .error message)
  | .ok profiles => saveProfiles keyring debugAssertions conditions device (change profiles)

def upsertProfile (device : Device Chain) (name serverUrl email token : String) :
    Device Chain × Except String Unit :=
  changeProfiles keyring debugAssertions conditions device (upsert name
    (fun profile => { profile with serverUrl, email, token := some token })
    ⟨name, serverUrl, email, some token⟩)

def saveProfile (device : Device Chain) (profile : Profile) : Device Chain × Except String Unit :=
  changeProfiles keyring debugAssertions conditions device
    (upsert profile.name (fun _ => profile) profile)

def login (device : Device Chain) (serverUrl email : String) (answer : Except String String) :
    Device Chain × Except String (Reply (List Profile)) :=
  match answer with
  | .error message => (device, .error message)
  | .ok token =>
      let url := trimSlashes serverUrl
      let name := profileNameFor url
      match upsertProfile keyring debugAssertions conditions device name url email token with
      | (after, .error message) => (after, .error message)
      | (after, .ok ()) =>
          let (last, saved) := setActiveProfileName conditions after (some name)
          (last, saved.map fun _ => .loggedIn email url token)

def logout (device : Device Chain) : Device Chain × Except String (Reply (List Profile)) :=
  match loadProfiles keyring conditions device with
  | .error message => (device, .error message)
  | .ok profiles =>
      match activeProfileName conditions device with
      | .error message => (device, .error message)
      | .ok active =>
          match saveProfiles keyring debugAssertions conditions device
              (active.elim profiles fun name => forget name profiles) with
          | (after, .error message) => (after, .error message)
          | (after, .ok ()) =>
              let (last, saved) := setActiveProfileName conditions after none
              (last, saved.map fun _ => .done)

def getSession (device : Device Chain) : Except String (Option Session) := do
  let profile ← loadActiveProfile keyring conditions device
  return profile.bind fun profile => profile.token.map fun token =>
    ⟨profile.name, profile.serverUrl, profile.email, token⟩

/-- The server that uploads and downloads are sent to, and the token that goes with them. -/
def credentials (device : Device Chain) : Except String (String × String) := do
  let active ← loadActiveProfile keyring conditions device
  let profile ← active.elim (.error "no active profile") .ok
  let token ← profile.token.elim (.error "not logged in") .ok
  return (profile.serverUrl, token)

def removeProfile (device : Device Chain) (name : String) :
    Device Chain × Except String (Reply (List Profile)) :=
  match changeProfiles keyring debugAssertions conditions device
      (fun profiles => profiles.filter (·.name != name)) with
  | (after, .error message) => (after, .error message)
  | (after, .ok ()) =>
      match activeProfileName conditions after with
      | .error message => (after, .error message)
      | .ok active =>
          if active = some name then
            let (last, saved) := setActiveProfileName conditions after none
            (last, saved.map fun _ => .done)
          else (after, .ok .done)

def execute (device : Device Chain) :
    Command → Device Chain × Except String (Reply (List Profile))
  | .login serverUrl email answer =>
      login keyring debugAssertions conditions device serverUrl email answer
  | .logout => logout keyring debugAssertions conditions device
  | .getSession => (device, (getSession keyring conditions device).map .session)
  | .listProfiles => (device, (loadProfiles keyring conditions device).map .profiles)
  | .saveProfile profile =>
      let (after, saved) := saveProfile keyring debugAssertions conditions device profile
      (after, saved.map fun _ => .done)
  | .setActiveProfile name =>
      let (after, saved) := setActiveProfileName conditions device (some name)
      (after, saved.map fun _ => .done)
  | .removeProfile name => removeProfile keyring debugAssertions conditions device name

end Commands

/-- The token comes with the command, for a server of the host. -/
def Issues : Command → String → String → Prop
  | .login serverUrl _ answer, host, token =>
      profileNameFor (trimSlashes serverUrl) = host ∧ answer = .ok token
  | .saveProfile profile, host, token => profile.name = host ∧ profile.token = some token
  | _, _, _ => False

/-- Profiles that the user writes himself are named after their host. -/
def Named : Command → Prop
  | .saveProfile profile => profileNameFor profile.serverUrl = profile.name
  | _ => True

/-- Settings without tokens, of profiles that are named after the hosts of secure servers. -/
structure Clean (debugAssertions : Bool) (settings : Settings) : Prop where
  untokened : ∀ profile ∈ settings.profiles, profile.token = none
  secure : ∀ profile ∈ settings.profiles,
    validateServerUrl debugAssertions profile.serverUrl = .ok ()
  named : ∀ profile ∈ settings.profiles, profileNameFor profile.serverUrl = profile.name

/-- The keychain holds nothing but tokens that are given for the host. -/
structure Confined {Chain : Type} (keyring : Keyring Chain) (debugAssertions : Bool)
    (given : String → String → Prop) (device : Device Chain) : Prop where
  store : Clean debugAssertions device.store
  disk : Clean debugAssertions device.disk
  keychain : ∀ host token, keyring.getPassword device.keychain host = some token →
    given host token

section Confinement

variable {Chain : Type} {keyring : Keyring Chain} {debugAssertions : Bool}
  {conditions : Conditions} {given : String → String → Prop} {device : Device Chain}
  {profiles : List Profile}

/-- A profile in hand is named after its host and has a token of that host, if any. -/
structure Fits (given : String → String → Prop) (profile : Profile) : Prop where
  named : profileNameFor profile.serverUrl = profile.name
  token : ∀ token, profile.token = some token → given profile.name token

theorem secure_of_validateAll (valid : validateAll debugAssertions profiles = .ok ()) :
    ∀ profile ∈ profiles, validateServerUrl debugAssertions profile.serverUrl = .ok () := by
  induction profiles with
  | nil => exact fun _ impossible => nomatch impossible
  | cons first rest inductionHypothesis =>
      rw [validateAll] at valid
      split at valid
      next => cases valid
      next checked =>
        intro profile member
        rcases List.mem_cons.mp member with rfl | later
        · exact checked
        · exact inductionHypothesis valid profile later

/-- A loaded profile is one of the store, with what can be read of its token. -/
theorem stored_of_load (loaded : loadProfiles keyring conditions device = .ok profiles)
    {profile : Profile} (member : profile ∈ profiles) :
    ∃ stored ∈ device.store.profiles, profile =
      { stored with token := keychainGet keyring conditions device.keychain stored.name } := by
  unfold loadProfiles at loaded
  split at loaded
  next => cases loaded
  next =>
    cases loaded
    obtain ⟨stored, inStore, same⟩ := List.mem_map.mp member
    exact ⟨stored, inStore, same.symm⟩

theorem fits_of_load (confined : Confined keyring debugAssertions given device)
    (loaded : loadProfiles keyring conditions device = .ok profiles) :
    ∀ profile ∈ profiles, Fits given profile := by
  intro profile member
  obtain ⟨stored, inStore, rfl⟩ := stored_of_load loaded member
  refine ⟨confined.store.named stored inStore, ?_⟩
  intro token read
  dsimp only [keychainGet] at read
  split at read
  next => exact confined.keychain _ _ read
  next => cases read

/-- Whatever stops it, writing tokens that fit leaves tokens that are given. -/
theorem given_of_keepTokens (honest : keyring.Honest) (conditions : Conditions)
    (fits : ∀ profile ∈ profiles, Fits given profile) {keychain : Chain}
    (before : ∀ host token, keyring.getPassword keychain host = some token → given host token) :
    ∀ host token, keyring.getPassword (keepTokens keyring conditions profiles keychain).1 host =
      some token → given host token := by
  induction profiles generalizing keychain with
  | nil => exact before
  | cons profile rest inductionHypothesis =>
      have later := fun other member => fits other (List.mem_cons_of_mem profile member)
      rw [keepTokens]
      split
      next token held =>
        have tokenGiven := (fits profile List.mem_cons_self).token token held
        have kept : ∀ host token', keyring.getPassword
            (keychainSet keyring conditions keychain profile.name token).1 host = some token' →
              given host token' := by
          intro host token' found
          dsimp only [keychainSet] at found
          split at found
          next =>
            rcases honest.of_set found with ⟨rfl, rfl⟩ | earlier
            · exact tokenGiven
            · exact before host token' earlier
          next => exact before host token' found
        split
        next after message failed =>
          rw [failed] at kept
          exact kept
        next after written =>
          rw [written] at kept
          exact inductionHypothesis later kept
      next =>
        apply inductionHypothesis later
        intro host token found
        unfold keychainDelete at found
        split at found
        next => exact before host token (honest.of_delete found)
        next => exact before host token found

theorem clean_sanitized (fits : ∀ profile ∈ profiles, Fits given profile)
    (valid : validateAll debugAssertions profiles = .ok ()) (active : Option String) :
    Clean debugAssertions ⟨sanitized profiles, active⟩ := by
  refine ⟨?_, ?_, ?_⟩ <;> intro profile member <;>
    obtain ⟨source, inProfiles, rfl⟩ := List.mem_map.mp member
  · rfl
  · exact secure_of_validateAll valid source inProfiles
  · exact (fits source inProfiles).named

theorem Confined.save (confined : Confined keyring debugAssertions given device)
    {store : Settings} (clean : Clean debugAssertions store) (saves : WriteOutcome String) :
    Confined keyring debugAssertions given (device.save store saves).1 := by
  refine ⟨clean, ?_, confined.keychain⟩
  dsimp only [Device.save]
  split
  next => exact clean
  next => exact confined.disk

theorem Confined.saveProfiles (honest : keyring.Honest)
    (confined : Confined keyring debugAssertions given device)
    (fits : ∀ profile ∈ profiles, Fits given profile) :
    Confined keyring debugAssertions given
      (saveProfiles keyring debugAssertions conditions device profiles).1 := by
  have kept := given_of_keepTokens honest conditions fits confined.keychain
  unfold Desktop.saveProfiles
  split
  next => exact confined
  next valid =>
    split
    next => exact confined
    next =>
      split
      next keychain message failed =>
        rw [failed] at kept
        exact ⟨confined.store, confined.disk, kept⟩
      next keychain written =>
        rw [written] at kept
        have between : Confined keyring debugAssertions given { device with keychain } :=
          ⟨confined.store, confined.disk, kept⟩
        exact between.save (clean_sanitized fits valid _) _

theorem Confined.setActiveProfileName (confined : Confined keyring debugAssertions given device)
    (name : Option String) :
    Confined keyring debugAssertions given (setActiveProfileName conditions device name).1 := by
  unfold Desktop.setActiveProfileName
  split
  next => exact confined
  next =>
    apply confined.save
    exact ⟨confined.store.untokened, confined.store.secure, confined.store.named⟩

theorem Confined.changeProfiles (honest : keyring.Honest)
    (confined : Confined keyring debugAssertions given device)
    {change : List Profile → List Profile}
    (fitting : ∀ profiles : List Profile, (∀ profile ∈ profiles, Fits given profile) →
      ∀ profile ∈ change profiles, Fits given profile) :
    Confined keyring debugAssertions given
      (changeProfiles keyring debugAssertions conditions device change).1 := by
  unfold Desktop.changeProfiles
  split
  next => exact confined
  next profiles loaded =>
    exact saveProfiles honest confined (fitting profiles (fits_of_load confined loaded))

theorem forall_upsert {property : Profile → Prop} {name : String} {change : Profile → Profile}
    {fresh : Profile}
    (changed : ∀ profile, profile.name = name → property profile → property (change profile))
    (new : property fresh) (before : ∀ profile ∈ profiles, property profile) :
    ∀ profile ∈ upsert name change fresh profiles, property profile := by
  induction profiles with
  | nil =>
      intro profile member
      rw [List.mem_singleton.mp member]
      exact new
  | cons first rest inductionHypothesis =>
      have later := fun other member => before other (List.mem_cons_of_mem first member)
      have atFirst := before first List.mem_cons_self
      intro profile member
      rw [upsert] at member
      split at member
      next same =>
        rcases List.mem_cons.mp member with rfl | inRest
        · exact changed first same atFirst
        · exact later profile inRest
      next =>
        rcases List.mem_cons.mp member with rfl | inRest
        · exact atFirst
        · exact inductionHypothesis later profile inRest

theorem forall_forget {property : Profile → Prop} {name : String}
    (forgets : ∀ profile, property profile → property { profile with token := none })
    (before : ∀ profile ∈ profiles, property profile) :
    ∀ profile ∈ forget name profiles, property profile := by
  induction profiles with
  | nil => exact fun _ impossible => nomatch impossible
  | cons first rest inductionHypothesis =>
      have later := fun other member => before other (List.mem_cons_of_mem first member)
      have atFirst := before first List.mem_cons_self
      intro profile member
      rw [forget] at member
      split at member
      next =>
        rcases List.mem_cons.mp member with rfl | inRest
        · exact forgets first atFirst
        · exact later profile inRest
      next =>
        rcases List.mem_cons.mp member with rfl | inRest
        · exact atFirst
        · exact inductionHypothesis later profile inRest

theorem Confined.login (honest : keyring.Honest)
    (confined : Confined keyring debugAssertions given device) {serverUrl email : String}
    {answer : Except String String}
    (issued : ∀ host token, Issues (.login serverUrl email answer) host token → given host token) :
    Confined keyring debugAssertions given
      (login keyring debugAssertions conditions device serverUrl email answer).1 := by
  unfold Desktop.login
  split
  next => exact confined
  next token =>
    have tokenGiven := issued (profileNameFor (trimSlashes serverUrl)) token ⟨rfl, rfl⟩
    have upserted : Confined keyring debugAssertions given
        (upsertProfile keyring debugAssertions conditions device
          (profileNameFor (trimSlashes serverUrl)) (trimSlashes serverUrl) email token).1 := by
      apply changeProfiles honest confined
      intro profiles fits
      refine forall_upsert ?_ ⟨rfl, ?_⟩ fits
      · intro profile named _
        refine ⟨named.symm, ?_⟩
        intro other same
        cases same
        exact named ▸ tokenGiven
      · intro other same
        cases same
        exact tokenGiven
    dsimp only
    split
    next after message failed =>
      rw [failed] at upserted
      exact upserted
    next after saved =>
      rw [saved] at upserted
      exact upserted.setActiveProfileName _

theorem Confined.logout (honest : keyring.Honest)
    (confined : Confined keyring debugAssertions given device) :
    Confined keyring debugAssertions given
      (Desktop.logout keyring debugAssertions conditions device).1 := by
  unfold Desktop.logout
  split
  next => exact confined
  next profiles loaded =>
    have fits := fits_of_load confined loaded
    split
    next => exact confined
    next active _ =>
      have saved : Confined keyring debugAssertions given
          (Desktop.saveProfiles keyring debugAssertions conditions device
          (active.elim profiles fun name => forget name profiles)).1 := by
        apply saveProfiles honest confined
        cases active with
        | none => exact fits
        | some name =>
            apply forall_forget _ fits
            exact fun profile fit => ⟨fit.named, fun _ impossible => nomatch impossible⟩
      split
      next after message failed =>
        rw [failed] at saved
        exact saved
      next after done =>
        rw [done] at saved
        exact saved.setActiveProfileName _

theorem Confined.removeProfile (honest : keyring.Honest)
    (confined : Confined keyring debugAssertions given device) (name : String) :
    Confined keyring debugAssertions given
      (Desktop.removeProfile keyring debugAssertions conditions device name).1 := by
  have removed : Confined keyring debugAssertions given
      (Desktop.changeProfiles keyring debugAssertions conditions device
      fun profiles => profiles.filter (·.name != name)).1 :=
    changeProfiles honest confined fun profiles fits profile member =>
      fits profile (List.mem_filter.mp member).1
  unfold Desktop.removeProfile
  split
  next after message failed =>
    rw [failed] at removed
    exact removed
  next after done =>
    rw [done] at removed
    split
    next => exact removed
    next =>
      split
      next => exact removed.setActiveProfileName _
      next => exact removed

/-- Whatever fails, a command keeps the tokens confined. -/
theorem confined_execute (honest : keyring.Honest)
    (confined : Confined keyring debugAssertions given device) {command : Command}
    (named : Named command)
    (issued : ∀ host token, Issues command host token → given host token) :
    Confined keyring debugAssertions given
      (execute keyring debugAssertions conditions device command).1 := by
  cases command with
  | login serverUrl email answer => exact confined.login honest issued
  | logout => exact confined.logout honest
  | getSession => exact confined
  | listProfiles => exact confined
  | saveProfile profile =>
      have fits : Fits given profile :=
        ⟨named, fun token held => issued profile.name token ⟨rfl, held⟩⟩
      exact confined.changeProfiles honest fun profiles => forall_upsert (fun _ _ _ => fits) fits
  | setActiveProfile name => exact confined.setActiveProfileName _
  | removeProfile name => exact confined.removeProfile honest name

theorem of_loadActiveProfile (confined : Confined keyring debugAssertions given device)
    {profile : Profile}
    (loaded : loadActiveProfile keyring conditions device = .ok (some profile)) :
    validateServerUrl debugAssertions profile.serverUrl = .ok () ∧ Fits given profile := by
  obtain ⟨profiles, loaded, named⟩ := ok_of_bind loaded
  obtain ⟨name, _, chosen⟩ := ok_of_bind named
  injection chosen with chosen
  obtain ⟨activeName, _, isFirst⟩ := Option.bind_eq_some_iff.mp chosen
  have member := List.mem_of_find?_eq_some isFirst
  refine ⟨?_, fits_of_load confined loaded profile member⟩
  obtain ⟨stored, inStore, rfl⟩ := stored_of_load loaded member
  exact confined.store.secure stored inStore

/-- What is sent out goes to a secure server, with a token that is given for its host. -/
theorem of_credentials (confined : Confined keyring debugAssertions given device)
    {serverUrl token : String}
    (sent : credentials keyring conditions device = .ok (serverUrl, token)) :
    validateServerUrl debugAssertions serverUrl = .ok () ∧
      given (profileNameFor serverUrl) token := by
  obtain ⟨active, loaded, sent⟩ := ok_of_bind sent
  obtain ⟨profile, isActive, sent⟩ := ok_of_bind sent
  obtain ⟨held, hasToken, sent⟩ := ok_of_bind sent
  cases sent
  cases active with
  | none => cases isActive
  | some other =>
      cases isActive
      obtain ⟨secure, fits⟩ := of_loadActiveProfile confined loaded
      refine ⟨secure, ?_⟩
      rw [fits.named]
      apply fits.token
      cases stored : profile.token with
      | none =>
          rw [stored] at hasToken
          cases hasToken
      | some token =>
          rw [stored] at hasToken
          cases hasToken
          rfl

theorem credentials_of_getSession {session : Session}
    (answered : getSession keyring conditions device = .ok (some session)) :
    credentials keyring conditions device = .ok (session.serverUrl, session.token) := by
  obtain ⟨active, loaded, shown⟩ := ok_of_bind answered
  injection shown with shown
  obtain ⟨profile, rfl, held⟩ := Option.bind_eq_some_iff.mp shown
  obtain ⟨token, stored, rfl⟩ := Option.map_eq_some_iff.mp held
  simp [credentials, loaded, stored, bind, pure, Except.bind, Except.pure]

end Confinement

/-- What happens to a device: a command, a save of the settings by themselves, a start. -/
inductive Event where
  | runs (command : Command) (conditions : Conditions)
  | saves
  | starts

/-- A command is answered; a start reads the settings from disk. -/
def perform {Chain : Type} (keyring : Keyring Chain) (debugAssertions : Bool)
    (device : Device Chain) :
    Event → Device Chain × Option (Except String (Reply (List Profile)))
  | .runs command conditions =>
      let (after, reply) := execute keyring debugAssertions conditions device command
      (after, some reply)
  | .saves => ({ device with disk := device.store }, none)
  | .starts => ({ device with store := device.disk }, none)

section Runs

variable {Chain : Type} (keyring : Keyring Chain) (debugAssertions : Bool)

def step (device : Device Chain) (event : Event) : Option (Device Chain) :=
  some (perform keyring debugAssertions device event).1

theorem exists_step (device : Device Chain) (event : Event) :
    ∃ next, step keyring debugAssertions device event = some next :=
  ⟨(perform keyring debugAssertions device event).1, rfl⟩

/-- The token was there for the host before, or came with a command for it. -/
def GivenIn (device : Device Chain) (events : List Event) (host token : String) : Prop :=
  keyring.getPassword device.keychain host = some token ∨
    ∃ command conditions, .runs command conditions ∈ events ∧ Issues command host token

variable {keyring debugAssertions}

/-- Whatever fails in a run, no token is written to the settings, and one is only ever sent to a
secure server of the host that it was given for. -/
theorem tokens_confined (honest : keyring.Honest) {device last : Device Chain}
    {events : List Event}
    (clean : Clean debugAssertions device.store ∧ Clean debugAssertions device.disk)
    (named : ∀ command conditions, .runs command conditions ∈ events → Named command)
    (reached : run (step keyring debugAssertions) device events = some last) :
    (∀ profile ∈ last.store.profiles ++ last.disk.profiles, profile.token = none) ∧
      ∀ conditions serverUrl token,
        (credentials keyring conditions last = .ok (serverUrl, token) ∨
          ∃ name email,
            getSession keyring conditions last = .ok (some ⟨name, serverUrl, email, token⟩)) →
        validateServerUrl debugAssertions serverUrl = .ok () ∧
          GivenIn keyring device events (profileNameFor serverUrl) token := by
  have confined : Confined keyring debugAssertions (GivenIn keyring device events) last := by
    have start : Confined keyring debugAssertions (GivenIn keyring device events) device :=
      ⟨clean.1, clean.2, fun host token held => .inl held⟩
    have inRun : Meets (step keyring debugAssertions) (fun _ event => event ∈ events) device
        events := meets_of_forall (fun event member _ => member) device
    apply run_invariant_of_meets _ _ inRun start reached
    intro before event next member confined stepped
    cases stepped
    cases event with
    | runs command conditions =>
        apply confined_execute honest confined (named command conditions member)
        intro host token issued
        exact .inr ⟨command, conditions, member, issued⟩
    | saves => exact ⟨confined.store, confined.store, confined.keychain⟩
    | starts => exact ⟨confined.disk, confined.disk, confined.keychain⟩
  constructor
  · intro profile member
    rcases List.mem_append.mp member with inStore | onDisk
    · exact confined.store.untokened profile inStore
    · exact confined.disk.untokened profile onDisk
  · intro conditions serverUrl token used
    apply of_credentials confined
    rcases used with sent | ⟨name, email, answered⟩
    · exact sent
    · exact credentials_of_getSession answered

end Runs

/-- A store that keeps what is set. -/
def Keyring.system : Keyring (String → Option String) where
  getPassword chain name := chain name
  setPassword chain name token := Function.update chain name (some token)
  deleteCredential chain name := Function.update chain name none

theorem Keyring.honest_system : system.Honest where
  of_set {chain name token other held} found := by
    dsimp only [system] at found ⊢
    rw [Function.update_apply] at found
    split at found
    next same =>
      cases found
      exact .inl ⟨same, rfl⟩
    next => exact .inr found
  of_delete {chain name other held} found := by
    dsimp only [system] at found ⊢
    rw [Function.update_apply] at found
    split at found
    next => cases found
    next => exact found

/-- Nothing fails. -/
def calm : Conditions where
  opens := .ok ()
  savesProfiles := .done
  savesActive := .done
  readable _ := true
  sets _ := .done
  deletes _ := true

def freshDevice {Chain : Type} (keychain : Chain) : Device Chain :=
  ⟨⟨[], none⟩, ⟨[], none⟩, keychain⟩

/-- A login whose token the keychain does not take, one that goes through, and one elsewhere that is
not saved to disk; then the client is started again. -/
def threeLogins : List Event :=
  [.runs (.login "https://pics.example/" "ann@pics.example" (.ok "first"))
      { calm with sets := fun _ => .refused "locked" },
    .runs (.login "https://pics.example" "ann@pics.example" (.ok "second")) calm,
    .runs (.login "https://home.example" "ann@home.example" (.ok "third"))
      { calm with savesProfiles := .refused "disk full" },
    .starts]

/-- The token that goes through is used with its server. -/
theorem second_token_used :
    ∃ last, run (step .system false) (freshDevice fun _ => none) threeLogins = some last ∧
      (∀ profile ∈ last.store.profiles ++ last.disk.profiles, profile.token = none) ∧
      credentials .system calm last = .ok ("https://pics.example", "second") ∧
      validateServerUrl false "https://pics.example" = .ok () ∧
      GivenIn .system (freshDevice fun _ => none) threeLogins
        (profileNameFor "https://pics.example") "second" := by
  have sent : (run (step .system false) (freshDevice fun _ => none) threeLogins).map
      (credentials .system calm) = some (.ok ("https://pics.example", "second")) := by
    decide +kernel
  obtain ⟨last, reached, used⟩ := Option.map_eq_some_iff.mp sent
  have confined := tokens_confined Keyring.honest_system ?_ ?_ reached
  · exact ⟨last, reached, confined.1, used, confined.2 calm _ _ (.inl used)⟩
  · constructor <;> constructor <;> exact fun _ impossible => nomatch impossible
  · intro command conditions member
    simp only [threeLogins, List.mem_cons, List.not_mem_nil, or_false, reduceCtorEq] at member
    rcases member with same | same | same <;> cases same <;> trivial

end Picroom.Desktop
