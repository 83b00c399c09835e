import Mathlib.Data.List.Nodup
import Picroom.Desktop.Profiles
import Picroom.Transition.Simulation

/-!
# What the desktop client remembers

While nothing fails, the settings, their copy on disk and the keychain together are one account by
name and the name that is active, through saves and starts.  Whether the accounts have their tokens
depends on the keychain: one that keeps what is set gives them back, and the mock, which keeps
nothing, leaves every account without one.
-/

namespace Picroom.Desktop

open Transition

/-- The keychain keeps what is set, or it keeps nothing at all. -/
structure Keyring.Obeys {Chain : Type} (keyring : Keyring Chain) (remembers : Bool) : Prop where
  set : ∀ chain name token, keyring.getPassword (keyring.setPassword chain name token) =
    Function.update (keyring.getPassword chain) name (if remembers then some token else none)
  delete : ∀ chain name, keyring.getPassword (keyring.deleteCredential chain name) =
    Function.update (keyring.getPassword chain) name none
  forgets : remembers = false → ∀ chain name, keyring.getPassword chain name = none

/-- The account as the keychain gives it back. -/
def Profile.retained (remembers : Bool) (profile : Profile) : Profile :=
  { profile with token := if remembers then profile.token else none }

structure Vault where
  accounts : String → Option Profile
  active : Option String

namespace Vault

variable (remembers debugAssertions : Bool) (vault : Vault)

def put (account : Profile) : Vault × Except String Unit :=
  match validateServerUrl debugAssertions account.serverUrl with
  | .error message => (vault, .error message)
  | .ok () =>
      ({ vault with
          accounts := Function.update vault.accounts account.name
            (some (account.retained remembers)) }, .ok ())

/-- The account of a name loses its token. -/
def quit (name : String) : Vault :=
  let left := (vault.accounts name).map fun account => { account with token := none }
  { vault with accounts := Function.update vault.accounts name left }

def session : Option Session :=
  (vault.active.bind vault.accounts).bind fun account => account.token.map fun token =>
    ⟨account.name, account.serverUrl, account.email, token⟩

def execute : Command → Vault × Except String (Reply (String → Option Profile))
  | .login _ _ (.error message) => (vault, .error message)
  | .login serverUrl email (.ok token) =>
      let url := trimSlashes serverUrl
      match vault.put remembers debugAssertions ⟨profileNameFor url, url, email, some token⟩ with
      | (after, .error message) => (after, .error message)
      | (after, .ok ()) =>
          ({ after with active := some (profileNameFor url) }, .ok (.loggedIn email url token))
  | .logout => ({ vault.active.elim vault vault.quit with active := none }, .ok .done)
  | .getSession => (vault, .ok (.session vault.session))
  | .listProfiles => (vault, .ok (.profiles vault.accounts))
  | .saveProfile profile =>
      let (after, saved) := vault.put remembers debugAssertions profile
      (after, saved.map fun _ => .done)
  | .setActiveProfile name => ({ vault with active := some name }, .ok .done)
  | .removeProfile name =>
      ({ accounts := Function.update vault.accounts name none
         active := if vault.active = some name then none else vault.active }, .ok .done)

/-- Saves and starts are nothing to a vault. -/
def perform : Event → Vault × Option (Except String (Reply (String → Option Profile)))
  | .runs command _ =>
      let (after, reply) := vault.execute remembers debugAssertions command
      (after, some reply)
  | .saves => (vault, none)
  | .starts => (vault, none)

end Vault

/-- Nothing fails while the event happens. -/
def Event.IsCalm : Event → Prop
  | .runs _ conditions => conditions = calm
  | .saves => True
  | .starts => True

def lookup (profiles : List Profile) (name : String) : Option Profile :=
  profiles.find? (·.name == name)

def names (profiles : List Profile) : List String := profiles.map (·.name)

section Views

variable {Chain : Type} (keyring : Keyring Chain)

/-- The profiles with the tokens of the keychain. -/
def loaded (device : Device Chain) : List Profile :=
  device.store.profiles.map fun profile =>
    { profile with token := keyring.getPassword device.keychain profile.name }

def vault (device : Device Chain) : Vault := ⟨lookup (loaded keyring device), device.store.active⟩

end Views

/-- Names are not shared, servers are secure, and what the client holds is on disk. -/
structure Kept {Chain : Type} (debugAssertions : Bool) (device : Device Chain) : Prop where
  distinct : (names device.store.profiles).Nodup
  secure : ∀ profile ∈ device.store.profiles,
    validateServerUrl debugAssertions profile.serverUrl = .ok ()
  settled : device.disk = device.store

def Reply.shown : Reply (List Profile) → Reply (String → Option Profile)
  | .loggedIn email serverUrl token => .loggedIn email serverUrl token
  | .session shown => .session shown
  | .profiles all => .profiles (lookup all)
  | .done => .done

section Lookup

variable {name : String} {change : Profile → Profile} {fresh : Profile} {profiles : List Profile}

theorem lookup_cons (profile : Profile) (rest : List Profile) (name : String) :
    lookup (profile :: rest) name =
      if profile.name = name then some profile else lookup rest name := by
  by_cases same : profile.name = name
  · simp [lookup, same]
  · simp [lookup, same]

theorem lookup_upsert (named : fresh.name = name)
    (changed : ∀ profile, profile.name = name → change profile = fresh) :
    lookup (upsert name change fresh profiles) =
      Function.update (lookup profiles) name (some fresh) := by
  induction profiles with
  | nil =>
      funext other
      rw [upsert, lookup_cons, named, Function.update_apply]
      simp only [eq_comm]
  | cons first rest inductionHypothesis =>
      funext other
      rw [upsert]
      split
      next same =>
        rw [lookup_cons, changed first same, named, Function.update_apply, lookup_cons, same]
        simp only [eq_comm]
        split
        next => rfl
        next => rfl
      next different =>
        rw [lookup_cons, inductionHypothesis, Function.update_apply, Function.update_apply,
          lookup_cons]
        grind

theorem lookup_forget :
    lookup (forget name profiles) = Function.update (lookup profiles) name
      ((lookup profiles name).map fun account => { account with token := none }) := by
  induction profiles with
  | nil =>
      funext other
      rw [forget, Function.update_apply]
      split <;> rfl
  | cons first rest inductionHypothesis =>
      funext other
      rw [forget]
      split
      next same =>
        rw [lookup_cons, Function.update_apply, lookup_cons, lookup_cons]
        grind
      next different =>
        rw [lookup_cons, inductionHypothesis, Function.update_apply, Function.update_apply,
          lookup_cons, lookup_cons]
        grind

theorem lookup_filter :
    lookup (profiles.filter (·.name != name)) =
      Function.update (lookup profiles) name none := by
  induction profiles with
  | nil =>
      funext other
      rw [Function.update_apply]
      split <;> rfl
  | cons first rest inductionHypothesis =>
      funext other
      rw [List.filter_cons]
      split
      next =>
        rw [lookup_cons, inductionHypothesis, Function.update_apply, Function.update_apply,
          lookup_cons]
        grind
      next =>
        rw [inductionHypothesis, Function.update_apply, Function.update_apply, lookup_cons]
        grind

end Lookup

section Calm

variable {Chain : Type} {keyring : Keyring Chain} {remembers debugAssertions : Bool}
  {device : Device Chain} {profiles : List Profile} {keychain : Chain}

theorem Keyring.obeys_system : Keyring.system.Obeys true where
  set _ _ _ := rfl
  delete _ _ := rfl
  forgets impossible := nomatch impossible

/-- The mock of the crate: every entry is a new one, and empty. -/
def Keyring.mock : Keyring Unit where
  getPassword _ _ := none
  setPassword chain _ _ := chain
  deleteCredential chain _ := chain

theorem Keyring.obeys_mock : Keyring.mock.Obeys false where
  set _ _ _ := (Function.update_eq_self _ _).symm
  delete _ _ := (Function.update_eq_self _ _).symm
  forgets _ _ _ := rfl

theorem loadProfiles_calm : loadProfiles keyring calm device = .ok (loaded keyring device) := rfl

theorem activeProfileName_calm : activeProfileName calm device = .ok device.store.active := rfl

theorem getSession_calm :
    getSession keyring calm device = .ok (vault keyring device).session := rfl

/-- Every token is written, or every profile without one cleared. -/
theorem keepTokens_calm_cons (obeys : keyring.Obeys remembers) (profile : Profile)
    (rest : List Profile) : ∃ after,
      keepTokens keyring calm (profile :: rest) keychain = keepTokens keyring calm rest after ∧
      keyring.getPassword after = Function.update (keyring.getPassword keychain) profile.name
        (profile.retained remembers).token := by
  rw [keepTokens]
  split
  next token held =>
    refine ⟨keyring.setPassword keychain profile.name token, rfl, ?_⟩
    rw [obeys.set, Profile.retained, held]
  next none =>
    refine ⟨keyring.deleteCredential keychain profile.name, rfl, ?_⟩
    rw [obeys.delete, Profile.retained, none, ite_self]

theorem keepTokens_calm_ok (obeys : keyring.Obeys remembers) :
    (keepTokens keyring calm profiles keychain).2 = .ok () := by
  induction profiles generalizing keychain with
  | nil => rfl
  | cons profile rest inductionHypothesis =>
      obtain ⟨after, same, -⟩ := keepTokens_calm_cons obeys profile rest
      rw [same]
      exact inductionHypothesis

theorem keepTokens_of_not_mem (obeys : keyring.Obeys remembers) {name : String}
    (absent : name ∉ names profiles) :
    keyring.getPassword (keepTokens keyring calm profiles keychain).1 name =
      keyring.getPassword keychain name := by
  induction profiles generalizing keychain with
  | nil => rfl
  | cons profile rest inductionHypothesis =>
      rw [names, List.map_cons, List.mem_cons, not_or] at absent
      obtain ⟨after, same, written⟩ := keepTokens_calm_cons obeys profile rest
      rw [same, inductionHypothesis absent.2, written, Function.update_of_ne absent.1]

theorem keepTokens_of_mem (obeys : keyring.Obeys remembers) (distinct : (names profiles).Nodup)
    {profile : Profile} (member : profile ∈ profiles) :
    keyring.getPassword (keepTokens keyring calm profiles keychain).1 profile.name =
      (profile.retained remembers).token := by
  induction profiles generalizing keychain with
  | nil => cases member
  | cons first rest inductionHypothesis =>
      rw [names, List.map_cons, List.nodup_cons] at distinct
      obtain ⟨after, same, written⟩ := keepTokens_calm_cons obeys first rest
      rw [same]
      rcases List.mem_cons.mp member with rfl | inRest
      · rw [keepTokens_of_not_mem obeys distinct.1, written, Function.update_self]
      · exact inductionHypothesis distinct.2 inRest

theorem names_sanitized : names (sanitized profiles) = names profiles := by
  rw [names, sanitized, List.map_map]
  rfl

theorem names_loaded : names (loaded keyring device) = names device.store.profiles := by
  rw [names, loaded, List.map_map]
  rfl

theorem names_forget {name : String} : names (forget name profiles) = names profiles := by
  induction profiles with
  | nil => rfl
  | cons first rest inductionHypothesis =>
      rw [forget]
      split
      next => rfl
      next => exact congrArg (first.name :: ·) inductionHypothesis

theorem nodup_upsert {name : String} {change : Profile → Profile} {fresh : Profile}
    (named : fresh.name = name)
    (changed : ∀ profile, profile.name = name → change profile = fresh)
    (distinct : (names profiles).Nodup) :
    (names (upsert name change fresh profiles)).Nodup := by
  induction profiles with
  | nil => exact List.nodup_singleton _
  | cons first rest inductionHypothesis =>
      rw [names, List.map_cons, List.nodup_cons] at distinct
      rw [upsert]
      split
      next same =>
        rw [changed first same, names, List.map_cons, named, ← same]
        exact List.nodup_cons.mpr distinct
      next different =>
        rw [names, List.map_cons]
        refine List.nodup_cons.mpr ⟨?_, inductionHypothesis distinct.2⟩
        intro again
        obtain ⟨other, member, same⟩ := List.mem_map.mp again
        have elsewhere : ∀ other ∈ upsert name change fresh rest, other.name ≠ first.name := by
          apply forall_upsert
          · intro profile atName _
            rw [changed profile atName, named]
            exact Ne.symm different
          · rw [named]
            exact Ne.symm different
          · intro profile inRest equal
            exact distinct.1 (List.mem_map.mpr ⟨profile, inRest, equal⟩)
        exact elsewhere other member same

theorem validateAll_of_secure (secure : ∀ profile ∈ profiles,
    validateServerUrl debugAssertions profile.serverUrl = .ok ()) :
    validateAll debugAssertions profiles = .ok () := by
  induction profiles with
  | nil => rfl
  | cons first rest inductionHypothesis =>
      rw [validateAll, secure first List.mem_cons_self]
      exact inductionHypothesis fun other member => secure other (List.mem_cons_of_mem first member)

/-- Where the servers so far are secure, only the one that is written can be refused. -/
theorem validateAll_upsert {name : String} {change : Profile → Profile} {fresh : Profile}
    (changed : ∀ profile, profile.name = name → change profile = fresh)
    (secure : ∀ profile ∈ profiles,
      validateServerUrl debugAssertions profile.serverUrl = .ok ()) :
    validateAll debugAssertions (upsert name change fresh profiles) =
      validateServerUrl debugAssertions fresh.serverUrl := by
  induction profiles with
  | nil =>
      rw [upsert, validateAll]
      split
      next message refused => exact refused.symm
      next valid => exact valid.symm
  | cons first rest inductionHypothesis =>
      have later := fun other member => secure other (List.mem_cons_of_mem first member)
      rw [upsert]
      split
      next same =>
        rw [changed first same, validateAll, validateAll_of_secure later]
        split
        next message refused => exact refused.symm
        next valid => exact valid.symm
      next =>
        rw [validateAll, secure first List.mem_cons_self]
        exact inductionHypothesis later

theorem Kept.secure_loaded (keyring : Keyring Chain) (kept : Kept debugAssertions device) :
    ∀ profile ∈ loaded keyring device,
      validateServerUrl debugAssertions profile.serverUrl = .ok () := by
  intro profile member
  obtain ⟨stored, inStore, rfl⟩ := List.mem_map.mp member
  exact kept.secure stored inStore

theorem Kept.distinct_loaded (kept : Kept debugAssertions device) :
    (names (loaded keyring device)).Nodup := by
  rw [names_loaded]
  exact kept.distinct

/-- What is loaded is no more than what the keychain gives back. -/
theorem retained_loaded (obeys : keyring.Obeys remembers) {profile : Profile}
    (member : profile ∈ loaded keyring device) : profile.retained remembers = profile := by
  obtain ⟨stored, _, rfl⟩ := List.mem_map.mp member
  cases remembers with
  | true => rfl
  | false => simp [Profile.retained, obeys.forgets]

theorem lookup_retained (profiles : List Profile) :
    lookup (profiles.map (Profile.retained remembers)) =
      fun name => (lookup profiles name).map (Profile.retained remembers) := by
  induction profiles with
  | nil => rfl
  | cons first rest inductionHypothesis =>
      funext name
      rw [List.map_cons, lookup_cons, inductionHypothesis, lookup_cons]
      change (if first.name = name then _ else _) = _
      split <;> rfl

/-- Where the profiles are no more than what the keychain gives back, so are those looked up. -/
theorem lookup_of_retained
    (retained : ∀ profile ∈ profiles, profile.retained remembers = profile) (name : String) :
    (lookup profiles name).map (Profile.retained remembers) = lookup profiles name := by
  cases found : lookup profiles name with
  | none => rfl
  | some profile =>
      exact congrArg some (retained profile (List.mem_of_find?_eq_some found))

/-- What is saved is, as the keychain gives it back, what is loaded afterwards. -/
theorem loaded_saveProfiles (obeys : keyring.Obeys remembers) (device : Device Chain)
    (distinct : (names profiles).Nodup) (valid : validateAll debugAssertions profiles = .ok ()) :
    ∃ after, saveProfiles keyring debugAssertions calm device profiles = (after, .ok ()) ∧
      Kept debugAssertions after ∧
      vault keyring after =
        ⟨fun name => (lookup profiles name).map (Profile.retained remembers),
          device.store.active⟩ := by
  let keychain := (keepTokens keyring calm profiles device.keychain).1
  let store : Settings := ⟨sanitized profiles, device.store.active⟩
  refine ⟨⟨store, store, keychain⟩, ?_, ⟨?_, ?_, rfl⟩, ?_⟩
  · have written : keepTokens keyring calm profiles device.keychain = (keychain, .ok ()) :=
      Prod.ext rfl (keepTokens_calm_ok obeys)
    rw [saveProfiles, valid]
    dsimp only [calm]
    rw [← calm, written]
    rfl
  · change (names (sanitized profiles)).Nodup
    rw [names_sanitized]
    exact distinct
  · intro profile member
    obtain ⟨source, inProfiles, rfl⟩ := List.mem_map.mp member
    exact secure_of_validateAll valid source inProfiles
  · -- each name is written once, so the keychain gives back what it keeps of each profile's token
    have same : (sanitized profiles).map (fun profile =>
        { profile with token := keyring.getPassword keychain profile.name }) =
          profiles.map (Profile.retained remembers) := by
      rw [sanitized, List.map_map]
      apply List.map_congr_left
      intro profile member
      have held : keyring.getPassword keychain profile.name =
          (profile.retained remembers).token := keepTokens_of_mem obeys distinct member
      change { profile with token := keyring.getPassword keychain profile.name } = _
      rw [held]
      rfl
    rw [vault, loaded, same, lookup_retained]

theorem vault_setActive (keyring : Keyring Chain) (kept : Kept debugAssertions device)
    (active : Option String) :
    ∃ after, setActiveProfileName calm device active = (after, .ok ()) ∧
      Kept debugAssertions after ∧
      vault keyring after = { vault keyring device with active } :=
  ⟨_, rfl, ⟨kept.distinct, kept.secure, rfl⟩, rfl⟩

theorem vault_change (obeys : keyring.Obeys remembers) {change : List Profile → List Profile}
    (distinct : (names (change (loaded keyring device))).Nodup)
    (valid : validateAll debugAssertions (change (loaded keyring device)) = .ok ()) :
    ∃ after, changeProfiles keyring debugAssertions calm device change = (after, .ok ()) ∧
      Kept debugAssertions after ∧
      vault keyring after = ⟨fun name => (lookup (change (loaded keyring device)) name).map
        (Profile.retained remembers), device.store.active⟩ :=
  loaded_saveProfiles obeys device distinct valid

/-- The device where the vault is, and its answer as the vault shows it. -/
def Agrees (keyring : Keyring Chain) (debugAssertions : Bool)
    (outcome : Device Chain × Except String (Reply (List Profile)))
    (expected : Vault × Except String (Reply (String → Option Profile))) : Prop :=
  Kept debugAssertions outcome.1 ∧
    (vault keyring outcome.1, outcome.2.map Reply.shown) = expected

theorem vault_upsert (obeys : keyring.Obeys remembers) (kept : Kept debugAssertions device)
    (change : Profile → Profile) (fresh : Profile)
    (changed : ∀ profile, profile.name = fresh.name → change profile = fresh) :
    ∃ after saved, changeProfiles keyring debugAssertions calm device
        (upsert fresh.name change fresh) = (after, saved) ∧
      Kept debugAssertions after ∧
      (vault keyring device).put remembers debugAssertions fresh =
        (vault keyring after, saved) := by
  have checked := validateAll_upsert changed (kept.secure_loaded keyring)
  cases valid : validateServerUrl debugAssertions fresh.serverUrl with
  | error message =>
      refine ⟨device, .error message, ?_, kept, ?_⟩
      · rw [changeProfiles, loadProfiles_calm]
        dsimp only
        rw [saveProfiles, checked, valid]
      · rw [Vault.put, valid]
  | ok =>
      rw [valid] at checked
      obtain ⟨after, saved, keptAfter, viewed⟩ :=
        vault_change obeys (nodup_upsert rfl changed kept.distinct_loaded) checked
      refine ⟨after, .ok (), saved, keptAfter, ?_⟩
      rw [Vault.put, valid, viewed, lookup_upsert rfl changed]
      have accounts : (fun name => (Function.update (lookup (loaded keyring device)) fresh.name
          (some fresh) name).map (Profile.retained remembers)) =
          Function.update (lookup (loaded keyring device)) fresh.name
            (some (fresh.retained remembers)) := by
        funext name
        rw [Function.update_apply, Function.update_apply]
        split
        next => rfl
        next => exact lookup_of_retained (fun _ member => retained_loaded obeys member) name
      rw [accounts]
      rfl

theorem agrees_login (obeys : keyring.Obeys remembers) (kept : Kept debugAssertions device)
    (serverUrl email : String) (answer : Except String String) :
    Agrees keyring debugAssertions
      (login keyring debugAssertions calm device serverUrl email answer)
      ((vault keyring device).execute remembers debugAssertions
        (.login serverUrl email answer)) := by
  cases answer with
  | error message => exact ⟨kept, rfl⟩
  | ok token =>
      let url := trimSlashes serverUrl
      obtain ⟨after, saved, changed, keptAfter, put⟩ := vault_upsert obeys kept
        (fun profile => { profile with serverUrl := url, email, token := some token })
        ⟨profileNameFor url, url, email, some token⟩ (fun profile same => by
          dsimp only at same
          rw [← same])
      have upserted : upsertProfile keyring debugAssertions calm device (profileNameFor url) url
          email token = (after, saved) := changed
      rw [login, Vault.execute]
      dsimp only
      rw [upserted, put]
      cases saved with
      | error message => exact ⟨keptAfter, rfl⟩
      | ok =>
          obtain ⟨last, set, keptLast, viewed⟩ :=
            vault_setActive keyring keptAfter (some (profileNameFor url))
          dsimp only
          rw [set]
          exact ⟨keptLast, by rw [viewed]; rfl⟩

-- The profiles are saved before the active name is cleared, so there is a device in between.
theorem agrees_logout (obeys : keyring.Obeys remembers) (kept : Kept debugAssertions device) :
    Agrees keyring debugAssertions (logout keyring debugAssertions calm device)
      ((vault keyring device).execute remembers debugAssertions .logout) := by
  have retained : ∀ profile ∈ loaded keyring device, profile.retained remembers = profile :=
    fun _ member => retained_loaded obeys member
  have left : ∃ between, saveProfiles keyring debugAssertions calm device
      (device.store.active.elim (loaded keyring device) fun name =>
        forget name (loaded keyring device)) = (between, .ok ()) ∧
      Kept debugAssertions between ∧
      vault keyring between =
        device.store.active.elim (vault keyring device) (vault keyring device).quit := by
    cases device.store.active with
    | none =>
        obtain ⟨between, saved, keptBetween, viewed⟩ := loaded_saveProfiles obeys device
          kept.distinct_loaded (validateAll_of_secure (kept.secure_loaded keyring))
        refine ⟨between, saved, keptBetween, ?_⟩
        rw [viewed, funext (lookup_of_retained retained)]
        rfl
    | some name =>
        have distinct : (names (forget name (loaded keyring device))).Nodup := by
          rw [names_forget]
          exact kept.distinct_loaded
        have secure : ∀ profile ∈ forget name (loaded keyring device),
            validateServerUrl debugAssertions profile.serverUrl = .ok () :=
          forall_forget (fun _ secure => secure) (kept.secure_loaded keyring)
        have forgotten : ∀ profile ∈ forget name (loaded keyring device),
            profile.retained remembers = profile := by
          apply forall_forget _ retained
          intro profile _
          simp [Profile.retained]
        obtain ⟨between, saved, keptBetween, viewed⟩ :=
          loaded_saveProfiles obeys device distinct (validateAll_of_secure secure)
        refine ⟨between, saved, keptBetween, ?_⟩
        rw [viewed, funext (lookup_of_retained forgotten), lookup_forget]
        rfl
  obtain ⟨between, saved, keptBetween, viewed⟩ := left
  obtain ⟨last, set, keptLast, viewedLast⟩ :=
    vault_setActive keyring keptBetween none
  rw [logout, loadProfiles_calm, activeProfileName_calm]
  dsimp only
  rw [saved]
  dsimp only
  rw [set]
  refine ⟨keptLast, ?_⟩
  rw [viewedLast, viewed]
  rfl

theorem agrees_removeProfile (obeys : keyring.Obeys remembers)
    (kept : Kept debugAssertions device) (name : String) :
    Agrees keyring debugAssertions (removeProfile keyring debugAssertions calm device name)
      ((vault keyring device).execute remembers debugAssertions (.removeProfile name)) := by
  have distinct : (names ((loaded keyring device).filter (·.name != name))).Nodup :=
    kept.distinct_loaded.sublist (List.Sublist.map _ List.filter_sublist)
  have secure : ∀ profile ∈ (loaded keyring device).filter (·.name != name),
      validateServerUrl debugAssertions profile.serverUrl = .ok () :=
    fun profile member => kept.secure_loaded keyring profile (List.mem_filter.mp member).1
  have retained : ∀ profile ∈ (loaded keyring device).filter (·.name != name),
      profile.retained remembers = profile :=
    fun profile member => retained_loaded obeys (List.mem_filter.mp member).1
  obtain ⟨after, changed, keptAfter, viewed⟩ :=
    vault_change obeys distinct (validateAll_of_secure secure)
  have active : after.store.active = (vault keyring device).active :=
    congrArg Vault.active viewed
  rw [removeProfile, changed, Vault.execute]
  dsimp only
  rw [activeProfileName_calm, active]
  dsimp only
  rw [funext (lookup_of_retained retained), lookup_filter] at viewed
  by_cases isActive : (vault keyring device).active = some name
  · obtain ⟨last, set, keptLast, viewedLast⟩ :=
      vault_setActive keyring keptAfter none
    rw [if_pos isActive, if_pos isActive, set]
    refine ⟨keptLast, ?_⟩
    rw [viewedLast, viewed]
    rfl
  · rw [if_neg isActive, if_neg isActive]
    refine ⟨keptAfter, ?_⟩
    rw [viewed]
    rfl

theorem agrees_execute (obeys : keyring.Obeys remembers) (kept : Kept debugAssertions device)
    (command : Command) :
    Agrees keyring debugAssertions (execute keyring debugAssertions calm device command)
      ((vault keyring device).execute remembers debugAssertions command) := by
  cases command with
  | login serverUrl email answer => exact agrees_login obeys kept serverUrl email answer
  | logout => exact agrees_logout obeys kept
  | getSession => exact ⟨kept, rfl⟩
  | listProfiles => exact ⟨kept, rfl⟩
  | saveProfile profile =>
      obtain ⟨after, saved, changed, keptAfter, put⟩ :=
        vault_upsert obeys kept (fun _ => profile) profile fun _ _ => rfl
      have upserted : saveProfile keyring debugAssertions calm device profile = (after, saved) :=
        changed
      rw [execute, Vault.execute, upserted, put]
      refine ⟨keptAfter, ?_⟩
      cases saved <;> rfl
  | setActiveProfile name =>
      obtain ⟨after, set, keptAfter, viewed⟩ :=
        vault_setActive keyring kept (some name)
      rw [execute, set]
      exact ⟨keptAfter, by rw [viewed]; rfl⟩
  | removeProfile name => exact agrees_removeProfile obeys kept name

theorem commutes_perform (obeys : keyring.Obeys remembers) (debugAssertions : Bool) {event : Event}
    (quiet : event.IsCalm) :
    Commutes (perform keyring debugAssertions) (Vault.perform remembers debugAssertions)
      (vault keyring) (Option.map (Except.map Reply.shown)) (Kept debugAssertions) event := by
  cases event with
  | runs command conditions =>
      cases quiet
      refine ⟨fun device kept => (agrees_execute obeys kept command).1, ?_⟩
      intro device kept
      have agrees := (agrees_execute obeys kept command).2
      rw [perform, Vault.perform, ← agrees]
      rfl
  | saves =>
      refine ⟨fun device kept => ⟨kept.distinct, kept.secure, rfl⟩, ?_⟩
      intro device kept
      rfl
  | starts =>
      -- The disk says what the store says, so a start changes nothing.
      have back : ∀ device : Device Chain, Kept debugAssertions device →
          perform keyring debugAssertions device .starts = (device, none) := by
        rintro ⟨store, disk, keychain⟩ kept
        cases kept.settled
        rfl
      constructor
      · intro device kept
        rw [back device kept]
        exact kept
      · intro device kept
        rw [back device kept]
        rfl

/-- While nothing fails, a device answers as one account by name, through saves and starts; with the
tokens if the keychain keeps them, and without any if it keeps nothing. -/
theorem device_answers_as_vault (obeys : keyring.Obeys remembers)
    (kept : Kept debugAssertions device) {events : List Event}
    (quiet : ∀ event ∈ events, event.IsCalm) :
    (outputs (perform keyring debugAssertions) device events).map
        (Option.map (Except.map Reply.shown)) =
      outputs (Vault.perform remembers debugAssertions) (vault keyring device) events := by
  apply outputs_eq_of_commutes _ kept
  intro event member
  exact commutes_perform obeys debugAssertions (quiet event member)

theorem kept_freshDevice (debugAssertions : Bool) (keychain : Chain) :
    Kept debugAssertions (freshDevice keychain) :=
  ⟨List.nodup_nil, (fun _ impossible => nomatch impossible), rfl⟩

def loginAndStart : List Event :=
  [.runs (.login "https://pics.example/" "ann@pics.example" (.ok "first")) calm, .starts,
    .runs .getSession calm]

theorem calm_loginAndStart : ∀ event ∈ loginAndStart, event.IsCalm := by
  intro event member
  simp only [loginAndStart, List.mem_cons, List.not_mem_nil, or_false] at member
  rcases member with rfl | rfl | rfl
  · rfl
  · trivial
  · rfl

/-- After a start the session is there, unless the keychain is the mock. -/
theorem login_remembered :
    ((outputs (perform .system false) (freshDevice fun _ => none) loginAndStart).map
        (Option.map (Except.map Reply.shown)) =
      outputs (Vault.perform true false) (vault .system (freshDevice fun _ => none))
        loginAndStart ∧
      (outputs (perform .system false) (freshDevice fun _ => none) loginAndStart)[2]? =
        some (some (.ok (.session (some
          ⟨"pics.example", "https://pics.example", "ann@pics.example", "first"⟩))))) ∧
    (outputs (perform .mock false) (freshDevice ()) loginAndStart).map
        (Option.map (Except.map Reply.shown)) =
      outputs (Vault.perform false false) (vault .mock (freshDevice ())) loginAndStart ∧
      (outputs (perform .mock false) (freshDevice ()) loginAndStart)[2]? =
        some (some (.ok (.session none))) := by
  refine ⟨⟨?_, ?_⟩, ?_, ?_⟩
  · exact device_answers_as_vault Keyring.obeys_system (kept_freshDevice false _)
      calm_loginAndStart
  · rfl
  · exact device_answers_as_vault Keyring.obeys_mock (kept_freshDevice false _)
      calm_loginAndStart
  · rfl

/-- The event is about other names. -/
def Spares (name : String) (active : Option String) : Event → Prop
  | .runs (.login serverUrl _ (.ok _)) _ => profileNameFor (trimSlashes serverUrl) ≠ name
  | .runs .logout _ => active ≠ some name
  | .runs (.saveProfile profile) _ => profile.name ≠ name
  | .runs (.removeProfile other) _ => other ≠ name
  | _ => True

theorem Vault.accounts_put (vault : Vault) (account : Profile) {name : String}
    (other : account.name ≠ name) :
    (vault.put remembers debugAssertions account).1.accounts name = vault.accounts name := by
  rw [put]
  split
  next => rfl
  next => exact Function.update_of_ne (Ne.symm other) _ _

theorem Vault.accounts_of_spares {vault : Vault} {event : Event} {name : String}
    (spares : Spares name vault.active event) :
    (vault.perform remembers debugAssertions event).1.accounts name = vault.accounts name := by
  cases event with
  | saves => rfl
  | starts => rfl
  | runs command conditions =>
      cases command with
      | login serverUrl email answer =>
          cases answer with
          | error message => rfl
          | ok token =>
              change profileNameFor (trimSlashes serverUrl) ≠ name at spares
              have put : (vault.put remembers debugAssertions
                  ⟨profileNameFor (trimSlashes serverUrl), trimSlashes serverUrl, email,
                    some token⟩).1.accounts name = _ :=
                accounts_put vault _ spares
              rw [perform, execute]
              dsimp only
              split
              next after message refused =>
                rw [refused] at put
                exact put
              next after saved =>
                rw [saved] at put
                exact put
      | logout =>
          change (vault.active.elim vault vault.quit).accounts name = _
          cases isActive : vault.active with
          | none => rfl
          | some other =>
              apply Function.update_of_ne
              rintro rfl
              exact spares isActive
      | getSession => rfl
      | listProfiles => rfl
      | saveProfile profile => exact accounts_put vault profile spares
      | setActiveProfile other => rfl
      | removeProfile other => exact Function.update_of_ne (Ne.symm spares) _ _

theorem Vault.accounts_login (remembers : Bool) (vault : Vault) (email token : String)
    {serverUrl : String}
    (secure : validateServerUrl debugAssertions (trimSlashes serverUrl) = .ok ()) :
    (vault.execute remembers debugAssertions (.login serverUrl email (.ok token))).1.accounts
        (profileNameFor (trimSlashes serverUrl)) =
      some (Profile.retained remembers
        ⟨profileNameFor (trimSlashes serverUrl), trimSlashes serverUrl, email, some token⟩) := by
  simp only [execute, put, secure]
  rw [Function.update_self]

/-- A login is there to come back to, whatever is done about other servers in between, if the
keychain keeps its token; if it keeps nothing, there is no session. -/
theorem session_survives (obeys : keyring.Obeys remembers) (kept : Kept debugAssertions device)
    {serverUrl email token : String}
    (secure : validateServerUrl debugAssertions (trimSlashes serverUrl) = .ok ())
    {events : List Event}
    (quiet : ∀ event ∈ events, event.IsCalm)
    (spared : Meets (step keyring debugAssertions) (fun device event =>
      Spares (profileNameFor (trimSlashes serverUrl)) device.store.active event)
        (login keyring debugAssertions calm device serverUrl email (.ok token)).1 events)
    {last : Device Chain}
    (reached : run (step keyring debugAssertions)
      (login keyring debugAssertions calm device serverUrl email (.ok token)).1 events =
        some last) :
    getSession keyring calm (execute keyring debugAssertions calm last
        (.setActiveProfile (profileNameFor (trimSlashes serverUrl)))).1 =
      .ok (if remembers then
        some ⟨profileNameFor (trimSlashes serverUrl), trimSlashes serverUrl, email, token⟩
      else none) := by
  obtain ⟨keptStart, viewedStart⟩ := agrees_login obeys kept serverUrl email (.ok token)
  have start := Vault.accounts_login remembers (vault keyring device) email token secure
  rw [← viewedStart] at start
  generalize profileNameFor (trimSlashes serverUrl) = name at *
  have survived : Kept debugAssertions last ∧ (vault keyring last).accounts name =
      some (Profile.retained remembers ⟨name, trimSlashes serverUrl, email, some token⟩) := by
    apply run_invariant_of_meets _ _ (spared.and quiet) ⟨keptStart, start⟩ reached
    rintro before event next ⟨spares, isCalm⟩ ⟨keptBefore, held⟩ stepped
    cases stepped
    have commutes := commutes_perform obeys debugAssertions isCalm
    refine ⟨commutes.kept before keptBefore, ?_⟩
    have same : vault keyring (perform keyring debugAssertions before event).1 =
        ((vault keyring before).perform remembers debugAssertions event).1 :=
      congrArg Prod.fst (commutes.viewed before keptBefore)
    rw [same, ← held]
    exact Vault.accounts_of_spares spares
  obtain ⟨after, set, keptAfter, viewed⟩ :=
    vault_setActive keyring survived.1 (some name)
  have session : getSession keyring calm (setActiveProfileName calm last (some name)).1 =
      .ok (if remembers then some ⟨name, trimSlashes serverUrl, email, token⟩ else none) := by
    rw [set, getSession_calm, viewed, Vault.session]
    dsimp only
    rw [Option.bind_some, survived.2]
    cases remembers <;> rfl
  exact session

/-- Another server is logged in to and left again, and the client started. -/
def elsewhere : List Event :=
  [.runs (.login "https://home.example" "ann@home.example" (.ok "second")) calm,
    .runs .logout calm, .starts]

theorem login_outlasts_another :
    ∃ last, run (step .system false) (login .system false calm (freshDevice fun _ => none)
        "https://pics.example/" "ann@pics.example" (.ok "first")).1 elsewhere = some last ∧
      getSession .system calm (execute .system false calm last
          (.setActiveProfile (profileNameFor (trimSlashes "https://pics.example/")))).1 =
        .ok (if true then some ⟨profileNameFor (trimSlashes "https://pics.example/"),
          trimSlashes "https://pics.example/", "ann@pics.example", "first"⟩ else none) := by
  obtain ⟨last, reached⟩ := exists_run (exists_step .system false)
    (login .system false calm (freshDevice fun _ => none) "https://pics.example/"
      "ann@pics.example" (.ok "first")).1 elsewhere
  refine ⟨last, reached, session_survives Keyring.obeys_system (kept_freshDevice false _)
    (by decide) ?_ ?_ reached⟩
  · intro event member
    simp only [elsewhere, List.mem_cons, List.not_mem_nil, or_false] at member
    rcases member with rfl | rfl | rfl
    · rfl
    · rfl
    · trivial
  · have apart : profileNameFor (trimSlashes "https://home.example") ≠
        profileNameFor (trimSlashes "https://pics.example/") := by decide
    refine ⟨apart, ?_⟩
    intro between stepped
    cases stepped
    refine ⟨?_, fun _ _ => ⟨trivial, fun _ _ => trivial⟩⟩
    have active : (perform .system false
        (login .system false calm (freshDevice fun _ => none) "https://pics.example/"
          "ann@pics.example" (.ok "first")).1
        (.runs (.login "https://home.example" "ann@home.example" (.ok "second")) calm)
          ).1.store.active ≠ some (profileNameFor (trimSlashes "https://pics.example/")) := by
      decide
    exact active

end Calm

end Picroom.Desktop
