import Picroom.Api.RateLimit
import Picroom.Session.Login

/-!
# What a failed login reveals

Two user tables, the same request and the same limiter.  Rejected credentials get one answer for
an unknown email, a wrong password and a disabled account; a row without a password does not
decode, and gets another.
-/

namespace Picroom.AuthHandlers

open Relational

/-- `login` up to and including the password check; `client` is `client_key`. -/
def login (verifyPassword : String → String → Except String Bool) (limiter : AuthRateLimiter)
    (windows : Windows) (userRepo : Option UserTable) (client : String) (now : Instant)
    (email password : String) : Windows × Except ApiError CheckedAccount :=
  match limiter.recordAt windows ⟨now, client, email⟩ with
  | (recorded, some retryAfter) =>
      (recorded, .error (.tooManyRequests retryAfter.toNat "too many authentication attempts"))
  | (recorded, none) =>
      (recorded, match userRepo with
        | none => .error (.internal "user repository not configured")
        | some users => loginLookup verifyPassword users email password)

/-- `email VARCHAR(254) UNIQUE`. -/
def UniqueEmails (users : UserTable) : Prop := (users.rows.map UserRow.email).Nodup

/-- The credentials of an enabled account. -/
def Valid (verifyPassword : String → String → Except String Bool) (users : UserTable)
    (email password : String) : Prop :=
  ∃ row ∈ users, row.email = email ∧ row.disabled = false ∧
    ∃ hash, row.passwordHash = some hash ∧ verifyPassword password hash = .ok true

/-- The hashes that verification is asked about are ones it can read. -/
def WellFormed (verifyPassword : String → String → Except String Bool) (users : UserTable)
    (password : String) : Prop :=
  ∀ row ∈ users, ∀ hash, row.passwordHash = some hash →
    ∃ matched, verifyPassword password hash = .ok matched

/-- The account of the email was provisioned by an identity provider. -/
def Passwordless (users : UserTable) (email : String) : Prop :=
  ∃ row ∈ users, row.email = email ∧ row.passwordHash = none

/-- The limiter blocks this attempt. -/
def Refused (limiter : AuthRateLimiter) (windows : Windows) (attempt : Attempt) : Prop :=
  (limiter.recordAt windows attempt).2.isSome = true

variable {verifyPassword : String → String → Except String Bool} {users : UserTable}
  {email password : String}

theorem find?_email_iff (unique : UniqueEmails users) {row : UserRow} :
    users.rows.find? (·.email = email) = some row ↔ row ∈ users ∧ row.email = email := by
  constructor
  · intro found
    exact ⟨List.mem_of_find?_eq_some found, by simpa using List.find?_some found⟩
  · rintro ⟨member, same⟩
    cases found : users.rows.find? (·.email = email) with
    | none =>
        have absent := List.find?_eq_none.mp found row member
        exact absurd same (by simpa using absent)
    | some other =>
        have otherMember := List.mem_of_find?_eq_some found
        have otherEmail : other.email = email := by simpa using List.find?_some found
        exact congrArg some (List.inj_on_of_nodup_map unique otherMember member
          (otherEmail.trans same.symm))

/-- The answer to rejected credentials, by what the row of the email holds. -/
theorem loginLookup_of_invalid (unique : UniqueEmails users)
    (wellFormed : WellFormed verifyPassword users password)
    (invalid : ¬ Valid verifyPassword users email password) :
    (Passwordless users email → loginLookup verifyPassword users email password =
      .error ⟨500, "internal", "internal server error", none⟩) ∧
    (¬ Passwordless users email → loginLookup verifyPassword users email password =
      .error ⟨401, "unauthorized", "invalid credentials", none⟩) := by
  constructor
  · rintro ⟨row, member, same, noHash⟩
    have found := (find?_email_iff unique).mpr ⟨member, same⟩
    simp only [loginLookup, UserRepository.findByEmail, found, noHash]
    rfl
  · intro hashed
    cases found : users.rows.find? (·.email = email) with
    | none =>
        simp only [loginLookup, UserRepository.findByEmail, found]
        rfl
    | some row =>
        obtain ⟨member, same⟩ := (find?_email_iff unique).mp found
        cases stored : row.passwordHash with
        | none => exact absurd ⟨row, member, same, stored⟩ hashed
        | some hash =>
            obtain ⟨matched, verified⟩ := wellFormed row member hash stored
            simp only [loginLookup, UserRepository.findByEmail, found, stored, verified]
            cases disabled : row.disabled with
            | true => rfl
            | false =>
                cases matched with
                | false => rfl
                | true => exact absurd ⟨row, member, same, disabled, hash, stored, verified⟩ invalid

/-- Rejected credentials get the same answer from both tables exactly when the limiter refuses
the attempt, or the email is passwordless in both or in neither. -/
theorem same_answer_iff (verifyPassword : String → String → Except String Bool)
    (limiter : AuthRateLimiter) (windows : Windows) (client : String) (now : Instant)
    (email password : String) (first second : UserTable) (firstUnique : UniqueEmails first)
    (secondUnique : UniqueEmails second)
    (firstHashes : WellFormed verifyPassword first password)
    (secondHashes : WellFormed verifyPassword second password)
    (firstInvalid : ¬ Valid verifyPassword first email password)
    (secondInvalid : ¬ Valid verifyPassword second email password) :
    (login verifyPassword limiter windows (some first) client now email password).2 =
        (login verifyPassword limiter windows (some second) client now email password).2 ↔
      Refused limiter windows ⟨now, client, email⟩ ∨
        (Passwordless first email ↔ Passwordless second email) := by
  obtain ⟨firstFails, firstRejects⟩ :=
    loginLookup_of_invalid firstUnique firstHashes firstInvalid
  obtain ⟨secondFails, secondRejects⟩ :=
    loginLookup_of_invalid secondUnique secondHashes secondInvalid
  unfold login Refused
  cases recorded : limiter.recordAt windows ⟨now, client, email⟩ with
  | mk map answer =>
      cases answer with
      | some retryAfter => simp
      | none =>
          simp only [Option.isSome_none, Bool.false_eq_true, false_or]
          by_cases firstLess : Passwordless first email
          · by_cases secondLess : Passwordless second email
            · simp [firstFails firstLess, secondFails secondLess, firstLess, secondLess]
            · simp [firstFails firstLess, secondRejects secondLess, firstLess, secondLess]
          · by_cases secondLess : Passwordless second email
            · simp [firstRejects firstLess, secondFails secondLess, firstLess, secondLess]
            · simp [firstRejects firstLess, secondRejects secondLess, firstLess, secondLess]

section Samples

/-- The tables agree on all other accounts. -/
def SameElsewhere (email : String) (first second : UserTable) : Prop :=
  ∀ row : UserRow, row.email ≠ email → (row ∈ first ↔ row ∈ second)

/-- The verifier, for hashes of one password. -/
def oneVerifier (password _hash : String) : Except String Bool :=
  .ok (password == "correct horse battery staple")

def sampleHash : String :=
  "$argon2id$v=19$m=19456,t=2,p=1$c29tZXNhbHQ$RdescudvJCsgt3ub+b5dWRWJTmaaJObG"

def aliceRow (passwordHash : Option String) (disabled : Bool) : UserRow where
  id := ⟨1⟩
  email := "alice@example.org"
  name := "Alice"
  passwordHash := passwordHash
  role := Role.asStr .viewer
  disabled := disabled
  createdAt := 0
  roleChecked := Role.asStr_mem_columnValues .viewer

def onlyAlice (passwordHash : Option String) (disabled : Bool) : UserTable :=
  ⟨[aliceRow passwordHash disabled], List.nodup_singleton _⟩

theorem sameElsewhere_onlyAlice (passwordHash : Option String) (disabled : Bool) :
    SameElsewhere "alice@example.org" (.empty _) (onlyAlice passwordHash disabled) := by
  intro row different
  refine iff_of_false (Table.not_mem_empty row) ?_
  intro member
  cases List.mem_singleton.mp member
  exact different rfl

/-- An account without a password answers 500, an unknown email 401. -/
theorem passwordless_account_revealed :
    ¬ ∀ (verifyPassword : String → String → Except String Bool) (limiter : AuthRateLimiter)
        (windows : Windows) (client : String) (now : Instant) (email password : String)
        (first second : UserTable), UniqueEmails first → UniqueEmails second →
      SameElsewhere email first second →
      WellFormed verifyPassword first password → WellFormed verifyPassword second password →
      ¬ Valid verifyPassword first email password →
      ¬ Valid verifyPassword second email password →
      (login verifyPassword limiter windows (some first) client now email password).2 =
        (login verifyPassword limiter windows (some second) client now email password).2 := by
  intro same
  have noHash : ∀ row ∈ onlyAlice none false, row.passwordHash = none := by
    intro row member
    cases List.mem_singleton.mp member
    rfl
  have answers := same oneVerifier .disabled (.empty _) "::1" 0 "alice@example.org" "guess"
    (.empty _) (onlyAlice none false) List.nodup_nil (List.nodup_singleton _)
    (sameElsewhere_onlyAlice none false)
    (fun row member => absurd member (Table.not_mem_empty row))
    (fun row member hash stored => by rw [noHash row member] at stored; cases stored)
    (fun ⟨row, member, _⟩ => absurd member (Table.not_mem_empty row))
    (fun ⟨row, member, _, _, hash, stored, _⟩ => by rw [noHash row member] at stored; cases stored)
  exact absurd answers (by decide)

/-- A disabled account answers like an unknown email. -/
theorem disabled_account_hidden :
    (login oneVerifier .disabled (.empty _) (some (.empty _)) "::1" 0 "alice@example.org"
        "guess").2 =
      (login oneVerifier .disabled (.empty _) (some (onlyAlice (some sampleHash) true)) "::1" 0
        "alice@example.org" "guess").2 := by
  refine (same_answer_iff oneVerifier .disabled (.empty _) "::1" 0 "alice@example.org" "guess"
    (.empty _) (onlyAlice (some sampleHash) true) List.nodup_nil (List.nodup_singleton _)
    (fun row member => absurd member (Table.not_mem_empty row))
    (fun row _ hash _ => ⟨_, rfl⟩) ?_ ?_).mpr (Or.inr ?_)
  · rintro ⟨row, member, _⟩
    exact Table.not_mem_empty row member
  · rintro ⟨row, member, _, enabled, _⟩
    cases List.mem_singleton.mp member
    cases enabled
  · refine iff_of_false ?_ ?_
    · rintro ⟨row, member, _⟩
      exact Table.not_mem_empty row member
    · rintro ⟨row, member, _, stored⟩
      cases List.mem_singleton.mp member
      cases stored

end Samples

end Picroom.AuthHandlers
