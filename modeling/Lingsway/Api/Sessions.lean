import Lingsway.Library.Concurrent
import Lingsway.Library.Table
import Lingsway.Providers.Base

/-!
# Bearer tokens and their sessions

The requests of one customer, each in a session of the database. A plain read
sees the tables as its transaction first saw them, a locking read the latest
commit. An object that a session has loaded is not loaded again.
-/
namespace Lingsway.Api.Sessions

open Library Program

/-- A hash in the format of `hash_password`, identified by what it is made of. -/
structure PasswordHash where
  password : String
  salt : String
  deriving Repr, DecidableEq

def hashPassword (password salt : String) : Except Exn PasswordHash :=
  if password.length < 10 then .error ⟨.valueError, "Password must contain at least 10 characters"⟩
  else .ok ⟨password, salt⟩

def verifyPassword (password : String) (encoded : PasswordHash) : Bool := password = encoded.password

structure CustomerRow where
  passwordHash : PasswordHash
  active : Bool
  deriving Repr, DecidableEq

/-- A row of `jwt_sessions`, under its `jti`. `verified` is a record of how many changes of the
password had been committed when its login read the hash. -/
structure SessionRow where
  customerId : ℕ
  expiresAt : Timestamp
  revokedAt : Option Timestamp
  revokeReason : Option String
  verified : ℕ
  deriving Repr, DecidableEq

inductive Request where
  | login (password : String)
  | logout (token : Option ℕ)
  | changePassword (token : Option ℕ) (currentPassword newPassword : String)
  | authenticated (token : Option ℕ)
  deriving Repr, DecidableEq

inductive Call where
  | receive
  | decodeAccessToken (token : ℕ)
  | findCustomer
  | getSession (jti : ℕ)
  | now
  | tokenBytes
  | tokenUrlsafe
  | insertSession (jti : ℕ) (expiresAt : Timestamp)
  | revokeSession (jti : ℕ) (now : Timestamp) (reason : String)
  | lockCustomer
  | flushPassword (hash : PasswordHash)
  | lockSessions
  | commitChange (hash : PasswordHash) (jtis : List ℕ) (now : Timestamp) (reason : String)

@[reducible] def Call.Answer : Call → Type
  | receive => Request
  | decodeAccessToken _ => Unit
  | findCustomer => Option CustomerRow
  | getSession _ => Option SessionRow
  | now => Timestamp
  | tokenBytes => String
  | tokenUrlsafe => ℕ
  | insertSession _ _ => Unit
  | revokeSession _ _ _ => Unit
  | lockCustomer => Option CustomerRow
  | flushPassword _ => Unit
  | lockSessions => List ℕ
  | commitChange _ _ _ _ => Unit

abbrev calls : Signature := ⟨Call, Call.Answer⟩

abbrev Work := Program calls Exn

def perform (c : Call) : Work c.Answer := Program.perform (S := calls) c

def httpError (statusCode detail : String) : Exn := ⟨.other "HTTPException", statusCode ++ ": " ++ detail⟩

section Endpoints

/-- The checks of a session, in `get_auth_context`. -/
def accepts (customerId : ℕ) (now : Timestamp) (row : SessionRow) : Bool :=
  row.customerId = customerId && row.revokedAt.isNone && now < row.expiresAt

/-- A token that is decoded names its session. -/
def getAuthContext (customerId : ℕ) (token : Option ℕ) : Work (CustomerRow × ℕ × SessionRow) := do
  match token with
  | none => raise (httpError "401" "Authentication required")
  | some jti => do
    perform (.decodeAccessToken jti)
    let found ← perform .findCustomer
    match found.filter CustomerRow.active with
    | none => raise (httpError "401" "Inactive account")
    | some customer => do
      let session ← perform (.getSession jti)
      let now ← perform .now
      match session.filter (accepts customerId now) with
      | none => raise (httpError "401" "Token revoked")
      | some session => return (customer, jti, session)

def issueAccessToken : Work ℕ := do
  let now ← perform .now
  let jti ← perform .tokenUrlsafe
  perform (.insertSession jti (now + minutes 60))
  return jti

def login (password : String) : Work ℕ := do
  let found ← perform .findCustomer
  match found.filter fun customer => verifyPassword password customer.passwordHash with
  | none => raise (httpError "401" "Invalid credentials")
  | some customer =>
    if customer.active then issueAccessToken else raise (httpError "401" "Inactive account")

def revokeSession (jti : ℕ) (session : SessionRow) (reason : String) : Work Unit :=
  if session.revokedAt = none then do
    let now ← perform .now
    perform (.revokeSession jti now reason)
  else return ()

def logout (customerId : ℕ) (token : Option ℕ) : Work Unit := do
  let (_, jti, session) ← getAuthContext customerId token
  revokeSession jti session "LOGOUT"

/-- The new hash and the revocations are one transaction. -/
def revokeCustomerSessions (hash : PasswordHash) (reason : String) : Work ℕ := do
  let jtis ← perform .lockSessions
  let now ← perform .now
  perform (.commitChange hash jtis now reason)
  return jtis.length

def changePassword (customerId : ℕ) (token : Option ℕ) (currentPassword newPassword : String) : Work Unit := do
  let _ ← getAuthContext customerId token
  let found ← perform .lockCustomer
  match found.filter fun customer => verifyPassword currentPassword customer.passwordHash with
  | none => raise (httpError "400" "Current password is incorrect")
  | some _ => do
    let salt ← perform .tokenBytes
    let hash ← ofExcept (hashPassword newPassword salt)
    perform (.flushPassword hash)
    let _ ← revokeCustomerSessions hash "PASSWORD_CHANGED"
    return ()

/-- One request, with the token that a login returns. -/
def handle (customerId : ℕ) : Work (Option ℕ) := do
  match ← perform .receive with
  | .login password => some <$> login password
  | .logout token => (fun _ => none) <$> logout customerId token
  | .changePassword token currentPassword newPassword =>
    (fun _ => none) <$> changePassword customerId token currentPassword newPassword
  | .authenticated token => (fun _ => none) <$> getAuthContext customerId token

end Endpoints

section Store

/-- The committed rows, the change that holds the lock on the customer's row with the sessions
it has locked, and a count of the changes that have been committed. -/
structure Store where
  customer : Option CustomerRow
  sessions : Table SessionRow
  holder : Option ℕ
  lockedSessions : List ℕ
  changes : ℕ

/-- A session: what its transaction sees, and the customer it has loaded. `verified` and
`known` are a record of the changes and of the sessions at its reads. -/
structure Handling where
  seen : Option Store
  customer : Option CustomerRow
  verified : ℕ
  known : List ℕ

def Handling.begin : Handling := ⟨none, none, 0, []⟩

abbrev State := Store × Handling

inductive CommitEnd where
  | done
  | lost (error : Exn)
  | failed (error : Exn)
  deriving Repr, DecidableEq

@[reducible] def Call.Choice : Call → Type
  | receive => Request
  | decodeAccessToken _ => Option Exn
  | findCustomer => Option Exn
  | getSession _ => Option Exn
  | now => Timestamp
  | tokenBytes => String
  | tokenUrlsafe => ℕ
  | insertSession _ _ => CommitEnd
  | revokeSession _ _ _ => CommitEnd
  | lockCustomer => Option Exn
  | flushPassword _ => Option Exn
  | lockSessions => Option Exn
  | commitChange _ _ _ _ => CommitEnd

def viewOf (w : State) : Store := w.2.seen.getD w.1

def SessionRow.revoke (now : Timestamp) (reason : String) (row : SessionRow) : SessionRow :=
  { row with revokedAt := some now, revokeReason := some reason }

def revokeAll (jtis : List ℕ) (now : Timestamp) (reason : String) (sessions : Table SessionRow) : Table SessionRow where
  get := fun jti => if jti ∈ jtis then (sessions.get jti).map (SessionRow.revoke now reason) else sessions.get jti
  next := sessions.next
  unused := fun jti h => by
    rw [sessions.unused jti h]
    split_ifs <;> rfl

/-- A commit takes effect unless it fails. -/
def committed (commit : CommitEnd) (after : State) (w : State) : Except Exn Unit × State :=
  match commit with
  | .done => (.ok (), after)
  | .lost e => (.error e, after)
  | .failed e => (.error e, w)

def outcome {α : Type} (failure : Option Exn) (a : α) : Except Exn α := failure.elim (.ok a) .error

/-- The sessions of the customer that are not revoked. -/
def liveSessions (customerId : ℕ) (s : Store) : List ℕ :=
  (s.sessions.entities.filter fun e => e.row.customerId = customerId && e.row.revokedAt.isNone).map Entity.id

def insertSession (customerId jti : ℕ) (expiresAt : Timestamp) (commit : CommitEnd) (w : State) : Except Exn Unit × State :=
  if (w.1.sessions.get jti).isSome then (.error ⟨.integrityError, "jwt_sessions.PRIMARY"⟩, w)
  else
    let row : SessionRow := ⟨customerId, expiresAt, none, none, w.2.verified⟩
    committed commit ({ w.1 with sessions := w.1.sessions.insert jti row }, { w.2 with seen := none }) w

/-- A locking read returns the customer that the session has loaded. -/
def lockCustomer (i : ℕ) (failure : Option Exn) (w : State) : Except Exn (Option CustomerRow) × State :=
  match failure with
  | some e => (.error e, w)
  | none => (.ok (w.2.customer.or w.1.customer), ({ w.1 with holder := some i }, w.2))

def lockSessions (customerId : ℕ) (failure : Option Exn) (w : State) : Except Exn (List ℕ) × State :=
  match failure with
  | some e => (.error e, w)
  | none =>
    (.ok (liveSessions customerId w.1), ({ w.1 with lockedSessions := liveSessions customerId w.1 },
      { w.2 with known := w.1.sessions.entities.map Entity.id }))

def act (customerId i : ℕ) : (c : Call) → c.Choice → State → Except Exn c.Answer × State
  | .receive, (request : Request), w => (.ok request, w)
  | .decodeAccessToken _, (failure : Option Exn), w => (outcome failure (), w)
  | .findCustomer, (failure : Option Exn), w =>
    (outcome failure (viewOf w).customer, (w.1, { w.2 with
      seen := some (viewOf w), customer := (viewOf w).customer, verified := (viewOf w).changes }))
  | .getSession jti, (failure : Option Exn), w => (outcome failure ((viewOf w).sessions.get jti), w)
  | .now, (now : Timestamp), w => (.ok now, w)
  | .tokenBytes, (salt : String), w => (.ok salt, w)
  | .tokenUrlsafe, (jti : ℕ), w => (.ok jti, w)
  | .insertSession jti expiresAt, (commit : CommitEnd), w => insertSession customerId jti expiresAt commit w
  | .revokeSession jti now reason, (commit : CommitEnd), w =>
    committed commit ({ w.1 with sessions := revokeAll [jti] now reason w.1.sessions }, { w.2 with seen := none }) w
  | .lockCustomer, (failure : Option Exn), w => lockCustomer i failure w
  | .flushPassword _, (failure : Option Exn), w => (outcome failure (), w)
  | .lockSessions, (failure : Option Exn), w => lockSessions customerId failure w
  | .commitChange hash jtis now reason, (commit : CommitEnd), w =>
    committed commit (⟨w.1.customer.map fun customer => { customer with passwordHash := hash },
      revokeAll jtis now reason w.1.sessions, none, [], w.1.changes + 1⟩, { w.2 with seen := none }) w

/-- A session that is closed gives up its locks. -/
def leave (i : ℕ) (s : Store) : Store :=
  if s.holder = some i then { s with holder := none, lockedSessions := [] } else s

def sessions (customerId : ℕ) : Agents calls Exn Store Handling where
  Choice := Call.Choice
  act := act customerId
  leave := leave

/-- Locked rows are waited for. -/
def Unlocked (i : ℕ) (c : Call) (s : Store) : Prop :=
  match c with
  | .lockCustomer => s.holder = none ∨ s.holder = some i
  | .revokeSession jti _ _ => jti ∈ s.lockedSessions → s.holder = some i
  | _ => True

def lawful : Conduct calls Exn Store Handling := ⟨fun i c w _ _ => Unlocked i c w.1, fun _ _ => True⟩

/-- No change is committed between a login's read of the hash and the commit of its session. No
session is committed between a change's read of the sessions and its commit. A session that
is read is as it was when the transaction began. -/
def InTime (c : Call) (w : State) : Prop :=
  match c with
  | .insertSession _ _ => w.2.verified = w.1.changes
  | .commitChange _ _ _ _ => ∀ jti, (w.1.sessions.get jti).isSome = true → jti ∈ w.2.known
  | .getSession jti => (viewOf w).sessions.get jti = w.1.sessions.get jti
  | _ => True

def timely : Conduct calls Exn Store Handling := ⟨fun i c w _ _ => Unlocked i c w.1 ∧ InTime c w, fun _ _ => True⟩

/-- No request is being handled, and no change has been counted. -/
def Start (s : Store) : Prop := s.holder = none ∧ s.changes = 0 ∧ ∀ jti row, s.sessions.get jti = some row → row.verified = 0

abbrev Requests := Configuration calls Exn (Option ℕ) Store Handling

abbrev StepBy (K : Conduct calls Exn Store Handling) (customerId : ℕ) : Requests → Requests → Prop :=
  Agents.Step (sessions customerId) K (handle customerId) Handling.begin

abbrev ReachableBy (K : Conduct calls Exn Store Handling) (customerId : ℕ) (g : Requests) : Prop :=
  Agents.Reachable (sessions customerId) K (handle customerId) Handling.begin Start g

end Store

end Lingsway.Api.Sessions
