import Lingsway.Library.Concurrent
import Lingsway.Providers.Base

/-!
# Versioned secrets

The transactions that write or create the secret of one reference, in sessions
that run side by side. A plain read sees a state that was committed once, a
locking read the latest commit; the row is locked from the first write or locking
read to the end of the transaction. What a caller does with an exception is not
fixed: the transaction may go on, and may be committed.
-/
namespace Lingsway.Secrets

open Library

/-- The cipher under the configured key. A token depends on its time and initialization vector. -/
structure Fernet where
  encrypt : ℕ → String → String
  decrypt : String → Option String
  decrypt_encrypt : ∀ iv plaintext, decrypt (encrypt iv plaintext) = some plaintext

structure Secret where
  ciphertext : String
  purpose : String
  revision : ℤ
  deriving Repr, DecidableEq

inductive Dialect where
  | mysql
  | other
  deriving Repr, DecidableEq

inductive Request where
  | put (plaintext purpose : String)
  | getOrCreate (purpose : String)
  deriving Repr, DecidableEq

structure Served where
  request : Request
  result : Except Exn Secret
  deriving DecidableEq

inductive Call where
  | begin
  | serve (request : Request)
  | plaintextFactory
  | encrypt (plaintext : String)
  | decrypt (ciphertext : String)
  | select (populateExisting : Bool)
  | selectForUpdate (populateExisting : Bool)
  | insertIgnore (values : Secret)
  | insertNested (values : Secret)
  | flush (values : Secret)
  | finish (served : List Served)

@[reducible] def Call.Answer : Call → Type
  | begin => List Request
  | serve _ => Unit
  | plaintextFactory => String
  | encrypt _ => String
  | decrypt _ => String
  | select _ => Option Secret
  | selectForUpdate _ => Option Secret
  | insertIgnore _ => Bool
  | insertNested _ => Unit
  | flush _ => Unit
  | finish _ => Unit

abbrev calls : Signature := ⟨Call, Call.Answer⟩

abbrev Work := Program calls Exn

def perform (c : Call) : Work c.Answer := Program.perform (S := calls) c

def secretStoreError (message : String) : Exn := ⟨.other "SecretStoreError", message⟩

def encryptSecret (plaintext : String) : Work String :=
  if plaintext = "" then .raise (secretStoreError "Secret value must not be empty")
  else perform (.encrypt plaintext)

def decryptSecret (ciphertext : String) : Work String := perform (.decrypt ciphertext)

/-- The end of each branch of `put_secret` over a locked row. -/
def settle (existing : Secret) (plaintext purpose : String) : Work Secret := do
  let current ← decryptSecret existing.ciphertext
  if current = plaintext ∧ existing.purpose = purpose then .ret existing
  else do
    let ciphertext ← encryptSecret plaintext
    perform (.flush ⟨ciphertext, purpose, existing.revision + 1⟩)
    .ret ⟨ciphertext, purpose, existing.revision + 1⟩

/-- The locking read of each branch, and what follows it. -/
def relock (populateExisting : Bool) (missing : Exn) (plaintext purpose : String) : Work Secret := do
  match ← perform (.selectForUpdate populateExisting) with
  | none => .raise missing
  | some existing => settle existing plaintext purpose

def unreadable : Exn := secretStoreError "Secret insert did not produce a readable row"

def insertMysql (plaintext purpose : String) : Work Secret := do
  let ciphertext ← encryptSecret plaintext
  let _ ← perform (.insertIgnore ⟨ciphertext, purpose, 1⟩)
  relock true unreadable plaintext purpose

/-- The savepoint insert and its recovery. -/
def insertOther (plaintext purpose : String) : Work Secret := do
  let ciphertext ← encryptSecret plaintext
  match ← (perform (.insertNested ⟨ciphertext, purpose, 1⟩)).attempt with
  | .ok _ => .ret ⟨ciphertext, purpose, 1⟩
  | .error exc => if exc.cls = .integrityError then relock false exc plaintext purpose else .raise exc

def insertSecret : Dialect → String → String → Work Secret
  | .mysql => insertMysql
  | .other => insertOther

def putSecret (dialect : Dialect) (plaintext purpose : String) : Work Secret := do
  match ← perform (.select false) with
  | some _ => relock true (secretStoreError "Secret disappeared during update") plaintext purpose
  | none => insertSecret dialect plaintext purpose

def createMysql (values : Secret) : Work (Secret × Bool) := do
  let created ← perform (.insertIgnore values)
  match ← perform (.selectForUpdate true) with
  | none => .raise unreadable
  | some winner => .ret (winner, created)

def createOther (values : Secret) : Work (Secret × Bool) := do
  match ← (perform (.insertNested values)).attempt with
  | .ok _ => .ret (values, true)
  | .error exc =>
    if exc.cls = .integrityError then do
      match ← perform (.select true) with
      | none => .raise exc
      | some winner => .ret (winner, false)
    else .raise exc

def createSecret : Dialect → Secret → Work (Secret × Bool)
  | .mysql => createMysql
  | .other => createOther

/-- The row and whether this call created it. -/
def getOrCreateSecret (dialect : Dialect) (purpose : String) : Work (Secret × Bool) := do
  match ← perform (.select true) with
  | some existing => .ret (existing, false)
  | none => do
    let plaintext ← perform .plaintextFactory
    let ciphertext ← encryptSecret plaintext
    createSecret dialect ⟨ciphertext, purpose, 1⟩

def serve (dialect : Dialect) : Request → Work Secret
  | .put plaintext purpose => putSecret dialect plaintext purpose
  | .getOrCreate purpose => do
    let result ← getOrCreateSecret dialect purpose
    .ret result.1

/-- The requests of one transaction, in order. -/
def serveAll (dialect : Dialect) : List Request → List Served → Work (List Served)
  | [], served => .ret served
  | request :: rest, served => do
    perform (.serve request)
    let result ← (serve dialect request).attempt
    serveAll dialect rest (⟨request, result⟩ :: served)

def transaction (dialect : Dialect) : Work Unit := do
  let requests ← perform .begin
  let served ← serveAll dialect requests []
  perform (.finish served)

/-- A change of the row: for which request, of what, to what. -/
structure Change where
  request : Option Request
  before : Option Secret
  after : Secret
  deriving DecidableEq

/-- A committed transaction, its changes and its results newest first. -/
structure Commit where
  changes : List Change
  served : List Served
  deriving DecidableEq

/-- The row as a transaction with these changes sees it. -/
def seenThrough (changes : List Change) (row : Option Secret) : Option Secret :=
  match changes with
  | [] => row
  | change :: _ => some change.after

/-- The row behind the commits, newest first. -/
def rowAfter (initial : Option Secret) : List Commit → Option Secret
  | [] => initial
  | commit :: earlier => seenThrough commit.changes (rowAfter initial earlier)

/-- The committed states of the row, with the transaction that holds its lock. -/
structure World where
  initial : Option Secret
  commits : List Commit
  holder : Option ℕ
  deriving DecidableEq

/-- A session. `loaded` is what its identity map has of the row. -/
structure Session where
  serving : Option Request
  loaded : Option Secret
  changes : List Change
  deriving DecidableEq

abbrev State := World × Session

def Session.fresh : Session := ⟨none, none, []⟩

namespace World

def row (w : World) : Option Secret := rowAfter w.initial w.commits

/-- All committed states, newest first. -/
def states (w : World) : List (Option Secret) := w.commits.tails.map (rowAfter w.initial)

/-- The lock of the row can be taken. -/
def free (w : World) (i : ℕ) : Bool := w.holder = none || w.holder = some i

end World

/-- What the transaction sees of the row, the others as of the `k`-th latest commit. -/
def stale (w : State) (k : ℕ) : Option Secret := seenThrough w.2.changes (w.1.states[k]?.join)

def current (w : State) : Option Secret := seenThrough w.2.changes w.1.row

/-- A mapped row keeps its loaded values unless the read populates it. -/
def mapped (l : Session) (populateExisting : Bool) (row : Secret) : Secret :=
  if populateExisting then row else l.loaded.getD row

def load (l : Session) (populateExisting : Bool) (row : Option Secret) : Option Secret × Session :=
  match row with
  | none => (none, l)
  | some row => (some (mapped l populateExisting row), { l with loaded := some (mapped l populateExisting row) })

/-- An attribute is only written when its value differs from the loaded one. -/
def assigned (loaded : Option Secret) (values row : Secret) : Secret :=
  match loaded with
  | none => values
  | some loaded =>
    ⟨if values.ciphertext = loaded.ciphertext then row.ciphertext else values.ciphertext,
      if values.purpose = loaded.purpose then row.purpose else values.purpose,
      if values.revision = loaded.revision then row.revision else values.revision⟩

def change (i : ℕ) (w : State) (loaded : Option Secret) (after : Secret) : State :=
  ({ w.1 with holder := some i },
    { w.2 with loaded := loaded, changes := ⟨w.2.serving, current w, after⟩ :: w.2.changes })

inductive Ending where
  | commit
  | rollback
  deriving DecidableEq

/-- What the outside decides about a call: its failure, the vector of the cipher, how old the
snapshot is, whether it hides the row from a locking read, and how the transaction ends. A commit
that raises may have landed. -/
@[reducible] def Call.Choice : Call → Type
  | begin => List Request × ℕ
  | serve _ => Unit
  | plaintextFactory => Except Exn String
  | encrypt _ => Except Exn ℕ
  | decrypt _ => Except Exn Unit
  | select _ => Except Exn ℕ
  | selectForUpdate _ => Except Exn Bool
  | insertIgnore _ => Except Exn Unit
  | insertNested _ => Except Exn Unit
  | flush _ => Except Exn Unit
  | finish _ => Ending × Except Exn Unit

def begins (w : State) (choice : List Request × ℕ) : Except Exn (List Request) × State :=
  (.ok choice.1, (w.1, { w.2 with loaded := w.1.states[choice.2]?.join }))

def reads (w : State) (populateExisting : Bool) (row : Option Secret) : Except Exn (Option Secret) × State :=
  let r := load w.2 populateExisting row
  (.ok r.1, (w.1, r.2))

/-- A locking read. There is nothing to lock where no row is seen. -/
def locks (i : ℕ) (w : State) (populateExisting hidden : Bool) : Except Exn (Option Secret) × State :=
  if hidden = true ∨ current w = none then (.ok none, w)
  else reads ({ w.1 with holder := some i }, w.2) populateExisting (current w)

/-- A duplicate key leaves the row and takes no lock. -/
def inserts (i : ℕ) (w : State) (loaded : Option Secret) (values : Secret) : Bool × State :=
  match current w with
  | none => (true, change i w loaded values)
  | some _ => (false, w)

def nested (result : Bool × State) : Except Exn Unit × State :=
  (if result.1 then .ok () else .error ⟨.integrityError, "UNIQUE constraint failed: secrets.secret_ref"⟩, result.2)

def flushes (i : ℕ) (w : State) (values : Secret) : Except Exn Unit × State :=
  match current w with
  | none => (.error ⟨.other "StaleDataError", ""⟩, w)
  | some row => (.ok (), change i w (some values) (assigned w.2.loaded values row))

def finishes (w : State) (served : List Served) : Ending → State
  | .commit => ({ w.1 with commits := ⟨w.2.changes, served⟩ :: w.1.commits }, w.2)
  | .rollback => w

def World.unlock (w : World) (i : ℕ) : World := if w.holder = some i then { w with holder := none } else w

def act (F : Fernet) (i : ℕ) : (c : Call) → c.Choice → State → Except Exn c.Answer × State
  | .begin, choice, w => begins w choice
  | .serve request, _, w => (.ok (), (w.1, { w.2 with serving := some request }))
  | .plaintextFactory, choice, w => (choice, w)
  | .encrypt plaintext, choice, w => (choice.map fun iv => F.encrypt iv plaintext, w)
  | .decrypt ciphertext, choice, w =>
    (choice.bind fun _ => match F.decrypt ciphertext with
      | some plaintext => .ok plaintext
      | none => .error (secretStoreError "Secret cannot be decrypted with the configured key"), w)
  | .select _, .error e, w => (.error e, w)
  | .select populateExisting, .ok k, w => reads w populateExisting (stale w k)
  | .selectForUpdate _, .error e, w => (.error e, w)
  | .selectForUpdate populateExisting, .ok hidden, w => locks i w populateExisting hidden
  | .insertIgnore _, .error e, w => (.error e, w)
  | .insertIgnore values, .ok _, w =>
    let r := inserts i w w.2.loaded values
    (.ok r.1, r.2)
  | .insertNested _, .error e, w => (.error e, w)
  | .insertNested values, .ok _, w => nested (inserts i w (some values) values)
  | .flush _, .error e, w => (.error e, w)
  | .flush values, .ok _, w => flushes i w values
  | .finish served, choice, w => (choice.2, finishes w served choice.1)

def agents (F : Fernet) : Agents calls Exn World Session where
  Choice := Call.Choice
  act := act F
  leave := fun i w => w.unlock i

/-- A write or a locking read waits for the lock. A session that has seen the row sees a row, for
rows are not deleted. -/
def conductCall (i : ℕ) : (c : Call) → State → Except Exn c.Answer → Prop
  | .select _, w, .ok row => w.2.loaded.isSome = true → row.isSome = true
  | .selectForUpdate _, w, .ok _ => w.1.free i = true
  | .insertIgnore _, w, .ok _ => w.1.free i = true
  | .insertNested _, w, .ok _ => w.1.free i = true
  | .flush _, w, .ok _ => w.1.free i = true
  | _, _, _ => True

def conduct : Conduct calls Exn World Session where
  call := fun i c w x _ => conductCall i c w x
  crash := fun _ _ => True

/-- The runs of the transactions of one reference. -/
abbrev ReachableBy (F : Fernet) (dialect : Dialect) : Configuration calls Exn Unit World Session → Prop :=
  (agents F).Reachable conduct (transaction dialect) .fresh fun w => w.commits = [] ∧ w.holder = none

end Lingsway.Secrets
