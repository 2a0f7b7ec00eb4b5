import Lingsway.Library.Rows
import Lingsway.Library.Rounding
import Lingsway.Library.JsonText
import Lingsway.Library.Text
import Lingsway.Library.Reading
import Lingsway.Providers.Base

/-!
# Attribution of Mihomo's connections

A connection belongs to the side and the host it was first seen with. What its
counters have grown by since is added to a table for each day and side, and to
another for each day, host and side.
-/
namespace Lingsway.Ops.MihomoUsage

open Library

inductive Side where
  | airport
  | residential
  deriving Repr, DecidableEq

inductive Direction where
  | upload
  | download
  deriving Repr, DecidableEq

structure Bytes where
  upload : ℤ
  download : ℤ
  deriving Repr, DecidableEq

def Bytes.of (b : Bytes) : Direction → ℤ
  | .upload => b.upload
  | .download => b.download

/-- A row of `connection_maxima`. -/
structure ConnectionMaximum where
  side : Side
  host : String
  max : Bytes
  firstSeenAt : Timestamp
  lastSeenAt : Timestamp
  deriving Repr, DecidableEq

structure CollectorState where
  lastSuccessAt : Option Timestamp
  lastErrorType : Option String
  consecutiveErrors : ℕ
  deriving Repr, DecidableEq

structure Store where
  connectionMaxima : Rows String ConnectionMaximum
  dailyUsage : Rows (ℤ × Side) Bytes
  domainUsage : Rows (ℤ × String × Side) Bytes
  collectorState : CollectorState

def freshStore : Store := ⟨∅, ∅, ∅, ⟨none, none, 0⟩⟩

/-- The library functions the collector uses, and the name of its chain. -/
structure Collector where
  toInt : Json → Except Exn ℤ
  lower : String → String
  quote : String → String
  residentialChain : String

/-- The closest number with 53 binary digits. -/
def toReal (n : ℤ) : ℤ :=
  let unit : ℤ := 2 ^ (Nat.log 2 n.natAbs - 52)
  halfEven ((n : ℚ) / unit) * unit

/-- `a + b` in SQLite: a sum that no 64 bits hold is a sum of floating point numbers. -/
def sqlitePlus (a b : ℤ) : ℤ :=
  if -2 ^ 63 ≤ a + b ∧ a + b < 2 ^ 63 then a + b else toReal (toReal a + toReal b)

/-- `item.get`, which a value other than an object does not have. -/
def fields : Json → Except Exn Members
  | .obj members => .ok members
  | other => .error ⟨.other "AttributeError", s!"'{other.typeName}' object has no attribute 'get'"⟩

section Connection

variable (c : Collector)

def normalizedHost (metadata : Json) : Except Exn String := do
  let metadata ← fields metadata
  let host := (Members.item metadata "host").orElse
    ((Members.item metadata "destinationIP").orElse (.str "UNKNOWN"))
  let host := Text.take 253 (c.lower (Text.rstripChar '.' (host.text c.quote)))
  .ok (if host = "" then "UNKNOWN" else host)

/-- `residential_chain in chains` -/
def isAmong (chain : String) : Json → Except Exn Bool
  | .arr items => .ok (items.any fun item => item.equal (.str chain))
  | .obj members => .ok (members.any fun member => member.1 = chain)
  | .str text => .ok (Text.contains chain.toList text.toList)
  | other => .error ⟨.other "TypeError", s!"argument of type '{other.typeName}' is not iterable"⟩

def classifyConnection (item : Members) : Except Exn Side := do
  let among ← isAmong c.residentialChain ((Members.item item "chains").orElse (.arr []))
  .ok (if among then .residential else .airport)

def connectionId (item : Members) : String := ((Members.item item "id").orElse (.str "")).text c.quote

def counters (item : Members) : Except Exn Bytes := do
  let upload ← c.toInt ((Members.item item "upload").orElse (.int 0))
  let download ← c.toInt ((Members.item item "download").orElse (.int 0))
  .ok ⟨max 0 upload, max 0 download⟩

/-- The numbers that a statement takes. -/
def bindable (b : Bytes) : Except Exn Unit :=
  if b.upload < 2 ^ 63 ∧ b.download < 2 ^ 63 then .ok ()
  else .error ⟨.other "OverflowError", "Python int too large to convert to SQLite INTEGER"⟩

/-- What an item is attributed to, and what it adds. -/
structure Attribution where
  side : Side
  host : String
  delta : Bytes
  deriving Repr, DecidableEq

def firstSeen (item : Members) (seen : Bytes) (timestamp : Timestamp) : Except Exn ConnectionMaximum := do
  let side ← classifyConnection c item
  let host ← normalizedHost c ((Members.item item "metadata").orElse (.obj []))
  bindable seen
  .ok ⟨side, host, seen, timestamp, timestamp⟩

def ConnectionMaximum.seenAgain (existing : ConnectionMaximum) (seen : Bytes) (timestamp : Timestamp) :
    ConnectionMaximum :=
  { existing with
    max := ⟨Max.max existing.max.upload seen.upload, Max.max existing.max.download seen.download⟩
    lastSeenAt := timestamp }

def growth (before seen : Bytes) : Bytes := ⟨max 0 (seen.upload - before.upload), max 0 (seen.download - before.download)⟩

/-- The row of a connection is inserted or updated. -/
def track (maxima : Rows String ConnectionMaximum) (id : String) (item : Members) (seen : Bytes)
    (timestamp : Timestamp) : Except Exn (Rows String ConnectionMaximum × Attribution) :=
  match maxima.lookup id with
  | none => do
    let row ← firstSeen c item seen timestamp
    .ok (maxima.insert id row, ⟨row.side, row.host, seen⟩)
  | some existing => do
    bindable seen
    .ok (maxima.insert id (existing.seenAgain seen timestamp), ⟨existing.side, existing.host, growth existing.max seen⟩)

end Connection

section Usage

variable (plus : ℤ → ℤ → ℤ)

/-- `INSERT … ON CONFLICT DO UPDATE`. -/
def upsert {κ : Type} [DecidableEq κ] (rows : Rows κ Bytes) (key : κ) (delta : Bytes) : Rows κ Bytes :=
  match rows.lookup key with
  | none => rows.insert key delta
  | some b => rows.insert key ⟨plus b.upload delta.upload, plus b.download delta.download⟩

def addUsage (s : Store) (usageDay : ℤ) (a : Attribution) : Store :=
  if a.delta.upload = 0 ∧ a.delta.download = 0 then s
  else
    { s with
      dailyUsage := upsert plus s.dailyUsage (usageDay, a.side) a.delta
      domainUsage := upsert plus s.domainUsage (usageDay, a.host, a.side) a.delta }

structure Totals where
  connections : ℕ
  uploadDelta : ℤ
  downloadDelta : ℤ
  deriving Repr, DecidableEq

def Totals.add (t : Totals) (delta : Bytes) : Totals :=
  ⟨t.connections + 1, t.uploadDelta + delta.upload, t.downloadDelta + delta.download⟩

/-- The day of an instant in UTC. -/
def usageDay (observedAt : Timestamp) : ℤ := observedAt / days 1

variable (c : Collector)

def ingestItem (observedAt : Timestamp) (s : Store) (totals : Totals) (item : Json) :
    Except Exn (Store × Totals) := do
  let item ← fields item
  if connectionId c item = "" then .ok (s, totals)
  else do
    let seen ← counters c item
    let tracked ← track c s.connectionMaxima (connectionId c item) item seen observedAt
    .ok (addUsage plus { s with connectionMaxima := tracked.1 } (usageDay observedAt) tracked.2,
      totals.add tracked.2.delta)

def ingestItems (observedAt : Timestamp) : List Json → Store → Totals → Except Exn (Store × Totals)
  | [], s, totals => .ok (s, totals)
  | item :: items, s, totals => do
    let r ← ingestItem plus c observedAt s totals item
    ingestItems observedAt items r.1 r.2

/-- The transaction of a batch: it is rolled back when an item raises. -/
def ingestWith (connections : List Json) (observedAt : Timestamp) (s : Store) : Except Exn Totals × Store :=
  match ingestItems plus c observedAt connections s ⟨0, 0, 0⟩ with
  | .ok (t, totals) => (.ok totals, { t with collectorState := ⟨some observedAt, none, 0⟩ })
  | .error e => (.error e, s)

/-- `ingest_connections`. -/
def ingestConnections : List Json → Timestamp → Store → Except Exn Totals × Store := ingestWith sqlitePlus c

def recordError (errorType : String) (s : Store) : Store :=
  { s with collectorState := { s.collectorState with
      lastErrorType := some (Text.take 100 errorType)
      consecutiveErrors := s.collectorState.consecutiveErrors + 1 } }

/-- The rows that pruning deletes. -/
def stale (now : Timestamp) (retentionDays : ℕ) (row : ConnectionMaximum) : Bool :=
  row.lastSeenAt < now - days retentionDays

def pruneConnectionMaxima (now : Timestamp) (retentionDays : ℕ) (s : Store) : Store :=
  { s with connectionMaxima := Rows.keep (fun _ row => !stale now retentionDays row) s.connectionMaxima }

end Usage

end Lingsway.Ops.MihomoUsage
