import Lingsway.Library.JsonText
import Lingsway.Providers.Base

/-!
# The gate of automatic merges

The decision about one pull request, from a document of facts. Every condition
is evaluated, and what blocks, waits or has passed is listed.
-/
namespace Lingsway.AutomergeGate

open Library

/-- What the gate leaves to Python's tables of Unicode. -/
structure Unicode where
  quote : String → String
  isAlnum : Char → Bool

/-- The values that `get` returns for the members of the document. -/
structure Facts where
  prNumber : Json
  headSha : Json
  headRef : Json
  state : Json
  draft : Json
  merged : Json
  mergeable : Json
  labels : Json
  changedFiles : Json
  automergeSwitch : Json
  checkRuns : Json
  requiredWorkflows : Json
  reviews : Json

def Facts.ofMembers (m : Members) : Facts where
  prNumber := m.item "pr_number"
  headSha := m.item "head_sha"
  headRef := m.item "head_ref"
  state := m.item "state"
  draft := m.item "draft"
  merged := m.item "merged"
  mergeable := m.item "mergeable"
  labels := m.item "labels"
  changedFiles := m.item "changed_files"
  automergeSwitch := m.item "automerge_switch"
  checkRuns := m.item "check_runs"
  requiredWorkflows := m.item "required_workflows"
  reviews := m.item "reviews"

def requiredWorkflows : List String := ["CI", "Security", "Risk classification"]

def passingConclusions : List String := ["success", "skipped"]

def trustedAssociations : List String := ["OWNER", "MEMBER", "COLLABORATOR"]

def auditBranchPrefix : String := "claude/audit-"

def protectedPathPrefix : String := "deploy/"

def blockingLabel : String := "no-automerge"

inductive Decision where
  | merge
  | block
  | wait
  deriving Repr, DecidableEq

structure Gate where
  blocks : List String
  waits : List String
  passed : List String
  deriving Repr, DecidableEq

namespace Gate

def empty : Gate := ⟨[], [], []⟩

def block (g : Gate) (name reason : String) : Gate := { g with blocks := g.blocks ++ [name ++ ": " ++ reason] }

def wait (g : Gate) (name reason : String) : Gate := { g with waits := g.waits ++ [name ++ ": " ++ reason] }

def pass (g : Gate) (entry : String) : Gate := { g with passed := g.passed ++ [entry] }

def check (g : Gate) (name : String) (ok : Bool) (reason : String) : Gate :=
  if ok then g.pass name else g.block name reason

def decision (g : Gate) : Decision :=
  if g.blocks ≠ [] then .block else if g.waits ≠ [] then .wait else .merge

@[simp] theorem blocks_check (g : Gate) (name reason : String) (ok : Bool) :
    (g.check name ok reason).blocks = [] ↔ g.blocks = [] ∧ ok = true := by
  cases ok <;> simp [check, pass, block]

@[simp] theorem waits_check (g : Gate) (name reason : String) (ok : Bool) :
    (g.check name ok reason).waits = g.waits := by
  cases ok <;> rfl

@[simp] theorem blocks_block (g : Gate) (name reason : String) : (g.block name reason).blocks ≠ [] := by
  simp [block]

@[simp] theorem waits_block (g : Gate) (name reason : String) : (g.block name reason).waits = g.waits := rfl

@[simp] theorem blocks_wait (g : Gate) (name reason : String) : (g.wait name reason).blocks = g.blocks := rfl

@[simp] theorem waits_wait (g : Gate) (name reason : String) : (g.wait name reason).waits ≠ [] := by
  simp [wait]

@[simp] theorem blocks_pass (g : Gate) (entry : String) : (g.pass entry).blocks = g.blocks := rfl

@[simp] theorem waits_pass (g : Gate) (entry : String) : (g.pass entry).waits = g.waits := rfl

theorem decision_eq_merge (g : Gate) : g.decision = .merge ↔ g.blocks = [] ∧ g.waits = [] := by
  unfold decision
  by_cases hblocks : g.blocks = []
  · by_cases hwaits : g.waits = []
    · simp [hblocks, hwaits]
    · simp [hblocks, hwaits]
  · simp [hblocks]

theorem decision_eq_block (g : Gate) : g.decision = .block ↔ g.blocks ≠ [] := by
  unfold decision
  by_cases hblocks : g.blocks = []
  · by_cases hwaits : g.waits = []
    · simp [hblocks, hwaits]
    · simp [hblocks, hwaits]
  · simp [hblocks]

end Gate

inductive Verdict where
  | pass
  | needsChanges
  deriving Repr, DecidableEq

def Verdict.name : Verdict → String
  | pass => "PASS"
  | needsChanges => "NEEDS_CHANGES"

def isHex (c : Char) : Bool :=
  ('0' ≤ c && c ≤ '9') || ('a' ≤ c && c ≤ 'f') || ('A' ≤ c && c ≤ 'F')

/-- `_FULL_SHA_RE`. -/
def fullSha (s : String) : Bool := s.toList.length = 40 && s.toList.all isHex

/-- Without asterisks and backticks. -/
def stripMarkdown (body : String) : List Char := body.toList.filter fun c => c ≠ '*' && c.toNat ≠ 0x60

/-- What is left of `cs` behind `word`. -/
def after (word : String) (cs : List Char) : Option (List Char) :=
  if word.toList.isPrefixOf cs then some (cs.drop word.toList.length) else none

section Text

variable (u : Unicode)

/-- `\b` behind a letter. -/
def boundary : List Char → Bool
  | [] => true
  | c :: _ => !(u.isAlnum c || c = '_')

def verdictWord (cs : List Char) : Option Verdict :=
  match after "PASS" cs with
  | some rest => if boundary u rest then some .pass else none
  | none =>
    match after "NEEDS_CHANGES" cs with
    | some rest => if boundary u rest then some .needsChanges else none
    | none => none

/-- `_VERDICT_RE` at one position. -/
def verdictAt (cs : List Char) : Option Verdict :=
  match after "Verdict" cs with
  | none => none
  | some rest =>
    match rest.dropWhile Text.isSpace with
    | [] => none
    | c :: rest => if c = ':' || c = '：' then verdictWord u (rest.dropWhile Text.isSpace) else none

/-- `_verdict_of`. No match begins inside another one, so every position counts. -/
def verdictOf (body : String) : Option Verdict :=
  let found := (stripMarkdown body).tails.filterMap (verdictAt u)
  if .needsChanges ∈ found then some .needsChanges
  else if .pass ∈ found then some .pass
  else none

/-- The text occurs with no hexadecimal digit on either side. -/
def occurs (sha : List Char) : Option Char → List Char → Bool
  | _, [] => false
  | before, c :: cs =>
    (!(before.any isHex) && sha.isPrefixOf (c :: cs) && !(((c :: cs).drop sha.length).head?.any isHex)) ||
      occurs sha (some c) cs

/-- `_mentions_sha`. -/
def mentionsSha (body headSha : String) : Bool := occurs headSha.toList none (stripMarkdown body)

/-- `str(x or "")`. -/
def said (x : Json) : String := (x.orElse (.str "")).text u.quote

def typeError (message : String) : Exn := ⟨.other "TypeError", message⟩

/-- The values of `x or []`. -/
def items (x : Json) : Except Exn (List Json) :=
  match (x.orElse (.arr [])).iterate with
  | some xs => .ok xs
  | none => .error (typeError (String.join ["'", x.typeName, "' object is not iterable"]))

def texts (x : Json) : Except Exn (List String) := (items x).map fun xs => xs.map (Json.text u.quote)

/-- What `get` of the value is called on. -/
def members : Json → Except Exn Members
  | .obj ms => .ok ms
  | x => .error ⟨.other "AttributeError", String.join ["'", x.typeName, "' object has no attribute 'get'"]⟩

structure ScopedReview where
  submittedAt : String
  verdict : Verdict
  author : String
  deriving Repr, DecidableEq

/-- A verdict on the head by somebody who is trusted. -/
def scopedReview (headSha : String) (review : Json) : Except Exn (Option ScopedReview) :=
  (members review).map fun m =>
    let body := said u (m.item "body")
    match verdictOf u body with
    | none => none
    | some verdict =>
      if Text.upper (said u (m.item "author_association")) ∈ trustedAssociations ∧ mentionsSha body headSha = true then
        some ⟨said u (m.item "submitted_at"), verdict, ((m.item "author").orElse (.str "?")).text u.quote⟩
      else none

def scopedReviews (headSha : String) (reviews : List Json) : Except Exn (List ScopedReview) :=
  (reviews.mapM (scopedReview u headSha)).map fun found => found.filterMap id

structure CheckRun where
  workflow : String
  name : String
  status : String
  conclusion : String
  deriving Repr, DecidableEq

def checkRun (run : Json) : Except Exn CheckRun :=
  (members run).map fun m =>
    ⟨said u (m.item "workflow"), ((m.item "name").orElse (.str "?")).text u.quote, said u (m.item "status"),
      said u (m.item "conclusion")⟩

/-- A member of a set has to be hashable. -/
def hashable : Json → Bool
  | .arr _ => false
  | .obj _ => false
  | _ => true

/-- The workflows that are waited for: those of the document, if it names some. -/
def required (x : Json) : Except Exn (List Json) := do
  let workflows ← items (x.orElse (.arr (requiredWorkflows.map Json.str)))
  match workflows.find? fun w => !hashable w with
  | some w => .error (typeError (String.join ["unhashable type: '", w.typeName, "'"]))
  | none => .ok workflows

end Text

/-- `max(verdicts, key=lambda item: item[0])`: the first of the latest ones. -/
def laterOf (best : Option ScopedReview) (review : ScopedReview) : Option ScopedReview :=
  match best with
  | none => some review
  | some b => if b.submittedAt < review.submittedAt then some review else some b

def latest (verdicts : List ScopedReview) : Option ScopedReview := verdicts.foldl laterOf none

structure Result where
  prNumber : Json
  headSha : Json
  decision : Decision
  blocks : List String
  waits : List String
  passed : List String

def result (f : Facts) (g : Gate) : Result := ⟨f.prNumber, f.headSha, g.decision, g.blocks, g.waits, g.passed⟩

section Evaluate

variable (u : Unicode)

/-- What the readers of the document yield. -/
structure Reading where
  labels : List String
  changed : List String
  required : List Json
  runs : List CheckRun
  verdicts : List ScopedReview
  deriving Repr, DecidableEq

/-- `_evaluate_review`. -/
def evaluateReview (gate : Gate) (verdicts : List ScopedReview) (headSha : String) : Gate :=
  match latest verdicts with
  | none => gate.wait "review" (String.join ["no verdict scoped to head SHA ", headSha, " from a trusted author"])
  | some r =>
    if r.verdict = .pass then
      gate.pass (String.join ["review (PASS on ", headSha, " by ", r.author, " at ", r.submittedAt, ")"])
    else gate.block "review" (String.join ["latest verdict on ", headSha, " is ", r.verdict.name, " (by ", r.author, ")"])

def unknownIfEmpty (s : String) : String := if s = "" then "unknown" else s

def evaluateRun (gate : Gate) (run : CheckRun) : Gate :=
  if run.status ≠ "completed" then
    gate.wait "checks" (String.join [run.name, " is ", unknownIfEmpty run.status])
  else if run.conclusion ∉ passingConclusions then
    gate.block "checks" (String.join [run.name, " concluded ", unknownIfEmpty run.conclusion])
  else gate

def evaluateWorkflow (runs : List CheckRun) (gate : Gate) (workflow : Json) : Gate :=
  if workflow ∈ runs.map fun run => Json.str run.workflow then gate
  else gate.wait "checks" (String.join ["required workflow ", workflow.repr u.quote, " has not reported yet"])

/-- `_evaluate_checks`. -/
def evaluateChecks (gate : Gate) (workflows : List Json) (runs : List CheckRun) : Gate :=
  runs.foldl evaluateRun (workflows.foldl (evaluateWorkflow u runs) gate)

/-- `_evaluate_switch`. -/
def evaluateSwitch (gate : Gate) (f : Facts) : Gate :=
  if f.automergeSwitch = .null then
    gate.block "circuit-breaker" ".github/automerge-enabled is absent on the default branch"
  else
    let value := Text.strip (f.automergeSwitch.text u.quote)
    if value ≠ "true" then
      gate.block "circuit-breaker" (String.join [".github/automerge-enabled is ", u.quote value, ", not 'true'"])
    else gate.pass "circuit-breaker (enabled)"

def evaluateMergeable (gate : Gate) (mergeable : Json) : Gate :=
  match mergeable with
  | .bool true => gate.pass "mergeable (no conflict)"
  | .bool false => gate.block "mergeable" "the pull request has a merge conflict"
  | _ => gate.wait "mergeable" "GitHub has not computed mergeability yet"

def protectedPaths (changed : List String) : List String :=
  (changed.filter fun path => protectedPathPrefix.toList.isPrefixOf path.toList).insertionSort (· ≤ ·)

def isAuditBranch (headRef : String) : Bool := auditBranchPrefix.toList.isPrefixOf headRef.toList

/-- The conditions in the order of `evaluate`. -/
def gateOf (f : Facts) (d : Reading) : Gate :=
  let headRef := said u f.headRef
  let protecteds := protectedPaths d.changed
  let gate := Gate.empty.check "state" (said u f.state = "open")
    (String.join ["pull request is ", f.state.repr u.quote])
  let gate := gate.check "draft" (!f.draft.truthy) "pull request is a draft"
  let gate := gate.check "merged" (!f.merged.truthy) "pull request is already merged"
  let gate := evaluateSwitch u gate f
  let gate := gate.check "label" (blockingLabel ∉ d.labels.map Text.lower)
    (String.join [u.quote blockingLabel, " label is present"])
  let gate := gate.check "audit-branch" (!isAuditBranch headRef)
    (String.join ["branch ", u.quote headRef, " is an architecture audit (ADR-029 §4.6)"])
  let gate := gate.check "protected-paths" protecteds.isEmpty
    (String.join ["touches manually gated paths: ", ", ".intercalate protecteds])
  let gate := evaluateMergeable gate f.mergeable
  let gate := evaluateChecks u gate d.required d.runs
  evaluateReview gate d.verdicts (said u f.headSha)

/-- What `evaluate` reads of the lists of the document, in its order. -/
def read (f : Facts) : Except Exn Reading := do
  let labels ← texts u f.labels
  let changed ← texts u f.changedFiles
  let workflows ← required f.requiredWorkflows
  let runs ← items f.checkRuns
  let runs ← runs.mapM (checkRun u)
  let reviews ← items f.reviews
  let verdicts ← scopedReviews u (said u f.headSha) reviews
  .ok ⟨labels, changed, workflows, runs, verdicts⟩

def evaluate (f : Facts) : Except Exn Result :=
  let headSha := said u f.headSha
  if fullSha headSha = false then
    .ok (result f (Gate.empty.block "head-sha"
      (String.join [u.quote headSha, " is not a full 40-character commit SHA"])))
  else (read u f).map fun d => result f (gateOf u f d)

end Evaluate

end Lingsway.AutomergeGate
