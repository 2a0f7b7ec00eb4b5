import Lingsway.Providers.Gateway.XrayComposition

/-!
# The writer baseline of the shared Xray file

The baseline is the fingerprint of the last file that was applied, or a mark
that the state is unknown. A fingerprint is identified by the projection it is
computed of, and the bytes of a file by what they parse to and by their layout.
-/
namespace Lingsway.Gateway

open Library

/-- `sha256` of the canonical projection, identified by the projection. -/
structure XrayFingerprint where
  projection : Json
  deriving Repr, DecidableEq

def repoOwnedXrayProjection (config : Members) : Checked Json :=
  match validateRepoOwnedXrayConfig config with
  | [] => .ok (Json.obj config).canonical
  | message :: _ => refuse message

def repoOwnedXrayFingerprint (config : Members) : Checked XrayFingerprint := do
  let projection ← repoOwnedXrayProjection config
  pure ⟨projection⟩

def mismatch (expected observed : Members) (name : String) : Bool :=
  !(expected.item name).equal (observed.item name)

def repoOwnedProjectionErrors (expected observed : Members) : List String :=
  if validateRepoOwnedXrayConfig expected ≠ [] then ["candidate repo-owned Xray config is invalid"]
  else if validateRepoOwnedXrayConfig observed ≠ [] then ["observed repo-owned Xray config is invalid"]
  else
    let mismatches := (["log", "inbounds", "outbounds", "routing"].filter
      (mismatch expected observed)).map fun name => "repo-owned " ++ name ++ " mismatch"
    if mismatches ≠ [] then mismatches
    else if (Json.obj expected).canonical ≠ (Json.obj observed).canonical then
      ["repo-owned Xray projection mismatch"]
    else []

inductive FileBytes where
  | json (value : Json) (layout : String)
  | malformed (text : String)
  deriving Repr, DecidableEq

/-- `json.dumps(content, indent=2)`. -/
def dumpConfig (content : Members) : FileBytes := .json (.obj content) "indent=2"

inductive BaselineRecord where
  | applied (digest : XrayFingerprint)
  | degraded (digest : Option XrayFingerprint)
  deriving Repr, DecidableEq

inductive BaselineFile where
  | missing
  | record (content : BaselineRecord)
  | malformed (message : String)
  deriving Repr, DecidableEq

def baselineError (message : String) : Exn := ⟨.other "XrayBaselineError", message⟩

/-- `load_state`; the reading itself may raise. -/
def loadState (fault : Option Exn) (baseline : BaselineFile) : Except Exn (Option BaselineRecord) :=
  match fault, baseline with
  | some exc, _ => .error exc
  | none, .missing => .ok none
  | none, .record content => .ok (some content)
  | none, .malformed message => .error (baselineError message)

/-- How a call that changes something ends: it returns, or it raises before or after its effect. -/
inductive Fault where
  | none
  | before
  | after
  deriving Repr, DecidableEq

namespace Fault

def raised (f : Fault) : Bool := f ≠ none

def took (f : Fault) : Bool := f ≠ before

end Fault

/-- What `_persist` meets: the writing of the temporary file fails, possibly after it was
created; its renaming; the synchronisation of the directory; the removal of what is left. -/
structure PersistFaults where
  write : Bool
  created : Bool
  replace : Fault
  synchronise : Bool
  unlink : Bool
  deriving Repr, DecidableEq

inductive PersistError where
  | xrayBaselineError
  | osError
  deriving Repr, DecidableEq

structure Persisted where
  error : Option PersistError
  took : Bool
  deriving Repr, DecidableEq

/-- `_persist`: an error of the removal in `finally` replaces the one that is handled. -/
def persist (f : PersistFaults) : Persisted :=
  let cleanUp : PersistError := if f.unlink then .osError else .xrayBaselineError
  if f.write then ⟨some (if f.created then cleanUp else .xrayBaselineError), false⟩
  else if f.replace.raised then ⟨some cleanUp, f.replace.took⟩
  else if f.synchronise then ⟨some .xrayBaselineError, true⟩
  else ⟨none, true⟩

/-- The shared file, what the runtime has loaded, whether the last health report since then
was good, and the stored baseline. -/
structure Gate where
  file : Option FileBytes
  running : Option FileBytes
  confirmed : Bool
  baseline : BaselineFile
  deriving Repr, DecidableEq

def fingerprintOf (bytes : FileBytes) : Option XrayFingerprint :=
  match bytes with
  | .json (.obj config) _ => (repoOwnedXrayFingerprint config).toOption
  | _ => none

/-- `ensure_current_matches_baseline`; `exists` and `current` may raise. -/
def ensureCurrentMatchesBaseline (load configExists current : Option Exn) (w : Gate) : Except Exn Unit :=
  match loadState load w.baseline with
  | .error exc => .error exc
  | .ok baseline =>
    if configExists.isSome then .error (baselineError "cannot determine whether Xray config exists")
    else match baseline, w.file with
      | none, some _ => .error (baselineError
          "Xray baseline is missing for an existing config; explicit bootstrap required")
      | none, none => .ok ()
      | some (.degraded _), _ =>
        .error (baselineError "Xray baseline is degraded; explicit reconciliation required")
      | some (.applied _), none =>
        .error (baselineError "Xray config is missing while its baseline exists")
      | some (.applied digest), some bytes =>
        match current, fingerprintOf bytes with
        | none, some observed =>
          if observed = digest then .ok ()
          else .error (baselineError "Xray writer drift detected; current config differs from baseline")
        | _, _ => .error (baselineError "current Xray config cannot be projected safely")

/-- `save`, after which the stored baseline is that of the content when it took effect. -/
def saveBaseline (f : PersistFaults) (content : Members) (w : Gate) : Option PersistError × Gate :=
  match repoOwnedXrayFingerprint content with
  | .error _ => (some .xrayBaselineError, w)
  | .ok digest =>
    ((persist f).error, if (persist f).took then { w with baseline := .record (.applied digest) } else w)

/-- `mark_degraded()`, and whether it raised. -/
def markDegraded (f : PersistFaults) (w : Gate) : Bool × Gate :=
  ((persist f).error.isSome,
    if (persist f).took then { w with baseline := .record (.degraded none) } else w)

/-- The drift check accepts the state. -/
def Accepting (w : Gate) : Prop :=
  match w.baseline, w.file with
  | .missing, none => True
  | .record (.applied digest), some bytes => fingerprintOf bytes = some digest
  | _, _ => False

instance (w : Gate) : Decidable (Accepting w) := by
  unfold Accepting
  split <;> infer_instance

end Lingsway.Gateway
