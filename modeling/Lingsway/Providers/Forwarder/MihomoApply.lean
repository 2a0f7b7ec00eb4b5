import Lingsway.Library.Program
import Lingsway.Providers.Forwarder.MihomoProjection

/-!
# Applying a Mihomo candidate

The file is replaced, the runtime reloads it and is asked for its health. On
any failure the earlier file is put back, reloaded and asked for again, and the
exception says whether that is known to have worked.
-/
namespace Lingsway.Forwarder

open Library Program

abbrev Bytes := List UInt8

structure HealthReport where
  healthy : Bool
  details : List (String × String)
  deriving Repr, DecidableEq

/-- The calls of `MihomoRuntime`. A backup is known by its path. -/
inductive RuntimeCall where
  | controllerSecretMatches (secret : String)
  | backup
  | install (document : Bytes)
  | reload
  | restore (backup : String)
  | health
  deriving Repr, DecidableEq

abbrev RuntimeCall.Answer : RuntimeCall → Type
  | controllerSecretMatches _ => Bool
  | backup => String
  | install _ | reload | restore _ => Unit
  | health => HealthReport

abbrev runtimeCalls : Signature := ⟨RuntimeCall, RuntimeCall.Answer⟩

def mihomoRuntimeError (message : String) : Exn := ⟨.other "MihomoRuntimeError", message⟩

/-- `MihomoRollbackVerifiedError`. -/
def rollbackVerified : Exn := ⟨.other "MihomoRollbackVerifiedError", "MIHOMO_ROLLBACK_VERIFIED"⟩

/-- `MihomoRollbackUnknownError`. -/
def rollbackUnknown : Exn := ⟨.other "MihomoRollbackUnknownError", "MIHOMO_ROLLBACK_OUTCOME_UNKNOWN"⟩

/-- An exception of the runtime or of the YAML writer, neither of which knows how a rollback ends. -/
structure RuntimeExn where
  exc : Exn
  unverified : exc.cls ≠ rollbackVerified.cls
  known : exc.cls ≠ rollbackUnknown.cls

/-- `yaml.representer.RepresenterError`. -/
def representerError : RuntimeExn := ⟨⟨.other "RepresenterError", ""⟩, by decide, by decide⟩

/-- A call that has been made, and how it ended. -/
inductive Moment where
  | returned (call : RuntimeCall)
  | reported (healthy : Bool)
  | raised (call : RuntimeCall)
  deriving Repr, DecidableEq

def Moment.call : Moment → RuntimeCall
  | returned call => call
  | reported _ => .health
  | raised call => call

/-- The calls that write the file or make the runtime read it. -/
def RuntimeCall.touches : RuntimeCall → Bool
  | install _ | reload | restore _ => true
  | _ => false

/-- The configuration file, what the runtime has loaded, the backups and the calls so far, newest first. -/
structure Host where
  file : Option Bytes
  loaded : Option Bytes
  backups : List (String × Bytes)
  calls : List Moment
  deriving Repr, DecidableEq

def Host.log (h : Host) (m : Moment) : Host := { h with calls := m :: h.calls }

/-- The moment a call leaves behind. -/
def momentOf : (c : RuntimeCall) → Except Exn (runtimeCalls.Answer c) → Moment
  | c, .error _ => .raised c
  | .health, .ok report => .reported report.healthy
  | c, .ok _ => .returned c

/-- What a call that returns has done. A restore needs the backup that it names. -/
def Does (h : Host) : (c : RuntimeCall) → runtimeCalls.Answer c → Host → Prop
  | .controllerSecretMatches _, _, h' => h' = h
  | .backup, path, h' =>
    ∃ content, h.file = some content ∧ h' = { h with backups := (path, content) :: h.backups }
  | .install document, _, h' => h' = { h with file := some document }
  | .reload, _, h' => h' = { h with loaded := h.file }
  | .restore path, _, h' =>
    ∃ content, h.backups.lookup path = some content ∧ h' = { h with file := some content }
  | .health, _, h' => h' = h

/-- What a call that raises may have done: nothing, or all of it. A copy may also have been
interrupted, whatever it has left then. -/
def MayDo (h : Host) : RuntimeCall → Host → Prop
  | .controllerSecretMatches _, h' => h' = h
  | .backup, h' => ∃ left, h' = { h with backups := left ++ h.backups }
  | .install document, h' => h' = h ∨ h' = { h with file := some document }
  | .reload, h' => h' = h ∨ h' = { h with loaded := h.file }
  | .restore _, h' => ∃ left, h' = { h with file := left }
  | .health, h' => h' = h

def runtime : Handler runtimeCalls Exn Host where
  step c h answer h' := ∃ g : Host, h' = g.log (momentOf c answer) ∧
    match answer with
    | .ok a => Does h c a g
    | .error e => (∃ raised : RuntimeExn, e = raised.exc) ∧ MayDo h c g
  check _ _ _ _ := True

/-- A candidate, and what only finalization adds to it. -/
inductive Candidate where
  | generic (content : Members) (version : Digest)
  | mihomo (content : Members) (version : Digest) (secretRef : String) (secretRevision : ℤ) (proven : Bool)

def Candidate.content : Candidate → Members
  | generic content _ => content
  | mihomo content _ _ _ _ => content

def Candidate.version : Candidate → Digest
  | generic _ version => version
  | mihomo _ version _ _ _ => version

/-- `ApplyResult`. -/
structure Applied where
  applied : Bool
  version : Digest
  deriving Repr, DecidableEq

abbrev Apply := Program runtimeCalls Exn

def internalMetadata : List String := ["api-secret-ref", "secret-ref", "api-secret-revision"]

/-- The controller secret of a finalized content. -/
def contentSecret (content : Members) : Except Exn String :=
  match content.item "secret" with
  | .str secret =>
    if Text.strip secret = "" then .error (mihomoRuntimeError "Mihomo candidate controller secret is missing")
    else if internalMetadata.any fun key => (content.lookup key).isSome then
      .error (mihomoRuntimeError "Mihomo candidate contains internal metadata")
    else .ok secret
  | _ => .error (mihomoRuntimeError "Mihomo candidate controller secret is missing")

/-- The checks of a candidate before anything is called. -/
def checkCandidate : Candidate → Except Exn String
  | .generic _ _ => .error (mihomoRuntimeError "cannot install non-finalized Mihomo projection")
  | .mihomo content _ _ _ proven =>
    if proven then contentSecret content
    else .error (mihomoRuntimeError "Mihomo candidate finalization proof is invalid")

def rotationUnsupported : Exn := mihomoRuntimeError "MIHOMO_CONTROLLER_SECRET_ROTATION_UNSUPPORTED"

/-- One call of the runtime. -/
def ask (c : RuntimeCall) : Apply (runtimeCalls.Answer c) := perform (S := runtimeCalls) c

/-- Reload, and ask whether what was loaded is healthy. -/
def reloadAndReport : Apply HealthReport := do
  ask .reload
  ask .health

/-- The file before is put back. -/
def restoreAndReport (backup : String) : Apply HealthReport := do
  ask (.restore backup)
  reloadAndReport

def installAndReport (document : Bytes) : Apply HealthReport := do
  ask (.install document)
  reloadAndReport

/-- `_rollback`; always raises. -/
def rollback (backup : String) : Apply Applied := do
  let report ← (restoreAndReport backup).tryCatch fun _ => raise rollbackUnknown
  if report.healthy then raise rollbackVerified else raise rollbackUnknown

/-- The activation of a document, which is rolled back unless it is healthy. -/
def activate (backup : String) (document : Bytes) (version : Digest) : Apply Applied := do
  match ← (installAndReport document).attempt with
  | .error _ => rollback backup
  | .ok report => if report.healthy then pure ⟨true, version⟩ else rollback backup

section Dump

-- `yaml.safe_dump(_plain(content), sort_keys=False).encode()`
variable (dump : Json → Except RuntimeExn Bytes)

def dumped (candidate : Candidate) : Except Exn Bytes := (dump (.obj candidate.content)).mapError RuntimeExn.exc

def secretMatches (secret : String) : Apply Bool :=
  Program.tryCatch (ask (.controllerSecretMatches secret)) fun _ => raise rotationUnsupported

/-- `MihomoForwarderProvider.apply`. -/
def apply (candidate : Candidate) : Apply Applied := do
  let secret ← ofExcept (checkCandidate candidate)
  let isMatch ← secretMatches secret
  if isMatch then do
    let backup ← ask .backup
    let document ← ofExcept (dumped dump candidate)
    activate backup document candidate.version
  else raise rotationUnsupported

end Dump

theorem ask_wp {c : RuntimeCall} {Q : Except Exn (runtimeCalls.Answer c) → Host → Prop} {h : Host}
    (hreturn : ∀ a g, Does h c a g → Q (.ok a) (g.log (momentOf c (.ok a))))
    (hraise : ∀ raised : RuntimeExn, ∀ g, MayDo h c g → Q (.error raised.exc) (g.log (.raised c))) :
    (ask c).wp runtime Q h := by
  intro answer h' hstep
  obtain ⟨g, rfl, hanswer⟩ := hstep
  have hpost : Q answer (g.log (momentOf c answer)) := by
    cases answer with
    | ok a => exact hreturn a g hanswer
    | error e =>
      obtain ⟨⟨raised, rfl⟩, hmay⟩ := hanswer
      have hmoment : momentOf c (.error raised.exc) = .raised c := by cases c <;> rfl
      rw [hmoment]
      exact hraise raised g hmay
  exact ⟨trivial, by simpa using hpost⟩

/-- From `h` on the file is there, is loaded and is healthy if the report says so. A failure leaves
the backups as they are. -/
def Reported (h : Host) : Except Exn HealthReport → Host → Prop
  | .ok report, g => g.backups = h.backups ∧ g.file = h.file ∧ g.loaded = h.file ∧
      g.calls = .reported report.healthy :: .returned .reload :: h.calls
  | .error _, g => g.backups = h.backups ∧ h.calls <:+ g.calls

theorem reloadAndReport_wp (h : Host) : reloadAndReport.wp runtime (Reported h) h := by
  rw [reloadAndReport, wp_bind]
  apply ask_wp
  · rintro ⟨⟩ g hdoes
    have hg : g = { h with loaded := h.file } := hdoes
    subst hg
    apply ask_wp
    · intro report k hk
      have hk' : k = _ := hk
      subst hk'
      exact ⟨rfl, rfl, rfl, rfl⟩
    · intro raised k hk
      have hk' : k = _ := hk
      subst hk'
      exact ⟨rfl, [.raised .health, .returned .reload], rfl⟩
  · intro raised g hmay
    have hsuffix : h.calls <:+ .raised .reload :: h.calls := List.suffix_cons _ _
    obtain rfl | rfl : g = h ∨ g = { h with loaded := h.file } := hmay
    · exact ⟨rfl, hsuffix⟩
    · exact ⟨rfl, hsuffix⟩

/-- The content was put in place by `written`, a reload after that returned, and the health after
it was good. All of this has happened since `h`. -/
structure Serving (h : Host) (written : RuntimeCall) (content : Option Bytes) (h' : Host) : Prop where
  file : h'.file = content
  loaded : h'.loaded = content
  calls : ∃ earlier, h'.calls = .reported true :: .returned .reload :: .returned written :: earlier ∧
    h.calls <:+ earlier

/-- Neither the file nor the runtime has been touched since `h`. -/
structure Untouched (h h' : Host) : Prop where
  file : h'.file = h.file
  loaded : h'.loaded = h.loaded
  calls : ∃ later, h'.calls = later ++ h.calls ∧ ∀ m ∈ later, m.call.touches = false

namespace Untouched

theorem refl (h : Host) : Untouched h h := ⟨rfl, rfl, [], rfl, by simp⟩

theorem log {h h' : Host} (hu : Untouched h h') (g : Host) (m : Moment) (hm : m.call.touches = false)
    (hfile : g.file = h'.file) (hloaded : g.loaded = h'.loaded) (hcalls : g.calls = h'.calls) :
    Untouched h (g.log m) := by
  obtain ⟨later, hlater, huntouching⟩ := hu.calls
  refine ⟨hfile.trans hu.file, hloaded.trans hu.loaded, m :: later, ?_, ?_⟩
  · simp [Host.log, hcalls, hlater]
  · simpa [hm] using huntouching

theorem suffix {h h' : Host} (hu : Untouched h h') : h.calls <:+ h'.calls := by
  obtain ⟨later, hlater, _⟩ := hu.calls
  exact ⟨later, hlater.symm⟩

end Untouched

/-- What follows from writing, reloading and asking for the health. -/
def Written (h : Host) (written : RuntimeCall) (content : Option Bytes) (backups : List (String × Bytes))
    (r : Except Exn HealthReport) (g : Host) : Prop :=
  g.backups = backups ∧ h.calls <:+ g.calls ∧
    ∀ report, r = .ok report → report.healthy = true → Serving h written content g

theorem reported_written {h g : Host} {written : RuntimeCall} (hcalls : h.calls <:+ g.calls)
    {r : Except Exn HealthReport} {k : Host} (hr : Reported (g.log (.returned written)) r k) :
    Written h written g.file g.backups r k := by
  cases r with
  | error e => exact ⟨hr.1, (hcalls.trans (List.suffix_cons _ _)).trans hr.2, fun _ h => by cases h⟩
  | ok report =>
    obtain ⟨hbackups, hfile, hloaded, hlast⟩ := hr
    have hsuffix : h.calls <:+ k.calls := by
      rw [hlast]
      exact hcalls.trans ⟨[.reported report.healthy, .returned .reload, .returned written], rfl⟩
    refine ⟨hbackups, hsuffix, fun found hfound hhealthy => ?_⟩
    cases hfound
    rw [hhealthy] at hlast
    exact ⟨hfile, hloaded, g.calls, hlast, hcalls⟩

/-- A write that raises is reported neither healthy nor unhealthy. -/
theorem raised_written {h g : Host} {written : RuntimeCall} {content : Option Bytes} {e : Exn}
    (hcalls : h.calls <:+ g.calls) : Written h written content g.backups (.error e) (g.log (.raised written)) :=
  ⟨rfl, hcalls.trans (List.suffix_cons _ _), fun _ h => by cases h⟩

theorem installAndReport_wp {h g : Host} (hcalls : h.calls <:+ g.calls) (document : Bytes) :
    (installAndReport document).wp runtime (Written h (.install document) (some document) g.backups) g := by
  rw [installAndReport, wp_bind]
  apply ask_wp
  · rintro ⟨⟩ k hdoes
    have hk : k = { g with file := some document } := hdoes
    subst hk
    refine wp_mono _ _ ?_ (reloadAndReport_wp _)
    intro r k hr
    exact reported_written (by exact hcalls) hr
  · intro raised k hmay
    obtain rfl | rfl : k = g ∨ k = { g with file := some document } := hmay
    · exact raised_written hcalls
    · exact raised_written (by exact hcalls)

theorem restoreAndReport_wp {h g : Host} (hcalls : h.calls <:+ g.calls) {backup : String} {content : Bytes}
    (hbackup : g.backups.lookup backup = some content) :
    (restoreAndReport backup).wp runtime (Written h (.restore backup) (some content) g.backups) g := by
  rw [restoreAndReport, wp_bind]
  apply ask_wp
  · rintro ⟨⟩ k hdoes
    obtain ⟨found, hfound, hk⟩ : ∃ found, g.backups.lookup backup = some found ∧
      k = { g with file := some found } := hdoes
    obtain rfl : content = found := by simpa [hbackup] using hfound
    subst hk
    refine wp_mono _ _ ?_ (reloadAndReport_wp _)
    intro r k hr
    exact reported_written (by exact hcalls) hr
  · intro raised k hmay
    obtain ⟨left, hk⟩ : ∃ left, k = { g with file := left } := hmay
    subst hk
    exact raised_written (by exact hcalls)

/-- How an apply ends: which host each outcome may be told of. -/
structure Classified (candidate : Candidate) (document : Except RuntimeExn Bytes) (h : Host)
    (r : Except Exn Applied) (h' : Host) : Prop where
  applied : ∀ a, r = .ok a → a = ⟨true, candidate.version⟩ ∧
    ∃ bytes, document = .ok bytes ∧ Serving h (.install bytes) (some bytes) h'
  verified : ∀ e, r = .error e → e.cls = rollbackVerified.cls →
    ∃ backup, Serving h (.restore backup) h.file h'
  failed : ∀ e, r = .error e → e.cls ≠ rollbackVerified.cls → e.cls ≠ rollbackUnknown.cls →
    Untouched h h'

section Classified

variable {candidate : Candidate} {document : Except RuntimeExn Bytes} {h h' : Host}

theorem classified_applied {bytes : Bytes} (hserving : Serving h (.install bytes) (some bytes) h') :
    Classified candidate (.ok bytes) h (.ok ⟨true, candidate.version⟩) h' where
  applied a ha := by
    cases ha
    exact ⟨rfl, bytes, rfl, hserving⟩
  verified e he := by cases he
  failed e he := by cases he

theorem classified_verified {backup : String} (hserving : Serving h (.restore backup) h.file h') :
    Classified candidate document h (.error rollbackVerified) h' where
  applied a ha := by cases ha
  verified e _ _ := ⟨backup, hserving⟩
  failed e he hne := by
    cases he
    exact absurd rfl hne

theorem classified_unknown : Classified candidate document h (.error rollbackUnknown) h' where
  applied a ha := by cases ha
  verified e he hcls := by
    cases he
    simp [rollbackUnknown, rollbackVerified] at hcls
  failed e he _ hne := by
    cases he
    exact absurd rfl hne

theorem classified_untouched {e : Exn} (hverified : e.cls ≠ rollbackVerified.cls) (hu : Untouched h h') :
    Classified candidate document h (.error e) h' where
  applied a ha := by cases ha
  verified e' he hcls := by
    cases he
    exact absurd hcls hverified
  failed e' he _ _ := hu

theorem rollback_wp {g : Host} (hcalls : h.calls <:+ g.calls) {backup : String} {content : Bytes}
    (hbackup : g.backups.lookup backup = some content) (hfile : h.file = some content) :
    (rollback backup).wp runtime (Classified candidate document h) g := by
  rw [rollback, wp_bind, wp_tryCatch]
  refine wp_mono _ _ ?_ (restoreAndReport_wp hcalls hbackup)
  intro r k hr
  cases r with
  | error e => exact classified_unknown
  | ok report =>
    rw [catchPost_ok, bindPost_ok, wp_ite]
    constructor
    · intro hhealthy
      have hserving := hr.2.2 report rfl hhealthy
      rw [← hfile] at hserving
      exact classified_verified hserving
    · intro _
      exact classified_unknown

theorem activate_wp {g : Host} (hcalls : h.calls <:+ g.calls) {backup : String} {content bytes : Bytes}
    (hbackup : g.backups.lookup backup = some content) (hfile : h.file = some content) :
    (activate backup bytes candidate.version).wp runtime (Classified candidate (.ok bytes) h) g := by
  rw [activate, wp_bind, wp_attempt]
  refine wp_mono _ _ ?_ (installAndReport_wp hcalls bytes)
  rintro r k ⟨hbackups, hsince, hserving⟩
  have hrollback : (rollback backup).wp runtime (Classified candidate (.ok bytes) h) k :=
    rollback_wp hsince (by rw [hbackups, hbackup]) hfile
  rw [bindPost_ok]
  cases r with
  | error e => exact hrollback
  | ok report =>
    by_cases hhealthy : report.healthy = true
    · simp only [hhealthy, if_true]
      exact classified_applied (hserving report rfl hhealthy)
    · simp only [hhealthy]
      exact hrollback

theorem secretMatches_wp (secret : String) :
    (secretMatches secret).wp runtime
      (fun r h' => Untouched h h' ∧ ∀ e, r = .error e → e = rotationUnsupported) h := by
  rw [secretMatches, wp_tryCatch]
  apply ask_wp
  · intro isMatch g hg
    have hg' : g = h := hg
    subst hg'
    exact ⟨(Untouched.refl _).log _ _ rfl rfl rfl rfl, fun e he => by cases he⟩
  · intro raised g hg
    have hg' : g = h := hg
    subst hg'
    refine ⟨(Untouched.refl _).log _ _ rfl rfl rfl rfl, fun e he => ?_⟩
    cases he
    rfl

theorem contentSecret_error {content : Members} {e : Exn} (he : contentSecret content = .error e) :
    e.cls = .other "MihomoRuntimeError" := by
  unfold contentSecret at he
  split at he
  · split_ifs at he
    · cases he
      rfl
    · cases he
      rfl
  · cases he
    rfl

theorem checkCandidate_error {e : Exn} (he : checkCandidate candidate = .error e) :
    e.cls = .other "MihomoRuntimeError" := by
  cases candidate with
  | generic content version =>
    cases he
    rfl
  | mihomo content version ref revision proven =>
    cases proven with
    | false =>
      cases he
      rfl
    | true => exact contentSecret_error he

theorem backup_wp {g : Host} (hu : Untouched h g) {f : String → Apply Applied}
    (hnext : ∀ backup content k, h.file = some content → k.backups.lookup backup = some content →
      Untouched h k → (f backup).wp runtime (Classified candidate document h) k) :
    (ask .backup >>= f).wp runtime (Classified candidate document h) g := by
  rw [wp_bind]
  apply ask_wp
  · intro backup k hdoes
    obtain ⟨content, hcontent, hk⟩ : ∃ content, g.file = some content ∧
      k = { g with backups := (backup, content) :: g.backups } := hdoes
    subst hk
    have huntouched :=
      hu.log { g with backups := (backup, content) :: g.backups } (.returned .backup) rfl rfl rfl rfl
    exact hnext backup content _ (hu.file.symm.trans hcontent) (by simp [Host.log]) huntouched
  · intro raised k hmay
    obtain ⟨left, hk⟩ : ∃ left, k = { g with backups := left ++ g.backups } := hmay
    subst hk
    have huntouched := hu.log { g with backups := left ++ g.backups } (.raised .backup) rfl rfl rfl rfl
    exact classified_untouched raised.unverified huntouched

end Classified

section Dump

variable (dump : Json → Except RuntimeExn Bytes)

theorem apply_wp (candidate : Candidate) (h : Host) :
    (apply dump candidate).wp runtime (Classified candidate (dump (.obj candidate.content)) h) h := by
  rw [apply, wp_bind, wp_ofExcept]
  cases hcheck : checkCandidate candidate with
  | error e =>
    have hforeign : e.cls ≠ rollbackVerified.cls := by
      rw [checkCandidate_error hcheck]
      simp [rollbackVerified]
    exact classified_untouched hforeign (.refl h)
  | ok secret =>
    rw [bindPost_ok, wp_bind]
    refine wp_mono _ _ ?_ (secretMatches_wp secret)
    rintro r g ⟨hu, herror⟩
    have hunsupported : rotationUnsupported.cls ≠ rollbackVerified.cls := by
      simp [rotationUnsupported, mihomoRuntimeError, rollbackVerified]
    cases r with
    | error e =>
      rw [herror e rfl]
      exact classified_untouched hunsupported hu
    | ok isMatch =>
      cases isMatch with
      | false => exact classified_untouched hunsupported hu
      | true =>
        apply backup_wp hu
        intro backup content k hfile hbackup hk
        rw [dumped, wp_bind, wp_ofExcept]
        cases hdump : dump (.obj candidate.content) with
        | error raised => exact classified_untouched raised.unverified hk
        | ok bytes => exact activate_wp hk.suffix hbackup hfile

/-- What the class of the outcome tells about the file and the runtime. -/
theorem apply_classified (candidate : Candidate) (h h' : Host) (r : Except Exn Applied)
    (hrun : (apply dump candidate).Exec runtime h r h') :
    (∀ a, r = .ok a → a = ⟨true, candidate.version⟩ ∧
      ∃ bytes, dump (.obj candidate.content) = .ok bytes ∧ Serving h (.install bytes) (some bytes) h') ∧
    (∀ e, r = .error e → e.cls = rollbackVerified.cls →
      ∃ backup, Serving h (.restore backup) h.file h') ∧
    (∀ e, r = .error e → e.cls ≠ rollbackVerified.cls → e.cls ≠ rollbackUnknown.cls →
      Untouched h h') ∧
    ((¬∃ bytes, dump (.obj candidate.content) = .ok bytes ∧ Serving h (.install bytes) (some bytes) h') →
      (¬∃ backup, Serving h (.restore backup) h.file h') → ¬Untouched h h' →
      ∃ e, r = .error e ∧ e.cls = rollbackUnknown.cls) := by
  have hclassified := exec_of_wp (apply_wp dump candidate h) hrun
  refine ⟨hclassified.applied, hclassified.verified, hclassified.failed, ?_⟩
  intro hserving hrestored htouched
  cases r with
  | ok a => exact absurd (hclassified.applied a rfl).2 hserving
  | error e =>
    by_cases hverified : e.cls = rollbackVerified.cls
    · exact absurd (hclassified.verified e rfl hverified) hrestored
    · by_cases hunknown : e.cls = rollbackUnknown.cls
      · exact ⟨e, rfl, hunknown⟩
      · exact absurd (hclassified.failed e rfl hverified hunknown) htouched

end Dump

/-- A host after the reload of its new document has raised, and the earlier file was put back. -/
def rolledBackHost : Host where
  file := some [1]
  loaded := some [1]
  backups := [("config.yaml.bak", [1])]
  calls := [.reported true, .returned .reload, .returned (.restore "config.yaml.bak"), .raised .reload,
    .returned (.install [2]), .returned .backup, .returned (.controllerSecretMatches "s")]

theorem apply_rolls_back :
    ∃ backup, Serving ⟨some [1], some [1], [], []⟩ (.restore backup) (some [1]) rolledBackHost := by
  let raised : RuntimeExn := ⟨mihomoRuntimeError "Mihomo hot reload failed", by decide, by decide⟩
  let candidate : Candidate := .mihomo [("secret", .str "s")] (.other "v") "ref" 1 true
  have hrun : (apply (fun _ => .ok [2]) candidate).Exec runtime ⟨some [1], some [1], [], []⟩
      (.error rollbackVerified) rolledBackHost := by
    refine ⟨.ok true, _, ⟨_, rfl, rfl⟩, ?_⟩
    refine ⟨.ok "config.yaml.bak", _, ⟨_, rfl, [1], rfl, rfl⟩, ?_⟩
    refine ⟨.ok (), _, ⟨_, rfl, rfl⟩, ?_⟩
    refine ⟨.error raised.exc, _, ⟨_, rfl, ⟨raised, rfl⟩, .inl rfl⟩, ?_⟩
    refine ⟨.ok (), _, ⟨_, rfl, [1], rfl, rfl⟩, ?_⟩
    refine ⟨.ok (), _, ⟨_, rfl, rfl⟩, ?_⟩
    refine ⟨.ok ⟨true, [("mihomo_api", "True")]⟩, _, ⟨_, rfl, rfl⟩, ?_⟩
    exact ⟨rfl, rfl⟩
  exact (apply_classified (fun _ => .ok [2]) candidate _ _ _ hrun).2.1 rollbackVerified rfl rfl

end Lingsway.Forwarder
