import Lingsway.Infra.MihomoMaterialization
import Lingsway.Library.Concurrent

/-!
# Scheduler processes over one cache directory

Any number of scheduler processes share the cache files and the receipts, and may
crash at any call. A cache file is replaced at once by a document that has been
accepted whole, and a receipt certifies such a document.
-/
namespace Lingsway.Transport

open Library Program Forwarder

/-- A response of a subscription URL. -/
structure Fetched where
  url : String
  response : Response
  deriving DecidableEq

/-- The files, with the process that made each temporary one, all responses so far and the committed receipts. -/
structure World where
  initial : String → Option Bytes
  files : String → Option Bytes
  maker : String → Option ℕ
  fetched : List Fetched
  receipts : ℕ → Option Receipt

/-- The receipts that a session has not committed, newest first. -/
structure Session where
  pending : List Receipt

abbrev State := World × Session

/-- The program's parameters; the plaintext of a secret at a revision; the reference of a provider's record. -/
structure Setting where
  readers : Readers
  sha256 : Bytes → Digest
  short : String → String
  cacheRoot : String
  urlOf : String → ℤ → String
  secretRefOf : ℕ → String

/-- A commit that raises may have landed. -/
inductive CommitEnd where
  | done
  | raised (e : Exn) (landed : Bool)

/-- What the outside decides about a call. A write that fails may leave anything behind. -/
@[reducible] def Call.Choice : Call → Type
  | .secretSnapshot _ _ => Except Exn ℤ
  | .now => Timestamp
  | .write _ _ => Except (Exn × Bytes) Unit
  | .putReceipt _ => Unit
  | .commit => CommitEnd
  | c => Except Exn c.Answer

def replaced (files : String → Option Bytes) (name : String) (content : Option Bytes) : String → Option Bytes :=
  fun n => if n = name then content else files n

/-- The folder of a path and the name in it. -/
def splitPath (path : String) : List Char × List Char :=
  ((path.toList.reverse.dropWhile (· ≠ '/')).reverse, (path.toList.reverse.takeWhile (· ≠ '/')).reverse)

/-- `NamedTemporaryFile(dir=path.parent, prefix=f".{path.name}.", suffix=".tmp")` -/
def temporaryName (path random : String) : String :=
  String.ofList ((splitPath path).1 ++ '.' :: (splitPath path).2 ++ '.' :: random.toList ++ ".tmp".toList)

def missingFile {α : Type} : Except Exn α := .error ⟨.other "FileNotFoundError", ""⟩

def existingFile {α : Type} : Except Exn α := .error ⟨.other "FileExistsError", ""⟩

namespace World

def respond (w : World) (url : String) (response : Response) : World :=
  { w with fetched := ⟨url, response⟩ :: w.fetched }

def make (w : World) (i : ℕ) (name : String) : World :=
  { w with
    files := replaced w.files name (some [])
    maker := fun n => if n = name then some i else w.maker n }

def write (w : World) (name : String) (content : Bytes) : World :=
  { w with files := replaced w.files name (some content) }

def remove (w : World) (name : String) : World := { w with files := replaced w.files name none }

/-- `os.replace`. -/
def move (w : World) (name path : String) (content : Bytes) : World :=
  { w with files := replaced (replaced w.files path (some content)) name none }

def store (w : World) (receipt : Receipt) : World :=
  { w with receipts := fun owner => if owner = receipt.ownerRecordId then some receipt else w.receipts owner }

end World

/-- The pending receipts, the oldest first, are committed. -/
def landed (w : State) : State := (w.2.pending.foldr (fun receipt world => world.store receipt) w.1, ⟨[]⟩)

section Act

variable (K : Setting)

def actGet (url : String) (choice : Except Exn Response) (w : State) : Except Exn Response × State :=
  match choice with
  | .ok response => (.ok response, (w.1.respond url response, w.2))
  | .error e => (.error e, w)

/-- A temporary name that has been used is not used again. -/
def actTemporary (i : ℕ) (path : String) (choice : Except Exn String) (w : State) : Except Exn String × State :=
  match choice with
  | .ok random =>
    if w.1.maker (temporaryName path random) = none ∧ w.1.files (temporaryName path random) = none then
      (.ok (temporaryName path random), (w.1.make i (temporaryName path random), w.2))
    else (existingFile, w)
  | .error e => (.error e, w)

def actWrite (name : String) (content : Bytes) (choice : Except (Exn × Bytes) Unit) (w : State) :
    Except Exn Unit × State :=
  match choice with
  | .ok _ => (.ok (), (w.1.write name content, w.2))
  | .error (e, left) => (.error e, (w.1.write name left, w.2))

def actReplace (name path : String) (choice : Except Exn Unit) (w : State) : Except Exn Unit × State :=
  match choice, w.1.files name with
  | .ok _, some content => (.ok (), (w.1.move name path content, w.2))
  | .ok _, none => (missingFile, w)
  | .error e, _ => (.error e, w)

def actUnlink (name : String) (choice : Except Exn Unit) (w : State) : Except Exn Unit × State :=
  match choice, w.1.files name with
  | .ok _, some _ => (.ok (), (w.1.remove name, w.2))
  | .ok _, none => (missingFile, w)
  | .error e, _ => (.error e, w)

def actCommit (choice : CommitEnd) (w : State) : Except Exn Unit × State :=
  match choice with
  | .done => (.ok (), landed w)
  | .raised e true => (.error e, landed w)
  | .raised e false => (.error e, w)

def act (i : ℕ) : (c : Call) → c.Choice → State → Except Exn c.Answer × State
  | .secretSnapshot secretRef _, choice, w => (choice.map fun revision => ⟨K.urlOf secretRef revision, revision⟩, w)
  | .get url, choice, w => actGet url choice w
  | .now, choice, w => (.ok choice, w)
  | .temporary path, choice, w => actTemporary i path choice w
  | .write name content, choice, w => actWrite name content choice w
  | .replace name path, choice, w => actReplace name path choice w
  | .unlink name, choice, w => actUnlink name choice w
  | .putReceipt receipt, _, w => (.ok (), (w.1, ⟨receipt :: w.2.pending⟩))
  | .commit, choice, w => actCommit choice w
  | .rollback, choice, w => (choice, (w.1, ⟨[]⟩))
  | .enabledRecords, choice, w => (choice, w)
  | .readRecord _, choice, w => (choice, w)
  | .mkdir _, choice, w => (choice, w)
  | .chmod _, choice, w => (choice, w)
  | .selectEndpoint _ _, choice, w => (choice, w)
  | .insertEndpoint _ _, choice, w => (choice, w)
  | .updateEndpoint _ _, choice, w => (choice, w)
  | .selectStale _ _, choice, w => (choice, w)
  | .markRemoved _, choice, w => (choice, w)
  | .setCapacity _ _, choice, w => (choice, w)
  | .selectAlert _ _ _, choice, w => (choice, w)
  | .insertAlert _, choice, w => (choice, w)
  | .setHealth _ _ _, choice, w => (choice, w)
  | .selectReceipt _, choice, w => (choice, w)
  | .providerStatus _, choice, w => (choice, w)
  | .setStatus _ _, choice, w => (choice, w)
  | .addAuditLog _, choice, w => (choice, w)

def schedulers : Agents calls Exn World Session where
  Choice := Call.Choice
  act := act K
  leave := fun _ w => w

/-- Nothing changes the secret reference of a record. -/
def conductCall : (c : Call) → State → Except Exn c.Answer → Prop
  | .readRecord recordId, _, .ok record => record.secretRef = K.secretRefOf recordId
  | _, _, _ => True

def conduct : Conduct calls Exn World Session where
  call := fun _ c w x _ => conductCall K c w x
  crash := fun _ _ => True

/-- The transport part of a scheduler process of `n` batches. -/
def scheduler (n : ℕ) : Work Unit := batches K.readers K.sha256 K.short K.cacheRoot n []

/-- The runs over a cache directory that no receipt is known of. -/
abbrev ReachableBy (n : ℕ) : Configuration calls Exn Unit World Session → Prop :=
  (schedulers K).Reachable (conduct K) (scheduler K n) ⟨[]⟩ fun w =>
    w.files = w.initial ∧ (∀ name, w.maker name = none) ∧ w.fetched = [] ∧ ∀ owner, w.receipts owner = none

end Act


section Paths

theorem getLast_cachePath (short : String → String) (cacheRoot : String) (d : TransportProviderDescriptor) :
    (cachePath short cacheRoot d).toList.getLast? = some 'l' := by
  have hjoin : (cachePath short cacheRoot d).toList = (String.join [cacheRoot, "/", toString d.recordId, "-",
      safeCode d.code, "-", short ("|".intercalate [toString d.recordId, d.code, d.kind, d.implementation]),
      ".yam"]).toList ++ ['l'] := by
    simp [cachePath, String.join, String.toList_append]
  rw [hjoin, List.getLast?_concat]

theorem getLast_temporaryName (path random : String) : (temporaryName path random).toList.getLast? = some 'p' := by
  have htail : (temporaryName path random).toList =
      (splitPath path).1 ++ '.' :: (splitPath path).2 ++ '.' :: random.toList ++ ".tm".toList ++ ['p'] := by
    simp [temporaryName]
  rw [htail, List.getLast?_concat]

/-- A cache file is no temporary. -/
theorem temporaryName_ne (short : String → String) (cacheRoot : String) (d : TransportProviderDescriptor)
    (path random : String) : temporaryName path random ≠ cachePath short cacheRoot d := by
  intro h
  have hlast := getLast_temporaryName path random
  rw [h, getLast_cachePath] at hlast
  cases hlast

theorem not_mem_toDigits (n : ℕ) : '-' ∉ Nat.toDigits 10 n := by
  intro h
  have hdigit := Nat.isDigit_of_mem_toDigits (by decide) (by decide) h
  exact absurd hdigit (by decide)

/-- The caches of two records are two files. -/
theorem recordId_of_cachePath {short : String → String} {cacheRoot : String} {d d' : TransportProviderDescriptor}
    (h : cachePath short cacheRoot d = cachePath short cacheRoot d') : d.recordId = d'.recordId := by
  have hlist := congrArg String.toList h
  simp only [cachePath, String.join, List.foldl_cons, List.foldl_nil, String.toList_append, List.append_assoc] at hlist
  have hid : ∀ (n : ℕ) (rest : List Char),
      ((toString n).toList ++ ("-".toList ++ rest)).takeWhile (· ≠ '-') = Nat.toDigits 10 n := by
    intro n rest
    have hdigits : (toString n).toList = Nat.toDigits 10 n := by simp
    rw [hdigits, List.takeWhile_append_of_pos]
    · simp
    · intro c hc
      simpa using ne_of_mem_of_not_mem hc (not_mem_toDigits n)
  have htail := List.append_cancel_left (List.append_cancel_left (List.append_cancel_left hlist))
  have hdigits := congrArg (List.takeWhile (· ≠ '-')) htail
  rw [hid, hid] at hdigits
  have hvalue := congrArg (fun ds => Nat.ofDigitChars 10 ds 0) hdigits
  simpa [Nat.ofDigitChars_toDigits] using hvalue

end Paths

section Facts

variable (K : Setting)

/-- A response whose document is cached for a provider of this code. -/
def Accepted (code : String) (response : Response) : Prop :=
  (∃ endpoints, parseSubscription K.readers code response.text = .ok endpoints) ∧
    validateMihomoProviderDocument K.readers response.text = .ok ()

/-- A response of the URL that the secret of a record had at one revision, accepted for its provider. -/
structure Origin (fetched : List Fetched) (d : TransportProviderDescriptor) (revision : ℤ) (f : Fetched) : Prop where
  mem : f ∈ fetched
  secretRef : d.secretRef = K.secretRefOf d.recordId
  url : f.url = K.urlOf d.secretRef revision
  accepted : Accepted K d.code f.response

theorem Origin.mono {K : Setting} {fetched fetched' : List Fetched} {d : TransportProviderDescriptor} {revision : ℤ}
    {f : Fetched} (h : Origin K fetched d revision f) (hsub : fetched ⊆ fetched') :
    Origin K fetched' d revision f := ⟨hsub h.mem, h.secretRef, h.url, h.accepted⟩

def pathOf (d : TransportProviderDescriptor) : String := cachePath K.short K.cacheRoot d

/-- The whole body of such a response may be in the file. -/
def Cached (path : String) (content : Bytes) (fetched : List Fetched) : Prop :=
  ∃ d revision f, Origin K fetched d revision f ∧ path = pathOf K d ∧ f.response.content = content

def Certified (receipt : Receipt) (fetched : List Fetched) : Prop :=
  ∃ d f, Origin K fetched d receipt.sourceRevision f ∧ d.recordId = receipt.ownerRecordId ∧
    receipt.providerCode = d.code ∧ receipt.cacheIdentity = pathOf K d ∧
    receipt.contentHash = K.sha256 f.response.content

/-- A provider that has been resolved, and what its proof is of. -/
structure Bound (d : TransportProviderDescriptor) (revision : ℤ) (p : SubscriptionTransportProvider)
    (fetched : List Fetched) : Prop where
  secretRef : d.secretRef = K.secretRefOf d.recordId
  code : p.providerCode = d.code
  url : p.url = K.urlOf d.secretRef revision
  path : p.cachePath = some (pathOf K d)
  sourceRevision : p.sourceRevision = some revision
  hash : ∀ h, p.lastContentHash = some h →
    ∃ f, Origin K fetched d revision f ∧ h = K.sha256 f.response.content
  identity : ∀ path, p.lastCacheIdentity = some path → path = pathOf K d

def Resolvers (resolver : Resolver) (fetched : List Fetched) : Prop :=
  ∀ r ∈ resolver, Bound K r.descriptor r.revision r.provider fetched

/-- What is known of the responses stays so. -/
def Lasting (R : List Fetched → Prop) : Prop := ∀ fetched fetched', fetched ⊆ fetched' → R fetched → R fetched'

variable {K}

theorem lasting_true : Lasting fun _ => True := fun _ _ _ h => h

theorem Lasting.and {R T : List Fetched → Prop} (hR : Lasting R) (hT : Lasting T) :
    Lasting fun fetched => R fetched ∧ T fetched :=
  fun _ _ hsub h => ⟨hR _ _ hsub h.1, hT _ _ hsub h.2⟩

theorem lasting_source {d : TransportProviderDescriptor} {revision : ℤ} {f : Fetched} :
    Lasting fun fetched => Origin K fetched d revision f := fun _ _ hsub h => h.mono hsub

theorem lasting_cached {path : String} {content : Bytes} : Lasting (Cached K path content) := by
  rintro fetched fetched' hsub ⟨d, revision, f, hsource, hrest⟩
  exact ⟨d, revision, f, hsource.mono hsub, hrest⟩

theorem lasting_certified {receipt : Receipt} : Lasting (Certified K receipt) := by
  rintro fetched fetched' hsub ⟨d, f, hsource, hrest⟩
  exact ⟨d, f, hsource.mono hsub, hrest⟩

theorem lasting_bound {d : TransportProviderDescriptor} {revision : ℤ} {p : SubscriptionTransportProvider} :
    Lasting (Bound K d revision p) := by
  intro fetched fetched' hsub h
  refine { h with hash := fun digest hdigest => ?_ }
  obtain ⟨f, hsource, hhash⟩ := h.hash digest hdigest
  exact ⟨f, hsource.mono hsub, hhash⟩

theorem lasting_resolvers {resolver : Resolver} : Lasting (Resolvers K resolver) :=
  fun _ _ hsub h r hr => lasting_bound _ _ hsub (h r hr)

/-- The proof of a bound provider is certified by a receipt of its record. -/
theorem Bound.certified {d : TransportProviderDescriptor} {revision : ℤ} {p : SubscriptionTransportProvider}
    {fetched : List Fetched} (h : Bound K d revision p fetched) {path : String} {digest : Digest} {sourceRevision : ℤ}
    (hproof : p.materializationProof = some (path, digest, sourceRevision)) (deadline : Timestamp) :
    Certified K ⟨d.recordId, d.code, sourceRevision, path, digest, deadline⟩ fetched := by
  simp only [SubscriptionTransportProvider.materializationProof, Option.bind_eq_bind, Option.bind_eq_some_iff, Option.some.injEq,
    Prod.mk.injEq] at hproof
  obtain ⟨_, hdigest, _, hpath, _, hrevision, rfl, rfl, rfl⟩ := hproof
  obtain ⟨f, hsource, rfl⟩ := h.hash _ hdigest
  obtain rfl := Option.some.inj (h.sourceRevision.symm.trans hrevision)
  exact ⟨d, f, hsource, rfl, rfl, h.identity _ hpath, rfl⟩

end Facts

section Contract

variable {K : Setting} {i : ℕ}

/-- What process `i` may do to the shared state. -/
structure Guarantee (i : ℕ) (s t : World) : Prop where
  initial : t.initial = s.initial
  fetched : s.fetched ⊆ t.fetched
  maker : ∀ name j, s.maker name = some j → t.maker name = some j
  files : ∀ name j, t.maker name = some j → j ≠ i → t.files name = s.files name

theorem Guarantee.refl (i : ℕ) (s : World) : Guarantee i s s := ⟨rfl, fun _ h => h, fun _ _ h => h, fun _ _ _ _ => rfl⟩

structure Invariant (K : Setting) (s : World) : Prop where
  files : ∀ path content, s.files path = some content → s.maker path = none →
    s.initial path = some content ∨ Cached K path content s.fetched
  temporary : ∀ name j, s.maker name = some j → ∀ d, name ≠ pathOf K d
  receipts : ∀ owner receipt, s.receipts owner = some receipt →
    receipt.ownerRecordId = owner ∧ Certified K receipt s.fetched

def contract (K : Setting) : Contract calls Exn World Session where
  guarantee := Guarantee
  invariant := Invariant K
  absent _ _ := True
  kept _ w := ∀ receipt ∈ w.2.pending, Certified K receipt w.1.fetched
  safe _ _ _ _ _ := True

abbrev among (K : Setting) (i : ℕ) : Handler calls Exn State := (contract K).handler (schedulers K) (conduct K) i

theorem stable_lasting {R : List Fetched → Prop} (hR : Lasting R) :
    (contract K).Stable i fun w => R w.1.fetched := fun _ _ _ _ _ hguarantee _ h => hR _ _ hguarantee.fetched h

/-- The temporary file of a process is its own. -/
theorem stable_file {name : String} {content : Option Bytes} :
    (contract K).Stable i fun w => w.1.maker name = some i ∧ w.1.files name = content := by
  rintro j s t l hj hguarantee - ⟨hmaker, hfile⟩
  have hmaker' := hguarantee.maker name i hmaker
  exact ⟨hmaker', (hguarantee.files name i hmaker' (Ne.symm hj)).trans hfile⟩

theorem stable_maker {name : String} : (contract K).Stable i fun w => w.1.maker name = some i :=
  fun _ _ _ _ _ hguarantee _ h => hguarantee.maker name i h

end Contract

section Calls

variable {K : Setting} {i : ℕ} {w w' : State}

/-- What any step of any process keeps. -/
def Enduring (I : World → Prop) : Prop := ∀ j s t, Guarantee j s t → I s → I t

theorem Lasting.enduring {R : List Fetched → Prop} (hR : Lasting R) : Enduring fun s => R s.fetched :=
  fun _ _ _ hguarantee h => hR _ _ hguarantee.fetched h

theorem enduring_maker {name : String} {j : ℕ} : Enduring fun s => s.maker name = some j :=
  fun _ _ _ hguarantee h => hguarantee.maker name j h

theorem Enduring.and {I J : World → Prop} (hI : Enduring I) (hJ : Enduring J) : Enduring fun s => I s ∧ J s :=
  fun j s t hguarantee h => ⟨hI j s t hguarantee h.1, hJ j s t hguarantee h.2⟩

theorem Enduring.stable {I : World → Prop} (hI : Enduring I) : (contract K).Stable i fun w => I w.1 :=
  fun j s t _ _ hguarantee _ h => hI j s t hguarantee h

/-- The calls that need no assertion. -/
def Call.Plain : Call → Prop
  | .write _ _ | .replace _ _ | .unlink _ | .putReceipt _ => False
  | _ => True

theorem store_fetched (receipts : List Receipt) (s : World) :
    (receipts.foldr (fun receipt world => world.store receipt) s).fetched = s.fetched := by
  induction receipts with
  | nil => rfl
  | cons receipt receipts ih => exact ih

theorem store_files (receipts : List Receipt) (s : World) :
    (receipts.foldr (fun receipt world => world.store receipt) s).files = s.files ∧
      (receipts.foldr (fun receipt world => world.store receipt) s).maker = s.maker ∧
      (receipts.foldr (fun receipt world => world.store receipt) s).initial = s.initial := by
  induction receipts with
  | nil => exact ⟨rfl, rfl, rfl⟩
  | cons receipt receipts ih => exact ih

/-- A committed receipt was there, or was pending. -/
theorem store_receipts {receipts : List Receipt} {s : World} {owner : ℕ} {receipt : Receipt}
    (h : (receipts.foldr (fun receipt world => world.store receipt) s).receipts owner = some receipt) :
    s.receipts owner = some receipt ∨ (receipt ∈ receipts ∧ receipt.ownerRecordId = owner) := by
  induction receipts with
  | nil => exact .inl h
  | cons first rest ih =>
    simp only [List.foldr_cons, World.store] at h
    split_ifs at h with howner
    · obtain rfl := Option.some.inj h
      exact .inr ⟨List.mem_cons_self, howner.symm⟩
    · obtain hbefore | ⟨hmem, howner'⟩ := ih h
      · exact .inl hbefore
      · exact .inr ⟨List.mem_cons_of_mem _ hmem, howner'⟩

theorem invariant_landed (hinv : Invariant K w.1) (hkept : ∀ receipt ∈ w.2.pending, Certified K receipt w.1.fetched) :
    Invariant K (landed w).1 ∧ Guarantee i w.1 (landed w).1 := by
  obtain ⟨hfiles, hmaker, hinitial⟩ := store_files w.2.pending w.1
  have hfetched := store_fetched w.2.pending w.1
  refine ⟨⟨?_, ?_, ?_⟩, ⟨hinitial, ?_, ?_, ?_⟩⟩
  · intro path content hfile hnone
    simp only [landed, hfiles, hmaker, hinitial, hfetched] at hfile hnone ⊢
    exact hinv.files path content hfile hnone
  · intro name j hname
    simp only [landed, hmaker] at hname
    exact hinv.temporary name j hname
  · intro owner receipt hreceipt
    simp only [landed, hfetched] at hreceipt ⊢
    obtain hbefore | ⟨hmem, howner⟩ := store_receipts hreceipt
    · exact hinv.receipts owner receipt hbefore
    · exact ⟨howner, hkept receipt hmem⟩
  · simp only [landed, hfetched]
    exact fun _ h => h
  · intro name j hname
    simpa only [landed, hmaker] using hname
  · intro name j _ _
    simp only [landed, hfiles]

theorem fine_same {c : Call} {x : Except Exn c.Answer} (hinv : Invariant K w.1)
    (hkept : ∀ receipt ∈ w.2.pending, Certified K receipt w.1.fetched) : (contract K).Fine i c w x w :=
  ⟨.refl i w.1, hinv, hkept, trivial⟩

theorem fine_landed {c : Call} {x : Except Exn c.Answer} (hinv : Invariant K w.1)
    (hkept : ∀ receipt ∈ w.2.pending, Certified K receipt w.1.fetched) : (contract K).Fine i c w x (landed w) := by
  obtain ⟨hinv', hguarantee⟩ := invariant_landed (i := i) hinv hkept
  refine ⟨hguarantee, hinv', ?_, trivial⟩
  intro receipt hreceipt
  cases hreceipt

theorem fine_respond {c : Call} {x : Except Exn c.Answer} {url : String} {response : Response}
    (hinv : Invariant K w.1) (hkept : ∀ receipt ∈ w.2.pending, Certified K receipt w.1.fetched) :
    (contract K).Fine i c w x (w.1.respond url response, w.2) := by
  have hsub : w.1.fetched ⊆ (w.1.respond url response).fetched := List.subset_cons_self _ _
  have hinv' : Invariant K (w.1.respond url response) := by
    refine ⟨?_, hinv.temporary, ?_⟩
    · intro path content hfile hnone
      exact (hinv.files path content hfile hnone).imp_right (lasting_cached _ _ hsub)
    · intro owner receipt hreceipt
      obtain ⟨howner, hcertified⟩ := hinv.receipts owner receipt hreceipt
      exact ⟨howner, lasting_certified _ _ hsub hcertified⟩
  refine ⟨⟨rfl, hsub, fun _ _ h => h, fun _ _ _ _ => rfl⟩, hinv', ?_, trivial⟩
  exact fun receipt hreceipt => lasting_certified _ _ hsub (hkept receipt hreceipt)

/-- A file changes that process `i` has made, or has none. -/
theorem fine_files {c : Call} {x : Except Exn c.Answer} {files : String → Option Bytes} (hinv : Invariant K w.1)
    (hkept : ∀ receipt ∈ w.2.pending, Certified K receipt w.1.fetched)
    (hown : ∀ name j, w.1.maker name = some j → j ≠ i → files name = w.1.files name)
    (hcached : ∀ path content, files path = some content → w.1.maker path = none →
      w.1.initial path = some content ∨ Cached K path content w.1.fetched) :
    (contract K).Fine i c w x ({ w.1 with files := files }, w.2) :=
  ⟨⟨rfl, fun _ h => h, fun _ _ h => h, hown⟩, ⟨hcached, hinv.temporary, hinv.receipts⟩, hkept, trivial⟩

theorem invariant_make {s : World} {name : String} (hinv : Invariant K s) (hname : ∀ d, name ≠ pathOf K d) :
    Invariant K (s.make i name) := by
  refine ⟨?_, ?_, hinv.receipts⟩
  · intro path content hfile hnone
    dsimp only [World.make, replaced] at hfile hnone
    split_ifs at hfile hnone
    exact hinv.files path content hfile hnone
  · intro other j hmaker d
    dsimp only [World.make] at hmaker
    split_ifs at hmaker with hother
    · rw [hother]
      exact hname d
    · exact hinv.temporary other j hmaker d

theorem guarantee_make {s : World} {name : String} (hnew : s.maker name = none) : Guarantee i s (s.make i name) := by
  refine ⟨rfl, fun _ h => h, ?_, ?_⟩
  · intro other j hmaker
    dsimp only [World.make]
    split_ifs with hother
    · rw [hother, hnew] at hmaker
      cases hmaker
    · exact hmaker
  · intro other j hmaker hj
    dsimp only [World.make] at hmaker
    split_ifs at hmaker with hother
    · exact absurd (Option.some.inj hmaker).symm hj
    · exact if_neg hother

theorem fine_plain {c : Call} {choice : c.Choice} {x : Except Exn c.Answer} (hplain : c.Plain) (hinv : Invariant K w.1)
    (hkept : ∀ receipt ∈ w.2.pending, Certified K receipt w.1.fetched) (hact : act K i c choice w = (x, w'))
    (hallowed : conductCall K c w x) : (contract K).Fine i c w x w' := by
  cases c with
  | write name content => cases hplain
  | replace name path => cases hplain
  | unlink name => cases hplain
  | putReceipt receipt => cases hplain
  | get url =>
    cases choice with
    | ok response =>
      cases hact
      exact fine_respond hinv hkept
    | error e =>
      cases hact
      exact fine_same hinv hkept
  | temporary path =>
    cases choice with
    | ok random =>
      have hresult : actTemporary i path (.ok random) w = (x, w') := hact
      rw [actTemporary] at hresult
      split_ifs at hresult with hnew
      · cases hresult
        exact ⟨guarantee_make hnew.1, invariant_make hinv fun d => temporaryName_ne _ _ d _ _, hkept, trivial⟩
      · cases hresult
        exact fine_same hinv hkept
    | error e =>
      cases hact
      exact fine_same hinv hkept
  | commit =>
    cases choice with
    | done =>
      cases hact
      exact fine_landed hinv hkept
    | raised e landed =>
      cases landed <;> cases hact
      · exact fine_same hinv hkept
      · exact fine_landed hinv hkept
  | rollback =>
    cases hact
    exact ⟨.refl i w.1, hinv, fun _ h => absurd h List.not_mem_nil, trivial⟩
  | _ =>
    cases hact
    exact fine_same hinv hkept

/-- A program of such calls keeps what endures. -/
theorem keeps_plain {α : Type} {p : Work α} (hp : p.Calls Call.Plain) {I : World → Prop} (hI : Enduring I) :
    Keeps (among K i) (fun w => I w.1) p := by
  refine hp.keeps fun c w x w' hplain hw hstep => ?_
  have hfine : ∀ s choice, (contract K).invariant s → (contract K).kept i (s, w.2) →
      act K i c choice (s, w.2) = (x, w') → conductCall K c (s, w.2) x → (contract K).Fine i c (s, w.2) x w' :=
    fun s choice hinv hkept hact hallowed => fine_plain hplain hinv hkept hact hallowed
  constructor
  · intro s choice _ hinv hkept hact hallowed
    obtain ⟨hguarantee, hinv', hkept', hsafe⟩ := hfine s choice hinv hkept hact hallowed
    exact ⟨hguarantee, hinv', hkept', hsafe⟩
  · obtain ⟨s, choice, hrely, hinv, hkept, hact, hallowed⟩ := hstep
    exact hI i s w'.1 (hfine s choice hinv hkept hact hallowed).guarantee
      (hI.stable.rely (P := fun w => I w.1) (l := w.2) hrely hw)

theorem keeps_call {c : Call} (hplain : c.Plain) {I : World → Prop} (hI : Enduring I) :
    Keeps (among K i) (fun w => I w.1) (perform c) := keeps_plain (Calls.perform hplain) hI

/-- The rule of such a call, for what its answer says. -/
theorem plain_wp {c : Call} {I : World → Prop} {Q : Except Exn c.Answer → State → Prop} (hplain : c.Plain)
    (hI : Enduring I)
    (h : ∀ s l choice, I s → conductCall K c (s, l) (act K i c choice (s, l)).1 →
      I (act K i c choice (s, l)).2.1 → Q (act K i c choice (s, l)).1 (act K i c choice (s, l)).2)
    (hw : I w.1) : (perform c).wp (among K i) Q w := by
  refine Contract.perform_wp (P := fun w => I w.1) hI.stable ?_ hw
  intro s l choice x w' hinv hkept hs hact hallowed
  have hfine := fine_plain (w := (s, l)) hplain hinv hkept hact hallowed
  refine ⟨hfine, ?_⟩
  have hresult : act K i c choice (s, l) = (x, w') := hact
  have hcalled := h s l choice hs
  rw [hresult] at hcalled
  exact hcalled hallowed (hI i s w'.1 hfine.guarantee hs)

end Calls

end Lingsway.Transport
