import Lingsway.Workers.TransportRuns

/-!
# What the transport caches and their receipts come from

Each function of the scheduler is verified once against the other processes. A
cache file is then never a part of a document, and what the forwarder is given is
what the present subscription URL of the provider has answered.
-/
namespace Lingsway.Transport

open Library Program Forwarder

section Files

variable {K : Setting} {i : ℕ} {w : State} {name path : String} {content : Bytes} {J : World → Prop}

/-- Process `i` changes a file of its own. -/
theorem fine_own {c : Call} {x : Except Exn c.Answer} {left : Option Bytes} (hinv : Invariant K w.1)
    (hkept : ∀ receipt ∈ w.2.pending, Certified K receipt w.1.fetched) (hown : w.1.maker name = some i) :
    (contract K).Fine i c w x ({ w.1 with files := replaced w.1.files name left }, w.2) := by
  refine fine_files hinv hkept ?_ ?_
  · intro other j hmaker hj
    refine if_neg fun hother => ?_
    rw [hother, hown] at hmaker
    exact hj (Option.some.inj hmaker).symm
  · intro other left' hfile hnone
    dsimp only [replaced] at hfile
    split_ifs at hfile with hother
    · rw [hother, hown] at hnone
      cases hnone
    · exact hinv.files other left' hfile hnone

theorem write_wp (hJ : Enduring J) (hown : ∀ s, J s → s.maker name = some i) (hw : J w.1) :
    (perform (.write name content)).wp (among K i)
      (fun x w' => J w'.1 ∧ (x = .ok () → w'.1.files name = some content)) w := by
  refine Contract.perform_wp (P := fun w => J w.1) hJ.stable ?_ hw
  intro s l choice x w' hinv hkept hs hact _
  have hfine : ∀ left : Option Bytes, (contract K).Fine i (.write name content) (s, l) x
      ({ s with files := replaced s.files name left }, l) :=
    fun left => fine_own (w := (s, l)) hinv hkept (hown s hs)
  cases choice with
  | ok _ =>
    cases hact
    exact ⟨hfine (some content), hJ i _ _ (hfine (some content)).guarantee hs, fun _ => if_pos rfl⟩
  | error failure =>
    cases hact
    refine ⟨hfine (some failure.2), hJ i _ _ (hfine (some failure.2)).guarantee hs, fun h => ?_⟩
    cases h

theorem unlink_wp (hJ : Enduring J) (hown : ∀ s, J s → s.maker name = some i) (hw : J w.1) :
    (perform (.unlink name)).wp (among K i) (fun _ w' => J w'.1) w := by
  refine Contract.perform_wp (P := fun w => J w.1) hJ.stable ?_ hw
  intro s l choice x w' hinv hkept hs hact _
  have hsame : (contract K).Fine i (.unlink name) (s, l) x (s, l) := fine_same (w := (s, l)) hinv hkept
  have hremoved : (contract K).Fine i (.unlink name) (s, l) x (s.remove name, l) :=
    fine_own (w := (s, l)) hinv hkept (hown s hs)
  have hcases : w' = (s, l) ∨ w' = (s.remove name, l) := by
    have hresult : (actUnlink name choice (s, l)).2 = w' := congrArg Prod.snd hact
    unfold actUnlink at hresult
    split at hresult
    · exact .inr hresult.symm
    · exact .inl hresult.symm
    · exact .inl hresult.symm
  obtain rfl | rfl := hcases
  · exact ⟨hsame, hs⟩
  · exact ⟨hremoved, hJ i _ _ hremoved.guarantee hs⟩

/-- The temporary file replaces the cache, whose new content is accounted for. -/
theorem replace_wp (hJ : Enduring J) (hown : ∀ s, J s → s.maker name = some i) (hpath : ∃ d, path = pathOf K d)
    (hcached : ∀ s, J s → Cached K path content s.fetched) (hw : J w.1 ∧ w.1.files name = some content) :
    (perform (.replace name path)).wp (among K i) (fun _ w' => J w'.1) w := by
  have hstable : (contract K).Stable i fun w => J w.1 ∧ w.1.maker name = some i ∧ w.1.files name = some content :=
    hJ.stable.and stable_file
  refine Contract.perform_wp hstable ?_ ⟨hw.1, hown _ hw.1, hw.2⟩
  rintro s l choice x w' hinv hkept ⟨hs, hmaker, hfile⟩ hact -
  obtain ⟨d, rfl⟩ := hpath
  have hsame : (contract K).Fine i (.replace name (pathOf K d)) (s, l) x (s, l) := fine_same (w := (s, l)) hinv hkept
  have hmoved : (contract K).Fine i (.replace name (pathOf K d)) (s, l) x (s.move name (pathOf K d) content, l) := by
    refine fine_files (w := (s, l)) hinv hkept ?_ ?_
    · intro other j hother hj
      have hne : other ≠ name := by
        rintro rfl
        exact hj (Option.some.inj (hother.symm.trans hmaker))
      simp only [replaced, if_neg hne, if_neg (hinv.temporary other j hother d)]
    · intro other left hleft hnone
      dsimp only [replaced] at hleft
      split_ifs at hleft with hname hpath
      · obtain rfl := Option.some.inj hleft
        rw [hpath]
        exact .inr (hcached s hs)
      · exact hinv.files other left hleft hnone
  have hcases : w' = (s, l) ∨ w' = (s.move name (pathOf K d) content, l) := by
    have hresult : (actReplace name (pathOf K d) choice (s, l)).2 = w' := congrArg Prod.snd hact
    cases choice with
    | ok _ =>
      right
      have hfile' : s.files name = some content := hfile
      rw [← hresult]
      simp only [actReplace, hfile']
    | error e => exact .inl hresult.symm
  obtain rfl | rfl := hcases
  · exact ⟨hsame, hs⟩
  · exact ⟨hmoved, hJ i _ _ hmoved.guarantee hs⟩

theorem replaceBy_wp (hJ : Enduring J) (hown : ∀ s, J s → s.maker name = some i) (hpath : ∃ d, path = pathOf K d)
    (hcached : ∀ s, J s → Cached K path content s.fetched) (hw : J w.1) :
    (replaceBy name path content).wp (among K i) (fun _ w' => J w'.1) w := by
  have hchmod : ∀ file, Keeps (among K i) (fun w => J w.1) (perform (.chmod file)) :=
    fun file => keeps_call (c := .chmod file) trivial hJ
  refine (hchmod name).wp_bind (fun _ _ h => h) (fun _ w hw => ?_) hw
  have hwrite : (perform (.write name content)).wp (among K i)
      (fun x w' => J w'.1 ∧ (x = .ok () → w'.1.files name = some content)) w := write_wp hJ hown hw
  refine (iff_of_eq (wp_bind _ _ _ _ _)).mpr (wp_mono _ _ ?_ hwrite)
  rintro (e | _) w ⟨hw, hwritten⟩
  · exact hw
  · refine (iff_of_eq (wp_bind _ _ _ _ _)).mpr (wp_mono _ _ ?_
      (replace_wp hJ hown hpath hcached ⟨hw, hwritten rfl⟩))
    rintro (e | _) w hw
    · exact hw
    · exact hchmod path w hw

/-- `write_provider_cache` caches an accepted document. -/
theorem writeProviderCache_wp (hJ : Enduring J) (hpath : ∃ d, path = pathOf K d)
    (hcached : ∀ s, J s → Cached K path content s.fetched) (hw : J w.1) :
    (writeProviderCache path content).wp (among K i) (fun _ w' => J w'.1) w := by
  refine (keeps_call (c := .mkdir path) trivial hJ).wp_bind (fun _ _ h => h) (fun _ w hw => ?_) hw
  refine (iff_of_eq (wp_bind _ _ _ _ _)).mpr (plain_wp (I := J) trivial hJ ?_ hw)
  intro s l choice _ _ hs'
  cases choice with
  | error e => exact hs'
  | ok random =>
    change J (actTemporary i path (.ok random) (s, l)).2.1 at hs'
    change bindPost _ _ _ (actTemporary i path (.ok random) (s, l)).1 (actTemporary i path (.ok random) (s, l)).2
    rw [actTemporary] at hs' ⊢
    split_ifs at hs' ⊢ with hnew
    swap
    · exact hs'
    have hmade : J (s.make i (temporaryName path random)) ∧
        (s.make i (temporaryName path random)).maker (temporaryName path random) = some i := ⟨hs', if_pos rfl⟩
    have hmaker : Enduring fun s => s.maker (temporaryName path random) = some i := enduring_maker
    have hboth := hJ.and hmaker
    change ((replaceBy (temporaryName path random) path content).tryFinally _).wp _ _ _
    rw [wp_tryFinally]
    refine wp_mono _ _ ?_ (replaceBy_wp hboth (fun _ h => h.2) hpath (fun s h => hcached s h.1) hmade)
    intro r w hw
    have hunlink : (unlinkTemporary (temporaryName path random)).wp (among K i) (fun _ w' => J w'.1) w := by
      rw [unlinkTemporary, wp_tryCatch]
      refine wp_mono _ _ ?_ (unlink_wp hboth (fun _ h => h.2) hw)
      rintro (e | _) w' hw'
      · rw [catchPost_error]
        split_ifs
        · exact hw'.1
        · exact hw'.1
      · exact hw'.1
    refine wp_mono _ _ ?_ hunlink
    rintro (e | _) w' hw'
    · exact hw'
    · exact hw'

end Files

section Provider

variable {K : Setting} {i : ℕ} {w : State} {I : World → Prop}

theorem fetch_wp (hI : Enduring I) (url : String) (hw : I w.1) :
    (fetch url).wp (among K i)
      (fun r w' => I w'.1 ∧ ∀ response, r = .ok response → ⟨url, response⟩ ∈ w'.1.fetched) w := by
  rw [fetch, wp_tryCatch]
  refine plain_wp (c := .get url) trivial hI ?_ hw
  intro s l choice _ _ hs'
  cases choice with
  | ok response =>
    refine ⟨hs', fun found hfound => ?_⟩
    obtain rfl := Except.ok.inj hfound
    exact List.mem_cons_self
  | error e =>
    change (if e.cls = .other "HTTPError" then runtimeError "Subscription fetch failed" else .raise e : Work Response).wp
      (among K i) _ _
    split_ifs
    · exact ⟨hs', fun _ h => by cases h⟩
    · exact ⟨hs', fun _ h => by cases h⟩

variable {d : TransportProviderDescriptor} {revision : ℤ} {p : SubscriptionTransportProvider}

/-- An accepted response is cached, and its hash is known. -/
theorem cacheResponse_wp (hI : Enduring I) {f : Fetched}
    (hread : ∃ endpoints, parseSubscription K.readers d.code f.response.text = .ok endpoints)
    (hsource : ∀ s, I s → f ∈ s.fetched) (href : d.secretRef = K.secretRefOf d.recordId)
    (hurl : f.url = K.urlOf d.secretRef revision) (hw : I w.1) :
    (cacheResponse K.readers K.sha256 (pathOf K d) f.response).wp (among K i)
      (fun r w' => I w'.1 ∧ ∀ proof, r = .ok proof → proof = (K.sha256 f.response.content, pathOf K d) ∧
        Origin K w'.1.fetched d revision f) w := by
  refine (iff_of_eq (wp_bind _ _ _ _ _)).mpr ?_
  rw [wp_ofExcept]
  cases hvalid : validateMihomoProviderDocument K.readers f.response.text with
  | error e => exact ⟨hw, fun _ h => by cases h⟩
  | ok _ =>
    have horigin : ∀ s, I s → Origin K s.fetched d revision f :=
      fun s hs => ⟨hsource s hs, href, hurl, hread, hvalid⟩
    rw [bindPost_ok]
    refine (iff_of_eq (wp_bind _ _ _ _ _)).mpr (wp_mono _ _ ?_
      (writeProviderCache_wp hI ⟨d, rfl⟩ (fun s hs => ⟨d, revision, f, horigin s hs, rfl, rfl⟩) hw))
    rintro (e | _) w' hw'
    · exact ⟨hw', fun _ h => by cases h⟩
    · refine ⟨hw', fun proof h => ?_⟩
      obtain rfl := Except.ok.inj h
      exact ⟨rfl, horigin _ hw'⟩

/-- `sync_nodes` leaves a provider whose proof is of a response of its own. -/
theorem syncNodes_wp (hI : Enduring I) (hbound : ∀ s, I s → Bound K d revision p s.fetched) (hw : I w.1) :
    (p.syncNodes K.readers K.sha256).wp (among K i)
      (fun r w' => I w'.1 ∧ ∀ p', r = .ok p' → Bound K d revision p' w'.1.fetched) w := by
  have hp := hbound _ hw
  refine (iff_of_eq (wp_bind _ _ _ _ _)).mpr (wp_mono _ _ ?_ (fetch_wp hI p.url hw))
  rintro (e | response) w' ⟨hw', hfetched⟩
  · exact ⟨hw', fun _ h => by cases h⟩
  have hI' : Enduring fun s => I s ∧ ⟨p.url, response⟩ ∈ s.fetched :=
    hI.and fun _ _ _ hguarantee hmem => hguarantee.fetched hmem
  refine (keeps_call (c := .now) trivial hI').wp_bind (fun _ _ h => ⟨h.1, fun _ h => by cases h⟩) ?_
    ⟨hw', hfetched response rfl⟩
  intro measuredAt w hw
  refine (iff_of_eq (wp_bind _ _ _ _ _)).mpr ?_
  rw [wp_ofExcept]
  cases parseSubscriptionUserinfo K.readers response.userinfo measuredAt with
  | error e => exact ⟨hw.1, fun _ h => by cases h⟩
  | ok capacity =>
    rw [bindPost_ok]
    refine (iff_of_eq (wp_bind _ _ _ _ _)).mpr ?_
    rw [wp_ofExcept]
    cases hread : parseSubscription K.readers p.providerCode response.text with
    | error e => exact ⟨hw.1, fun _ h => by cases h⟩
    | ok endpoints =>
      rw [bindPost_ok, hp.path]
      rw [hp.code] at hread
      refine (iff_of_eq (wp_bind _ _ _ _ _)).mpr (wp_mono _ _ ?_
        (cacheResponse_wp (f := ⟨p.url, response⟩) hI' ⟨endpoints, hread⟩ (fun _ h => h.2) hp.secretRef hp.url hw))
      rintro (e | proof) w ⟨hw, hproof⟩
      · exact ⟨hw.1, fun _ h => by cases h⟩
      · refine ⟨hw.1, fun p' h => ?_⟩
        obtain ⟨rfl, horigin⟩ := hproof proof rfl
        obtain rfl := Except.ok.inj h
        exact { hbound _ hw.1 with
          path := rfl
          hash := fun digest hdigest => ⟨_, horigin, (Option.some.inj hdigest).symm⟩
          identity := fun path hpath => (Option.some.inj hpath).symm }

theorem secretLoader_wp (hI : Enduring I) (secretRef purpose : String) (hw : I w.1) :
    (secretLoader secretRef purpose).wp (among K i)
      (fun r w' => I w'.1 ∧ ∀ snapshot, r = .ok snapshot →
        snapshot.value = K.urlOf secretRef snapshot.revision) w := by
  rw [secretLoader, wp_tryCatch]
  refine plain_wp (c := .secretSnapshot secretRef purpose) trivial hI ?_ hw
  intro s l choice _ _ hs'
  cases choice with
  | ok revision =>
    refine ⟨hs', fun snapshot hsnapshot => ?_⟩
    obtain rfl := Except.ok.inj hsnapshot
    rfl
  | error e =>
    change (if e.cls = .other "SecretStoreError" then runtimeError "TRANSPORT_SECRET_UNAVAILABLE"
      else .raise e : Work SecretSnapshot).wp (among K i) _ _
    split_ifs
    · exact ⟨hs', fun _ h => by cases h⟩
    · exact ⟨hs', fun _ h => by cases h⟩

theorem bound_newProvider (href : d.secretRef = K.secretRefOf d.recordId) {snapshot : SecretSnapshot}
    (hvalue : snapshot.value = K.urlOf d.secretRef snapshot.revision) (fetched : List Fetched) :
    Bound K d snapshot.revision (newProvider K.short K.cacheRoot d snapshot) fetched where
  secretRef := href
  code := rfl
  url := hvalue
  path := rfl
  sourceRevision := rfl
  hash digest h := by cases h
  identity path h := by cases h

end Provider

section Resolver

variable {K : Setting} {i : ℕ} {w : State} {I : World → Prop} {d : TransportProviderDescriptor} {resolver : Resolver}

theorem validateDescriptor_plain (d : TransportProviderDescriptor) : (validateDescriptor d).Calls Call.Plain := by
  unfold validateDescriptor
  exact .ite (.raise _) (.ite (.raise _) (.ite (.raise _) (.ret ())))

/-- What is known of a resolver: its records differ, and each provider is bound. -/
structure Knows (K : Setting) (resolver : Resolver) (fetched : List Fetched) : Prop where
  records : (resolver.map fun r => r.descriptor.recordId).Nodup
  bound : Resolvers K resolver fetched

theorem lasting_knows : Lasting (Knows K resolver) :=
  fun _ _ hsub h => ⟨h.records, lasting_resolvers _ _ hsub h.bound⟩

theorem resolve_wp (hI : Enduring I) (hknows : ∀ s, I s → Knows K resolver s.fetched)
    (href : d.secretRef = K.secretRefOf d.recordId) (hw : I w.1) :
    (resolve K.short K.cacheRoot resolver d secretLoader).wp (among K i)
      (fun r w' => I w'.1 ∧ ∀ result, r = .ok result → ∃ revision, Bound K d revision result.1 w'.1.fetched ∧
        Knows K result.2 w'.1.fetched ∧
        ∀ e ∈ result.2, e.descriptor.recordId = d.recordId → e.descriptor = d ∧ e.revision = revision) w := by
  refine (keeps_plain (validateDescriptor_plain d) hI).wp_bind (fun _ _ h => ⟨h, fun _ h => by cases h⟩) ?_ hw
  intro _ w hw
  cases hfound : findRecord resolver d.recordId with
  | some existing =>
    dsimp only
    have hmem : existing ∈ resolver := List.mem_of_find?_eq_some hfound
    have hid : existing.descriptor.recordId = d.recordId := by simpa using List.find?_some hfound
    rw [resolveAgain]
    split_ifs with hdrift
    · exact ⟨hw, fun _ h => by cases h⟩
    · have hsame : existing.descriptor = d := not_not.mp hdrift
      refine (iff_of_eq (wp_bind _ _ _ _ _)).mpr ((iff_of_eq (wp_bind _ _ _ _ _)).mpr
        (wp_mono _ _ ?_ (secretLoader_wp hI d.secretRef purpose hw)))
      rintro (e | snapshot) w ⟨hw, -⟩
      · exact ⟨hw, fun _ h => by cases h⟩
      · rw [bindPost_ok]
        split_ifs
        · exact ⟨hw, fun _ h => by cases h⟩
        · refine ⟨hw, fun result h => ?_⟩
          obtain rfl := Except.ok.inj h
          have hall := hknows _ hw
          refine ⟨existing.revision, hsame ▸ hall.bound existing hmem, hall, fun e he hrecord => ?_⟩
          have heq : e = existing := List.inj_on_of_nodup_map hall.records he hmem (hrecord.trans hid.symm)
          rw [heq]
          exact ⟨hsame, rfl⟩
  | none =>
    dsimp only
    have hnew : ∀ e ∈ resolver, e.descriptor.recordId ≠ d.recordId := by
      intro e he
      simpa using List.find?_eq_none.mp hfound e he
    split_ifs
    · exact ⟨hw, fun _ h => by cases h⟩
    · exact ⟨hw, fun _ h => by cases h⟩
    · refine (iff_of_eq (wp_bind _ _ _ _ _)).mpr (wp_mono _ _ ?_ (secretLoader_wp hI d.secretRef purpose hw))
      rintro (e | snapshot) w ⟨hw, hvalue⟩
      · exact ⟨hw, fun _ h => by cases h⟩
      · refine ⟨hw, fun result h => ?_⟩
        obtain rfl := Except.ok.inj h
        have hall := hknows _ hw
        have hbound := bound_newProvider href (hvalue snapshot rfl) w.1.fetched
        refine ⟨snapshot.revision, hbound, ⟨?_, ?_⟩, ?_⟩
        · refine List.nodup_cons.mpr ⟨fun h => ?_, hall.records⟩
          obtain ⟨e, he, hrecord⟩ := List.mem_map.mp h
          exact hnew e he hrecord
        · intro e he
          obtain rfl | he := List.mem_cons.mp he
          · exact hbound
          · exact hall.bound e he
        · intro e he hrecord
          obtain rfl | he := List.mem_cons.mp he
          · exact ⟨rfl, rfl⟩
          · exact absurd hrecord (hnew e he)

/-- The provider of a record is replaced by a later state of it. -/
theorem Knows.remember {fetched : List Fetched} (h : Knows K resolver fetched) {revision : ℤ}
    {p : SubscriptionTransportProvider} (hp : Bound K d revision p fetched)
    (hentries : ∀ e ∈ resolver, e.descriptor.recordId = d.recordId → e.descriptor = d ∧ e.revision = revision) :
    Knows K (remember resolver d.recordId p) fetched := by
  constructor
  · have hids : ((Transport.remember resolver d.recordId p).map fun r => r.descriptor.recordId) =
        resolver.map fun r => r.descriptor.recordId := by
      rw [Transport.remember, List.map_map]
      refine List.map_congr_left fun e _ => ?_
      dsimp only [Function.comp_apply]
      split_ifs <;> rfl
    rw [hids]
    exact h.records
  · intro r hr
    obtain ⟨e, he, rfl⟩ := List.mem_map.mp hr
    split_ifs with hrecord
    · obtain ⟨hdescriptor, hrevision⟩ := hentries e he hrecord
      dsimp only
      rw [hdescriptor, hrevision]
      exact hp
    · exact h.bound e he

end Resolver

section Inventory

variable {K : Setting} {i : ℕ} {w : State} {I : World → Prop}

theorem plain_refreshEndpoint (providerId : ℕ) (endpoint : TransportEndpointDTO) :
    (refreshEndpoint providerId endpoint).Calls Call.Plain := by
  refine .bind (Calls.perform trivial) fun found => ?_
  cases found with
  | some record => exact Calls.perform trivial
  | none =>
    refine .bind ?_ fun record => Calls.perform trivial
    refine .bind (.attempt (Calls.perform trivial)) fun inserted => ?_
    cases inserted with
    | ok record => exact .ret record
    | error e =>
      refine .ite (.bind (Calls.perform trivial) fun again => ?_) (.raise e)
      cases again with
      | some record => exact .ret record
      | none => exact .raise e

theorem plain_refreshEndpoints (providerId : ℕ) (endpoints : List TransportEndpointDTO) :
    (refreshEndpoints providerId endpoints).Calls Call.Plain := by
  induction endpoints with
  | nil => exact .ret ()
  | cons endpoint endpoints ih => exact .bind (plain_refreshEndpoint providerId endpoint) fun _ => ih

theorem plain_markStale (records : List ℕ) : (markStale records).Calls Call.Plain := by
  induction records with
  | nil => exact .ret ()
  | cons record records ih => exact .bind (Calls.perform trivial) fun _ => ih

theorem plain_recordAlert (alert : CapacityAlert) : (recordAlert alert).Calls Call.Plain := by
  refine .bind (Calls.perform trivial) fun existing => .ite (.ret ()) ?_
  refine .bind (.attempt (Calls.perform trivial)) fun inserted => ?_
  cases inserted with
  | ok _ => exact .ret ()
  | error e => exact .ite (.bind (Calls.perform trivial) fun again => .ite (.ret ()) (.raise e)) (.raise e)

theorem plain_recordAlerts (providerId : ℕ) (quotaBytes usedBytes : ℤ) (levels : List (ℤ × String)) :
    (recordAlerts providerId quotaBytes usedBytes levels).Calls Call.Plain := by
  induction levels with
  | nil => exact .ret ()
  | cons level levels ih => exact .ite ih (.bind (plain_recordAlert _) fun _ => ih)

theorem plain_refreshCapacity (providerId : ℕ) (capacity : Option TransportCapacityDTO) :
    (refreshCapacity providerId capacity).Calls Call.Plain := by
  refine .bind (Calls.perform trivial) fun _ => ?_
  cases capacity with
  | none => exact .ret ()
  | some capacity => exact .ite (.ret ()) (plain_recordAlerts providerId _ _ _)

theorem plain_degrade (recordId : ℕ) : (degrade recordId).Calls Call.Plain := by
  refine .bind (Calls.perform trivial) fun _ => .bind (Calls.perform trivial) fun status => ?_
  cases status with
  | none => exact .raise _
  | some status =>
    refine .bind (Calls.perform trivial) fun _ => ?_
    exact .ite (.bind (Calls.perform trivial) fun _ => Calls.perform trivial)
      (.bind (.ret ()) fun _ => Calls.perform trivial)

theorem putReceipt_wp (hI : Enduring I) {receipt : Receipt} (hcertified : ∀ s, I s → Certified K receipt s.fetched)
    (hw : I w.1) : (perform (.putReceipt receipt)).wp (among K i) (fun _ w' => I w'.1) w := by
  refine Contract.perform_wp (P := fun w => I w.1) hI.stable ?_ hw
  intro s l choice x w' hinv hkept hs hact _
  cases hact
  refine ⟨⟨.refl i s, hinv, ?_, trivial⟩, hs⟩
  intro other hother
  obtain rfl | hother := List.mem_cons.mp hother
  · exact hcertified s hs
  · exact hkept other hother

variable {d : TransportProviderDescriptor} {revision : ℤ} {p : SubscriptionTransportProvider} {resolver : Resolver}

theorem storeReceipt_wp (hI : Enduring I) (hbound : ∀ s, I s → Bound K d revision p s.fetched) (now : Timestamp)
    (hw : I w.1) : (storeReceipt d.recordId d.code p now).wp (among K i) (fun _ w' => I w'.1) w := by
  unfold storeReceipt
  cases hproof : p.materializationProof with
  | none => exact hw
  | some proof =>
    refine (keeps_call (c := .selectReceipt d.recordId) trivial hI).wp_bind (fun _ _ h => h) ?_ hw
    exact fun _ w hw => putReceipt_wp hI (fun s hs => (hbound s hs).certified hproof _) hw

theorem storeInventory_wp (hI : Enduring I) (hbound : ∀ s, I s → Bound K d revision p s.fetched) (now : Timestamp)
    (hw : I w.1) : (storeInventory d.recordId d.code p now).wp (among K i) (fun _ w' => I w'.1) w := by
  refine (keeps_plain (plain_refreshEndpoints _ _) hI).wp_bind (fun _ _ h => h) (fun _ w hw => ?_) hw
  refine (keeps_call (c := .selectStale _ _) trivial hI).wp_bind (fun _ _ h => h) (fun stale w hw => ?_) hw
  refine (keeps_plain (plain_markStale stale) hI).wp_bind (fun _ _ h => h) (fun _ w hw => ?_) hw
  refine (keeps_plain (plain_refreshCapacity _ _) hI).wp_bind (fun _ _ h => h) (fun _ w hw => ?_) hw
  refine (keeps_call (c := .setHealth _ _ _) trivial hI).wp_bind (fun _ _ h => h) (fun _ w hw => ?_) hw
  refine (iff_of_eq (wp_bind _ _ _ _ _)).mpr (wp_mono _ _ ?_ (storeReceipt_wp hI hbound now hw))
  rintro (e | _) w hw
  · exact hw
  · exact keeps_call (c := .commit) trivial hI w hw

theorem refreshProviderInventory_wp (hI : Enduring I) (hbound : ∀ s, I s → Bound K d revision p s.fetched)
    (hw : I w.1) :
    (refreshProviderInventory K.readers K.sha256 d.recordId d.code p).wp (among K i)
      (fun r w' => I w'.1 ∧ ∀ result, r = .ok result → Bound K d revision result.2 w'.1.fetched) w := by
  refine (keeps_call (c := .now) trivial hI).wp_bind (fun _ _ h => ⟨h, fun _ h => by cases h⟩) ?_ hw
  intro now w hw
  refine (iff_of_eq (wp_bind _ _ _ _ _)).mpr ?_
  rw [wp_attempt]
  refine wp_mono _ _ ?_ (syncNodes_wp hI hbound hw)
  rintro (e | synced) w ⟨hw, hsynced⟩
  · refine ⟨hw, fun result h => ?_⟩
    obtain rfl := Except.ok.inj h
    exact hbound _ hw
  · have hboth : Enduring fun s => I s ∧ Bound K d revision synced s.fetched := hI.and lasting_bound.enduring
    refine (iff_of_eq (wp_bind _ _ _ _ _)).mpr ?_
    rw [wp_attempt]
    refine wp_mono _ _ ?_ (storeInventory_wp hboth (fun _ h => h.2) now ⟨hw, hsynced synced rfl⟩)
    intro r w hw
    refine ⟨hw.1, fun result h => ?_⟩
    obtain rfl := Except.ok.inj h
    exact hw.2

theorem syncRecord_wp (hI : Enduring I) (hknows : ∀ s, I s → Knows K resolver s.fetched) {recordId : ℕ}
    {record : ProviderRecord} (href : record.secretRef = K.secretRefOf recordId) (hw : I w.1) :
    (syncRecord K.readers K.sha256 K.short K.cacheRoot resolver recordId record).wp (among K i)
      (fun r w' => I w'.1 ∧ ∀ result, r = .ok result → Knows K result.2 w'.1.fetched) w := by
  refine (iff_of_eq (wp_bind _ _ _ _ _)).mpr ?_
  rw [wp_attempt]
  refine wp_mono _ _ ?_ (resolve_wp (d := descriptorOf recordId record) hI hknows href hw)
  rintro (e | ⟨provider, resolved⟩) w ⟨hw, hresolved⟩
  · refine ⟨hw, fun result h => ?_⟩
    obtain rfl := Except.ok.inj h
    exact hknows _ hw
  · obtain ⟨revision, hbound, hknown, hentries⟩ := hresolved _ rfl
    have hboth : Enduring fun s => I s ∧ Bound K (descriptorOf recordId record) revision provider s.fetched ∧
        Knows K resolved s.fetched := hI.and (lasting_bound.enduring.and lasting_knows.enduring)
    refine (iff_of_eq (wp_bind _ _ _ _ _)).mpr (wp_mono _ _ ?_
      (refreshProviderInventory_wp (d := descriptorOf recordId record) hboth (fun _ h => h.2.1) ⟨hw, hbound, hknown⟩))
    rintro (e | refreshed) w ⟨hw, hrefreshed⟩
    · exact ⟨hw.1, fun _ h => by cases h⟩
    · refine ⟨hw.1, fun result h => ?_⟩
      obtain rfl := Except.ok.inj h
      exact hw.2.2.remember (d := descriptorOf recordId record) (hrefreshed refreshed rfl) hentries

theorem syncRecords_wp (recordIds : List ℕ) (resolver : Resolver) (completed : ℕ)
    (hw : Knows K resolver w.1.fetched) :
    (syncRecords K.readers K.sha256 K.short K.cacheRoot recordIds resolver completed).wp (among K i)
      (fun r w' => ∀ result, r = .ok result → Knows K result.2 w'.1.fetched) w := by
  induction recordIds generalizing resolver completed w with
  | nil =>
    intro result h
    obtain rfl := Except.ok.inj h
    exact hw
  | cons recordId recordIds ih =>
    have hknows : Enduring fun s => Knows K resolver s.fetched := lasting_knows.enduring
    refine (iff_of_eq (wp_bind _ _ _ _ _)).mpr
      (plain_wp (c := .readRecord recordId) (I := fun s => Knows K resolver s.fetched) trivial hknows ?_ hw)
    intro s l choice _ hallowed hs'
    cases choice with
    | error e => exact fun _ h => by cases h
    | ok record =>
      refine (iff_of_eq (wp_bind _ _ _ _ _)).mpr (wp_mono _ _ ?_
        (syncRecord_wp hknows (fun _ h => h) hallowed hs'))
      rintro (e | result) w ⟨hw, hresult⟩
      · exact fun _ h => by cases h
      · have hnext := hresult result rfl
        rw [bindPost_ok]
        cases result.1 with
        | ok _ => exact ih result.2 (completed + 1) hnext
        | error e =>
          refine (keeps_plain (plain_degrade recordId) (I := fun s => Knows K result.2 s.fetched)
            lasting_knows.enduring).wp_bind (fun _ _ _ _ h => by cases h) ?_ hnext
          exact fun _ w hw => ih result.2 completed hw

theorem batches_wp (n : ℕ) (resolver : Resolver) (hw : Knows K resolver w.1.fetched) :
    (batches K.readers K.sha256 K.short K.cacheRoot n resolver).wp (among K i) (fun _ _ => True) w := by
  induction n generalizing resolver w with
  | zero => trivial
  | succ n ih =>
    have hknows : Enduring fun s => Knows K resolver s.fetched := lasting_knows.enduring
    refine (iff_of_eq (wp_bind _ _ _ _ _)).mpr ((keeps_call (c := .enabledRecords) trivial hknows).wp_bind
      (fun _ _ _ => trivial) (fun recordIds w hw => ?_) hw)
    refine wp_mono _ _ ?_ (syncRecords_wp recordIds resolver 0 hw)
    rintro (e | result) w hresult
    · trivial
    · exact ih result.2 (hresult result rfl)

end Inventory

section Runs

variable {K : Setting} {n : ℕ}

theorem sound (K : Setting) (n : ℕ) :
    (contract K).Sound (schedulers K) (conduct K) (scheduler K n) ⟨[]⟩ fun _ _ _ => True where
  kept_stable i j s t l _ hguarantee _ h receipt hreceipt :=
    lasting_certified _ _ hguarantee.fetched (h receipt hreceipt)
  ended_stable _ _ _ _ _ _ _ _ _ _ := trivial
  absent_stable _ _ _ _ _ _ _ _ := trivial
  begin_kept _ _ _ _ receipt hreceipt := by cases hreceipt
  verified _ _ _ _ := batches_wp n [] ⟨List.nodup_nil, fun _ h => absurd h List.not_mem_nil⟩
  crash_leaves i s l hinv hkept _ := ⟨.refl i s, hinv, hkept⟩
  ended_leaves i r s l hinv hkept _ := ⟨.refl i s, hinv, hkept, trivial⟩

theorem invariant_of_reachable {g : Configuration calls Exn Unit World Session} (h : ReachableBy K n g) :
    Invariant K g.shared := by
  refine (Contract.good_of_reachable (sound K n) ?_ (fun i s _ => .refl i s) h).invariant
  rintro s ⟨hfiles, hmaker, _, hreceipts⟩
  refine ⟨⟨?_, ?_, ?_⟩, fun _ => trivial⟩
  · intro path content hfile _
    exact .inl (hfiles ▸ hfile)
  · intro name j hname
    rw [hmaker] at hname
    cases hname
  · intro owner receipt hreceipt
    rw [hreceipts] at hreceipt
    cases hreceipt

/-- Whatever the processes do and wherever they crash, a cache file is as it was at first, or has the whole body of one
response that was accepted for the provider of this record, from a URL that the record's secret has had. -/
theorem cache_whole {g : Configuration calls Exn Unit World Session} (h : ReachableBy K n g)
    (d : TransportProviderDescriptor) {content : Bytes}
    (hfile : g.shared.files (cachePath K.short K.cacheRoot d) = some content) :
    g.shared.initial (cachePath K.short K.cacheRoot d) = some content ∨
      ∃ f ∈ g.shared.fetched, f.response.content = content ∧
        (∃ revision, f.url = K.urlOf (K.secretRefOf d.recordId) revision) ∧
        ∃ code, Accepted K code f.response := by
  have hinv := invariant_of_reachable h
  have hnone : g.shared.maker (pathOf K d) = none := by
    rw [Option.eq_none_iff_forall_not_mem]
    exact fun j hj => hinv.temporary _ j hj d rfl
  obtain hinitial | ⟨d', revision, f, horigin, hpath, hcontent⟩ := hinv.files _ _ hfile hnone
  · exact .inl hinitial
  · have hrecord : d.recordId = d'.recordId := recordId_of_cachePath hpath
    refine .inr ⟨f, horigin.mem, hcontent, ⟨revision, ?_⟩, d'.code, horigin.accepted⟩
    rw [horigin.url, horigin.secretRef, hrecord]

/-- A materialization that the loader takes for a provider is the document of one response, accepted whole, of the
subscription URL that the provider has now. The cache files may be in any state. -/
theorem materialized_current {g : Configuration calls Exn Unit World Session} (h : ReachableBy K n g)
    (hsha : Function.Injective K.sha256) {src : Source} {now : Timestamp}
    (hsource : src.sha256 = K.sha256 ∧ src.short = K.short ∧ src.cacheRoot = K.cacheRoot ∧
      src.receipts = g.shared.receipts)
    {provider : Entity Routing.TransportProviderRecord} (href : provider.row.secretRef = K.secretRefOf provider.id)
    {material : TransportMaterialization} {reference : TransportMaterializationReference}
    (hm : materialize src now provider = .ok (material, reference)) :
    ∃ f ∈ g.shared.fetched, ∃ revision, src.revisions provider.row.secretRef = some revision ∧
      f.url = K.urlOf provider.row.secretRef revision ∧ Accepted K provider.row.code f.response ∧
      src.safeLoad f.response.content = .ok (.obj material.content) ∧
      material.sourceRevision = revision ∧ material.ownerRecordId = provider.id ∧
      material.providerCode = provider.row.code := by
  obtain ⟨receipt, content, hreceipt, -, hrevision, hcode, -, hhash, -, hload, -, hmaterial⟩ := materialize_ok hm
  rw [hsource.2.2.2] at hreceipt
  obtain ⟨howner, d, f, horigin, hrecord, hdcode, -, hcontent⟩ :=
    (invariant_of_reachable h).receipts _ receipt hreceipt
  have hbytes : f.response.content = content := by
    refine hsha (hcontent.symm.trans (hhash.symm.trans ?_))
    rw [hsource.1]
  have hsame : provider.row.secretRef = d.secretRef := by
    rw [href, horigin.secretRef, hrecord, howner]
  refine ⟨f, horigin.mem, receipt.sourceRevision, hrevision, ?_, ?_, ?_, ?_, ?_, ?_⟩
  · rw [horigin.url, hsame]
  · rw [← hcode, hdcode]
    exact horigin.accepted
  · rw [hbytes]
    exact hload
  · rw [hmaterial]
  · rw [hmaterial, howner]
  · rw [hmaterial, hcode]

end Runs

section Sample

/-- A reader for which every text is one document. -/
def sampleReaders : Readers where
  urlparse := fun _ => refuse "invalid URL"
  parseQs := fun _ => .ok []
  unquote := id
  decodeBase64 := fun _ => refuse "invalid base64"
  loads := fun _ => refuse "invalid JSON"
  toInt := fun value => match value with
    | .int n => .ok n
    | _ => refuse "invalid integer"
  quote := id
  int := fun _ => refuse "invalid integer"
  fromTimestamp := .ok
  lower := id
  sha256 := id
  safeLoad := fun _ => .ok (.obj [("proxies", .arr [.obj [("type", .str "ss"), ("server", .str "a"), ("port", .int 1)]])])

/-- The bytes themselves for their hash. -/
def sampleHash (content : Bytes) : Digest := .of (.arr (content.map fun b => .int b.toNat))

theorem sampleHash_injective : Function.Injective sampleHash := by
  intro a b h
  have hmaps := Json.arr.inj (Digest.of.inj h)
  refine List.map_injective_iff.mpr ?_ hmaps
  intro b c hbytes
  exact UInt8.toNat_inj.mp (Int.ofNat_inj.mp (Json.int.inj hbytes))

def sampleSetting : Setting where
  readers := sampleReaders
  sha256 := sampleHash
  short := fun _ => "0"
  cacheRoot := "c"
  urlOf := fun secretRef revision => secretRef ++ toString revision
  secretRefOf := fun _ => "ref"

def sampleRecord : ProviderRecord := ⟨"alpha", "SUBSCRIPTION", "ref"⟩

/-- Everything succeeds. -/
def sampleScript : (c : Call) → Option c.Choice
  | .enabledRecords => some (.ok [1])
  | .readRecord _ => some (.ok sampleRecord)
  | .secretSnapshot _ _ => some (.ok 1)
  | .get _ => some (.ok ⟨[120], "x", none⟩)
  | .now => some 0
  | .temporary _ => some (.ok "r")
  | .mkdir _ => some (.ok ())
  | .chmod _ => some (.ok ())
  | .write _ _ => some (.ok ())
  | .replace _ _ => some (.ok ())
  | .unlink _ => some (.ok ())
  | .selectEndpoint _ _ => some (.ok none)
  | .insertEndpoint _ _ => some (.ok 1)
  | .updateEndpoint _ _ => some (.ok ())
  | .selectStale _ _ => some (.ok [])
  | .setCapacity _ _ => some (.ok ())
  | .setHealth _ _ _ => some (.ok ())
  | .selectReceipt _ => some (.ok none)
  | .putReceipt _ => some ()
  | .commit => some .done
  | _ => none

def sampleWorld : World where
  initial := fun _ => none
  files := fun _ => none
  maker := fun _ => none
  fetched := []
  receipts := fun _ => none

theorem sample_allowed (c : Call) (choice : c.Choice) (w : State) (x : Except Exn c.Answer) (w' : State)
    (hscript : sampleScript c = some choice) (hact : (schedulers sampleSetting).act 0 c choice w = (x, w')) :
    (conduct sampleSetting).call 0 c w x w' := by
  cases c with
  | readRecord recordId =>
    cases hscript
    cases hact
    rfl
  | _ => trivial

/-- What is left of one batch. -/
def sampleEnd : Work Unit × State :=
  (schedulers sampleSetting).play 0 sampleScript 40 (scheduler sampleSetting 1) (sampleWorld, ⟨[]⟩)

theorem sample_reachable : ∃ g, ReachableBy sampleSetting 1 g ∧ g.shared = sampleEnd.2.1 := by
  have hstart : ReachableBy sampleSetting 1 (.start sampleWorld) :=
    .start ⟨rfl, fun _ => rfl, rfl, fun _ => rfl⟩
  have hplayed := (hstart.begun 0 rfl).played sampleScript (Configuration.process_update_self _ 0 _ _) 40
    (Agents.playAllowed_of_all sample_allowed 40 _ _)
  exact ⟨_, hplayed, rfl⟩

/-- The cache of one batch. -/
theorem cache_whole_sample : ∃ g, ReachableBy sampleSetting 1 g ∧
    ∃ f ∈ g.shared.fetched, f.response.content = [120] ∧
      (∃ revision, f.url = sampleSetting.urlOf (sampleSetting.secretRefOf 1) revision) ∧
      ∃ code, Accepted sampleSetting code f.response := by
  obtain ⟨g, hg, hshared⟩ := sample_reachable
  have hfile : g.shared.files (cachePath sampleSetting.short sampleSetting.cacheRoot (descriptorOf 1 sampleRecord)) =
      some [120] := by
    rw [hshared]
    decide +kernel
  have hinitial : g.shared.initial (cachePath sampleSetting.short sampleSetting.cacheRoot
      (descriptorOf 1 sampleRecord)) = none := by
    rw [hshared]
    decide +kernel
  obtain h | h := cache_whole hg (descriptorOf 1 sampleRecord) hfile
  · rw [hinitial] at h
    cases h
  · exact ⟨g, hg, h⟩

def sampleSource : Source where
  sha256 := sampleHash
  safeLoad := fun _ => sampleReaders.safeLoad ""
  column := fun t => ⟨t, some 0⟩
  short := sampleSetting.short
  cacheRoot := sampleSetting.cacheRoot
  receipts := sampleEnd.2.1.receipts
  files := sampleEnd.2.1.files
  revisions := fun _ => some 1
  kinds := fun _ => "SUBSCRIPTION"

/-- The cache is taken within the hour. -/
theorem materialized_current_sample : ∃ g, ReachableBy sampleSetting 1 g ∧ ∃ material reference,
    materialize sampleSource 1 ⟨1, ⟨"alpha", true, "ref"⟩⟩ = .ok (material, reference) ∧
    ∃ f ∈ g.shared.fetched, f.url = "ref1" ∧ Accepted sampleSetting "alpha" f.response := by
  obtain ⟨g, hg, hshared⟩ := sample_reachable
  have hok : (materialize sampleSource 1 ⟨1, ⟨"alpha", true, "ref"⟩⟩).isOk = true := by decide +kernel
  cases hm : materialize sampleSource 1 ⟨1, ⟨"alpha", true, "ref"⟩⟩ with
  | error e =>
    rw [hm] at hok
    cases hok
  | ok result =>
    have hsource : sampleSource.sha256 = sampleSetting.sha256 ∧ sampleSource.short = sampleSetting.short ∧
        sampleSource.cacheRoot = sampleSetting.cacheRoot ∧ sampleSource.receipts = g.shared.receipts :=
      ⟨rfl, rfl, rfl, congrArg World.receipts hshared.symm⟩
    obtain ⟨f, hf, revision, hrevision, hurl, haccepted, -⟩ :=
      materialized_current hg sampleHash_injective hsource rfl hm
    obtain rfl := Option.some.inj hrevision
    exact ⟨g, hg, result.1, result.2, rfl, f, hf, hurl, haccepted⟩

end Sample

end Lingsway.Transport
