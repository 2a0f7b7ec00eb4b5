import Lingsway.Api.Sessions

/-!
# A password change ends the sessions

Every session that is not revoked is of a login that has read the current hash,
as long as no session slips past a change. A revocation is never taken back.
-/
namespace Lingsway.Api.Sessions

open Library Program

def Revoked (s : Store) (jti : ℕ) : Prop := ∃ row, s.sessions.get jti = some row ∧ row.revokedAt.isSome = true

/-- A later row of the same session. -/
structure Follows (row row' : SessionRow) : Prop where
  customer : row'.customerId = row.customerId
  revoked : row.revokedAt.isSome = true → row'.revokedAt.isSome = true

theorem Follows.refl (row : SessionRow) : Follows row row := ⟨rfl, id⟩

theorem Follows.revoke (now : Timestamp) (reason : String) (row : SessionRow) : Follows row (row.revoke now reason) :=
  ⟨rfl, fun _ => rfl⟩

theorem Follows.trans {a b c : SessionRow} (hab : Follows a b) (hbc : Follows b c) : Follows a c :=
  ⟨hbc.customer.trans hab.customer, fun h => hbc.revoked (hab.revoked h)⟩

/-- Sessions stay, and revocations with them. -/
def Grows (s t : Store) : Prop :=
  ∀ jti row, s.sessions.get jti = some row → ∃ row', t.sessions.get jti = some row' ∧ Follows row row'

section Store

variable {customerId i jti : ℕ} {s t u : Store} {w : State}

theorem Grows.refl (s : Store) : Grows s s := fun _ row h => ⟨row, h, .refl row⟩

theorem Grows.of_eq (h : t.sessions = s.sessions) : Grows s t := fun _ row hget => ⟨row, h ▸ hget, .refl row⟩

theorem Grows.trans (hst : Grows s t) (htu : Grows t u) : Grows s u := by
  intro jti row hget
  obtain ⟨row', hget', hfollows⟩ := hst jti row hget
  obtain ⟨row'', hget'', hfollows'⟩ := htu jti row' hget'
  exact ⟨row'', hget'', hfollows.trans hfollows'⟩

theorem Revoked.grows (h : Revoked s jti) (hgrows : Grows s t) : Revoked t jti := by
  obtain ⟨row, hget, hrevoked⟩ := h
  obtain ⟨row', hget', hfollows⟩ := hgrows jti row hget
  exact ⟨row', hget', hfollows.revoked hrevoked⟩

theorem revokeAll_get (jtis : List ℕ) (now : Timestamp) (reason : String) (sessions : Table SessionRow) (jti : ℕ) :
    (revokeAll jtis now reason sessions).get jti =
      if jti ∈ jtis then (sessions.get jti).map (SessionRow.revoke now reason) else sessions.get jti := rfl

theorem grows_revokeAll {jtis : List ℕ} {now : Timestamp} {reason : String}
    (h : t.sessions = revokeAll jtis now reason s.sessions) : Grows s t := by
  intro jti row hget
  rw [h, revokeAll_get, hget]
  split_ifs
  · exact ⟨row.revoke now reason, rfl, .revoke now reason row⟩
  · exact ⟨row, rfl, .refl row⟩

/-- A row that is not revoked by a revocation was not revoked before it, and is not among its rows. -/
theorem unrevoked_revokeAll {jtis : List ℕ} {now : Timestamp} {reason : String} {sessions : Table SessionRow} {row : SessionRow}
    (hget : (revokeAll jtis now reason sessions).get jti = some row) (hrow : row.revokedAt = none) :
    jti ∉ jtis ∧ sessions.get jti = some row := by
  rw [revokeAll_get] at hget
  split_ifs at hget with hmem
  · obtain ⟨old, _, rfl⟩ := Option.map_eq_some_iff.mp hget
    cases hrow
  · exact ⟨hmem, hget⟩

theorem grows_insert {row : SessionRow} (hfree : s.sessions.get jti = none) (h : t.sessions = s.sessions.insert jti row) :
    Grows s t := by
  intro k old hget
  have hne : k ≠ jti := by
    rintro rfl
    rw [hfree] at hget
    cases hget
  exact ⟨old, by rw [h, Table.get_insert, if_neg hne, hget], .refl old⟩

theorem grows_committed {commit : CommitEnd} {after : State} (h : Grows w.1 after.1) :
    Grows w.1 (committed commit after w).2.1 := by
  cases commit with
  | done => exact h
  | lost e => exact h
  | failed e => exact .refl w.1

theorem grows_insertSession {expiresAt : Timestamp} {commit : CommitEnd} :
    Grows w.1 (insertSession customerId jti expiresAt commit w).2.1 := by
  unfold insertSession
  split_ifs with htaken
  · exact .refl w.1
  · rw [Bool.not_eq_true, Option.isSome_eq_false_iff, Option.isNone_iff_eq_none] at htaken
    exact grows_committed (grows_insert htaken rfl)

/-- No call takes a session or a revocation back. -/
theorem grows_act {c : Call} {choice : c.Choice} : Grows w.1 (act customerId i c choice w).2.1 := by
  cases c with
  | insertSession jti expiresAt => exact grows_insertSession
  | revokeSession jti now reason => exact grows_committed (grows_revokeAll rfl)
  | commitChange hash jtis now reason => exact grows_committed (grows_revokeAll rfl)
  | lockCustomer =>
    cases choice with
    | none => exact .of_eq rfl
    | some e => exact .refl w.1
  | lockSessions =>
    cases choice with
    | none => exact .of_eq rfl
    | some e => exact .refl w.1
  | _ => exact .refl w.1

theorem sessions_leave : (leave i s).sessions = s.sessions := by
  unfold leave
  split_ifs <;> rfl

theorem changes_leave : (leave i s).changes = s.changes := by
  unfold leave
  split_ifs <;> rfl

theorem grows_of_step {K : Conduct calls Exn Store Handling} {g g' : Requests} (h : StepBy K customerId g g') :
    Grows g.shared g'.shared := by
  cases h with
  | spawn i hnone => exact .refl g.shared
  | @call i c next l x w choice hprocess hact hallowed =>
    have hw : (act customerId i c choice (g.shared, l)).2 = w := congrArg Prod.snd hact
    have hgrows := @grows_act customerId i (g.shared, l) c choice
    rw [hw] at hgrows
    exact hgrows
  | ret hprocess => exact .of_eq sessions_leave
  | raise hprocess => exact .of_eq sessions_leave
  | crash hprocess hallowed => exact .of_eq sessions_leave

theorem grows_of_run {K : Conduct calls Exn Store Handling} {g g' : Requests}
    (h : Relation.ReflTransGen (StepBy K customerId) g g') : Grows g.shared g'.shared := by
  induction h with
  | refl => exact .refl g.shared
  | tail _ hstep ih => exact ih.trans (grows_of_step hstep)

end Store

section Contract

variable {customerId i : ℕ} {s t : Store} {l : Handling} {w w' : State}

/-- The sessions of the customer that are not revoked are of logins that read the current hash. -/
def Current (customerId : ℕ) (s : Store) : Prop :=
  ∀ jti row, s.sessions.get jti = some row → row.customerId = customerId → row.revokedAt = none →
    row.verified = s.changes

theorem Current.of_eq (h : Current customerId s) (hsessions : t.sessions = s.sessions) (hchanges : t.changes = s.changes) :
    Current customerId t := by
  intro jti row hget
  rw [hsessions] at hget
  rw [hchanges]
  exact h jti row hget

theorem current_committed {commit : CommitEnd} {after : State} (h : Current customerId w.1)
    (hafter : Current customerId after.1) : Current customerId (committed commit after w).2.1 := by
  cases commit with
  | done => exact hafter
  | lost e => exact hafter
  | failed e => exact h

def contract (customerId : ℕ) : Contract calls Exn Store Handling where
  guarantee _ := Grows
  invariant := Current customerId
  absent _ _ := True
  kept _ _ := True
  safe _ _ _ _ _ := True

abbrev among (customerId i : ℕ) : Handler calls Exn State :=
  (contract customerId).handler (sessions customerId) timely i

/-- The calls that end no session of another request. -/
def Call.Plain : Call → Prop
  | .commitChange _ _ _ _ => False
  | _ => True

theorem current_insertSession {jti : ℕ} {expiresAt : Timestamp} {commit : CommitEnd} (h : Current customerId w.1)
    (hread : w.2.verified = w.1.changes) :
    Current customerId (insertSession customerId jti expiresAt commit w).2.1 := by
  unfold insertSession
  split_ifs
  · exact h
  · refine current_committed h fun k row hget hcustomer hrow => ?_
    rw [Table.get_insert] at hget
    split_ifs at hget
    · cases hget
      exact hread
    · exact h k row hget hcustomer hrow

theorem current_revokeAll {jtis : List ℕ} {now : Timestamp} {reason : String} (h : Current customerId s) :
    Current customerId { s with sessions := revokeAll jtis now reason s.sessions } := by
  intro jti row hget hcustomer hrow
  exact h jti row (unrevoked_revokeAll hget hrow).2 hcustomer hrow

/-- A call that is in time keeps what is known of the sessions. -/
theorem current_act {c : Call} {choice : c.Choice} (hplain : c.Plain) (h : Current customerId w.1) (htime : InTime c w) :
    Current customerId (act customerId i c choice w).2.1 := by
  cases c with
  | commitChange hash jtis now reason => cases hplain
  | insertSession jti expiresAt => exact current_insertSession h htime
  | revokeSession jti now reason => exact current_committed h (current_revokeAll h)
  | lockCustomer =>
    cases choice with
    | none => exact h
    | some e => exact h
  | lockSessions =>
    cases choice with
    | none => exact h
    | some e => exact h
  | _ => exact h

theorem fine_plain {c : Call} {choice : c.Choice} {x : Except Exn c.Answer} (hplain : c.Plain)
    (h : Current customerId w.1) (htime : InTime c w) (hact : (sessions customerId).act i c choice w = (x, w')) :
    (contract customerId).Fine i c w x w' := by
  have hw' : (act customerId i c choice w).2 = w' := congrArg Prod.snd hact
  subst hw'
  exact ⟨grows_act, current_act hplain h htime, trivial, trivial⟩

/-- A program of such calls is verified whatever comes before it. -/
theorem keeps_plain {α : Type} {p : Work α} (hp : p.Calls Call.Plain) :
    Keeps (among customerId i) (fun _ => True) p := by
  refine Contract.keeps_of_fine hp fun c w choice x w' hplain hinvariant _ hact hallowed => ?_
  exact fine_plain hplain hinvariant hallowed.2 hact

end Contract

section Endpoints

variable {customerId i : ℕ} {w : State}

theorem plain_getAuthContext (token : Option ℕ) : (getAuthContext customerId token).Calls Call.Plain := by
  unfold getAuthContext
  cases token with
  | none => exact .raise _
  | some jti =>
    refine .bind (.perform trivial) fun _ => .bind (.perform trivial) fun found => ?_
    cases found.filter CustomerRow.active with
    | none => exact .raise _
    | some customer =>
      refine .bind (.perform trivial) fun session => .bind (.perform trivial) fun now => ?_
      cases session.filter (accepts customerId now) with
      | none => exact .raise _
      | some row => exact .ret _

theorem plain_issueAccessToken : issueAccessToken.Calls Call.Plain :=
  .bind (.perform trivial) fun _ => .bind (.perform trivial) fun jti => .bind (.perform trivial) fun _ => .ret jti

theorem plain_login (password : String) : (login password).Calls Call.Plain := by
  refine .bind (.perform trivial) fun found => ?_
  cases found.filter fun customer => verifyPassword password customer.passwordHash with
  | none => exact .raise _
  | some customer => exact .ite plain_issueAccessToken (.raise _)

theorem plain_logout (token : Option ℕ) : (logout customerId token).Calls Call.Plain := by
  refine .bind (plain_getAuthContext token) fun auth => ?_
  exact .ite (.bind (.perform trivial) fun _ => .perform trivial) (.ret ())

/-- What is known of the sessions that a change has locked. -/
structure Locked (customerId : ℕ) (jtis : List ℕ) (w : State) : Prop where
  stored : ∀ jti ∈ w.2.known, ∃ row, w.1.sessions.get jti = some row
  live : ∀ jti row, w.1.sessions.get jti = some row → row.customerId = customerId → row.revokedAt = none →
    jti ∈ w.2.known → jti ∈ jtis

/-- Other requests only revoke what is known. -/
theorem locked_stable {jtis : List ℕ} : (contract customerId).Stable i (Locked customerId jtis) := by
  rintro j s t l - hgrows - ⟨hstored, hlive⟩
  constructor
  · intro jti hknown
    obtain ⟨row, hget⟩ := hstored jti hknown
    obtain ⟨row', hget', _⟩ := hgrows jti row hget
    exact ⟨row', hget'⟩
  · intro jti row' hget' hcustomer hrow hknown
    obtain ⟨row, hget⟩ := hstored jti hknown
    obtain ⟨later, hlater, hfollows⟩ := hgrows jti row hget
    obtain rfl : row' = later := Option.some.inj (hget'.symm.trans hlater)
    have hunrevoked : row.revokedAt = none := by
      cases hrevoked : row.revokedAt with
      | none => rfl
      | some at' =>
        have hsome := hfollows.revoked (by rw [hrevoked]; rfl)
        rw [hrow] at hsome
        cases hsome
    exact hlive jti row hget (hfollows.customer.symm.trans hcustomer) hunrevoked hknown

theorem locked_liveSessions (s : Store) (l : Handling) :
    Locked customerId (liveSessions customerId s) ({ s with lockedSessions := liveSessions customerId s },
      { l with known := s.sessions.entities.map Entity.id }) where
  stored jti hknown := by
    obtain ⟨e, he, rfl⟩ := List.mem_map.mp hknown
    exact ⟨e.row, Table.mem_entities.mp he⟩
  live jti row hget hcustomer hrow _ := by
    have hmem : (⟨jti, row⟩ : Entity SessionRow) ∈ s.sessions.entities := Table.mem_entities.mpr hget
    exact List.mem_map.mpr ⟨⟨jti, row⟩, List.mem_filter.mpr ⟨hmem, by simp [hcustomer, hrow]⟩, rfl⟩

/-- A change that is in time leaves no session of the customer. -/
theorem current_commitChange {hash : PasswordHash} {jtis : List ℕ} {now : Timestamp} {reason : String}
    {commit : CommitEnd} (h : Current customerId w.1) (hlocked : Locked customerId jtis w)
    (htime : InTime (.commitChange hash jtis now reason) w) :
    Current customerId (act customerId i (.commitChange hash jtis now reason) commit w).2.1 := by
  refine current_committed h fun jti row hget hcustomer hrow => ?_
  obtain ⟨hout, hbefore⟩ := unrevoked_revokeAll hget hrow
  have hknown : jti ∈ w.2.known := htime jti (by rw [hbefore]; rfl)
  exact absurd (hlocked.live jti row hbefore hcustomer hrow hknown) hout

theorem keeps_revokeCustomerSessions (hash : PasswordHash) (reason : String) :
    Keeps (among customerId i) (fun _ => True) (revokeCustomerSessions hash reason) := by
  intro w _
  rw [revokeCustomerSessions, wp_bind]
  refine Contract.perform_wp (P := fun _ => True) (fun _ _ _ _ _ _ _ h => h) ?_ trivial
  rintro s l choice x w' hinvariant - - hact hallowed
  refine ⟨fine_plain trivial hinvariant hallowed.2 hact, ?_⟩
  cases choice with
  | some e =>
    cases hact
    trivial
  | none =>
    cases hact
    rw [bindPost_ok, wp_bind]
    refine Contract.perform_wp locked_stable ?_ (locked_liveSessions s l)
    rintro s' l' now x w' hinvariant - hlocked hact hallowed
    refine ⟨fine_plain trivial hinvariant hallowed.2 hact, ?_⟩
    cases hact
    refine (iff_of_eq (wp_bind _ _ _ _ _)).mpr ?_
    refine Contract.perform_wp locked_stable ?_ hlocked
    rintro s'' l'' commit x w' hinvariant - hlocked hact hallowed
    have hw' : (act customerId i (.commitChange hash _ now reason) commit (s'', l'')).2 = w' := congrArg Prod.snd hact
    subst hw'
    refine ⟨⟨grows_act, current_commitChange hinvariant hlocked hallowed.2, trivial, trivial⟩, ?_⟩
    cases x <;> trivial

theorem keeps_changePassword (token : Option ℕ) (currentPassword newPassword : String) :
    Keeps (among customerId i) (fun _ => True) (changePassword customerId token currentPassword newPassword) := by
  refine .bind (keeps_plain (plain_getAuthContext token)) fun _ => ?_
  refine .bind (keeps_plain (.perform trivial)) fun found => ?_
  cases found.filter fun customer => verifyPassword currentPassword customer.passwordHash with
  | none => exact .raise _
  | some customer =>
    refine .bind (keeps_plain (.perform trivial)) fun salt => .bind (.ofExcept _) fun hash => ?_
    refine .bind (keeps_plain (.perform trivial)) fun _ => .bind (keeps_revokeCustomerSessions hash _) fun _ => ?_
    exact .ret ()

theorem keeps_handle : Keeps (among customerId i) (fun _ => True) (handle customerId) := by
  refine .bind (keeps_plain (.perform trivial)) fun request => ?_
  cases request with
  | login password => exact .bind (keeps_plain (plain_login password)) fun _ => .ret _
  | logout token => exact .bind (keeps_plain (plain_logout token)) fun _ => .ret _
  | changePassword token currentPassword newPassword =>
    exact .bind (keeps_changePassword token currentPassword newPassword) fun _ => .ret _
  | authenticated token => exact .bind (keeps_plain (plain_getAuthContext token)) fun _ => .ret _

end Endpoints

section Runs

variable {customerId : ℕ} {K : Conduct calls Exn Store Handling} {g : Requests}

theorem sound : (contract customerId).Sound (sessions customerId) timely (handle customerId) Handling.begin
    fun _ _ _ => True where
  kept_stable _ _ _ _ _ _ _ _ _ := trivial
  ended_stable _ _ _ _ _ _ _ _ _ _ := trivial
  absent_stable _ _ _ _ _ _ _ _ := trivial
  begin_kept _ _ _ _ := trivial
  verified _ s _ _ := keeps_handle (s, Handling.begin) trivial
  crash_leaves _ _ _ hinvariant _ _ := ⟨.of_eq sessions_leave, hinvariant.of_eq sessions_leave changes_leave, trivial⟩
  ended_leaves _ _ _ _ hinvariant _ _ :=
    ⟨.of_eq sessions_leave, hinvariant.of_eq sessions_leave changes_leave, trivial, trivial⟩

theorem Start.current {s : Store} (h : Start s) : Current customerId s :=
  fun jti row hget _ _ => (h.2.2 jti row hget).trans h.2.1.symm

theorem current_of_reachable (h : ReachableBy timely customerId g) : Current customerId g.shared :=
  (Contract.good_of_reachable sound (fun _ hs => ⟨hs.current, fun _ => trivial⟩) (fun _ s _ => Grows.refl s) h).invariant

/-- The next call of the process reads a session that `get_auth_context` accepts. -/
structure Accepting (K : Conduct calls Exn Store Handling) (customerId : ℕ) (g : Requests) (i jti : ℕ)
    (row : SessionRow) : Prop where
  reads : ∃ next l choice w, g.process i = some ⟨.running (.call (.getSession jti) next), l⟩ ∧
    (sessions customerId).act i (.getSession jti) choice (g.shared, l) = (.ok (some row), w) ∧
    K.call i (.getSession jti) (g.shared, l) (.ok (some row)) w
  accepted : ∃ now, accepts customerId now row = true

/-- A session that is read is the one that the transaction sees. -/
theorem act_getSession {i jti : ℕ} {choice : (Call.getSession jti).Choice} {w w' : State} {row : SessionRow}
    (h : (sessions customerId).act i (.getSession jti) choice w = (.ok (some row), w')) :
    (viewOf w).sessions.get jti = some row := by
  have hanswer : outcome choice ((viewOf w).sessions.get jti) = .ok (some row) := congrArg Prod.fst h
  cases choice with
  | some e => cases hanswer
  | none => exact Except.ok.inj hanswer

/-- A revocation is never taken back. Where no session slips past a change, and the session that
is read is as committed, an accepted session is not revoked, and no change of the password has
been committed since its login read the hash. -/
theorem password_change_ends_sessions (customerId : ℕ) :
    (∀ K g g' jti, Relation.ReflTransGen (StepBy K customerId) g g' → Revoked g.shared jti → Revoked g'.shared jti) ∧
    ∀ g i jti row, ReachableBy timely customerId g → Accepting timely customerId g i jti row →
      g.shared.sessions.get jti = some row ∧ row.revokedAt = none ∧ row.verified = g.shared.changes := by
  refine ⟨fun K g g' jti hrun hrevoked => hrevoked.grows (grows_of_run hrun), fun g i jti row h haccepting => ?_⟩
  obtain ⟨⟨next, l, choice, w, _, hact, hallowed⟩, now, haccepts⟩ := haccepting
  have hcommitted : g.shared.sessions.get jti = some row := hallowed.2.symm.trans (act_getSession hact)
  simp only [accepts, Bool.and_eq_true, decide_eq_true_eq, Option.isNone_iff_eq_none] at haccepts
  obtain ⟨⟨hcustomer, hunrevoked⟩, _⟩ := haccepts
  exact ⟨hcommitted, hunrevoked, current_of_reachable h jti row hcommitted hcustomer hunrevoked⟩

def oldHash : PasswordHash := ⟨"correct horse", "salt-1"⟩

def newHash : PasswordHash := ⟨"battery staple", "salt-2"⟩

/-- Nothing fails. A call that the request is to wait before has no choice. -/
def sampleScript (request : Request) (jti : ℕ) (waits : Call → Bool) : (c : Call) → Option c.Choice
  | .receive => some request
  | .decodeAccessToken _ => some none
  | .findCustomer => some none
  | .getSession token => if waits (.getSession token) then none else some none
  | .now => some 0
  | .tokenBytes => some "salt-2"
  | .tokenUrlsafe => some jti
  | .insertSession token expiresAt => if waits (.insertSession token expiresAt) then none else some .done
  | .revokeSession _ _ _ => some .done
  | .lockCustomer => some none
  | .flushPassword _ => some none
  | .lockSessions => some none
  | .commitChange _ _ _ _ => some .done

/-- A customer who is logged in. -/
def sampleStore : Store where
  customer := some ⟨oldHash, true⟩
  sessions := Table.empty.insert 0 ⟨1, minutes 60, none, none, 0⟩
  holder := none
  lockedSessions := []
  changes := 0

theorem start_sampleStore : Start sampleStore := by
  refine ⟨rfl, rfl, fun jti row hget => ?_⟩
  rw [sampleStore, Table.get_insert] at hget
  split_ifs at hget
  · cases hget
    rfl
  · cases hget

def nowhere : Call → Bool := fun _ => false

def atInsert : Call → Bool
  | .insertSession _ _ => true
  | _ => false

def atRead : Call → Bool
  | .getSession _ => true
  | _ => false

/-- The session of a login at time 0. -/
def loggedIn (verified : ℕ) : SessionRow := ⟨1, minutes 60, none, none, verified⟩

/-- A login after a change is accepted. -/
theorem password_change_ends_sessions_sample : ∃ g, ReachableBy timely 1 g ∧
    g.shared.sessions.get 1 = some (loggedIn 1) ∧ (loggedIn 1).revokedAt = none ∧ (loggedIn 1).verified = g.shared.changes := by
  have hstart : ReachableBy timely 1 (.start sampleStore) := .start start_sampleStore
  have hbegun := hstart.begun 0 rfl
  have hchanged := hbegun.played (sampleScript (.changePassword (some 0) "correct horse" "battery staple") 7 nowhere)
    (Configuration.process_update_self _ 0 _ _) 12 ?_
  · have hlogin := (hchanged.begun 1 rfl).played (sampleScript (.login "battery staple") 1 nowhere)
      (Configuration.process_update_self _ 1 _ _) 12 ?_
    · have hread := (hlogin.begun 2 rfl).played (sampleScript (.authenticated (some 1)) 7 atRead)
        (Configuration.process_update_self _ 2 _ _) 12 ?_
      · exact ⟨_, hread, (password_change_ends_sessions 1).2 _ 2 1 (loggedIn 1) hread
          ⟨⟨_, _, none, _, Configuration.process_update_self _ 2 _ _, rfl, trivial, rfl⟩, 0, by decide⟩⟩
      · exact ⟨⟨trivial, trivial⟩, ⟨trivial, trivial⟩, ⟨trivial, trivial⟩, trivial⟩
    · exact ⟨⟨trivial, trivial⟩, ⟨trivial, trivial⟩, ⟨trivial, trivial⟩, ⟨trivial, trivial⟩, ⟨trivial, rfl⟩, trivial⟩
  · refine ⟨⟨trivial, trivial⟩, ⟨trivial, trivial⟩, ⟨trivial, trivial⟩, ⟨trivial, rfl⟩, ⟨trivial, trivial⟩, ⟨.inl rfl, trivial⟩,
      ⟨trivial, trivial⟩, ⟨trivial, trivial⟩, ⟨trivial, trivial⟩, ⟨trivial, trivial⟩, ⟨trivial, ?_⟩, trivial⟩
    intro jti hsome
    by_cases hjti : jti = 0
    · subst hjti
      decide
    · obtain ⟨row, hget⟩ := Option.isSome_iff_exists.mp hsome
      exact absurd (hget.symm.trans (if_neg hjti)) (by simp)

/-- A login that has read the old hash inserts its session after the change. -/
theorem stale_login_accepted : ¬∀ g i jti row, ReachableBy lawful 1 g → Accepting lawful 1 g i jti row →
    row.revokedAt = none ∧ row.verified = g.shared.changes := by
  intro h
  have hstart : ReachableBy lawful 1 (.start sampleStore) := .start start_sampleStore
  have hbegun := hstart.begun 0 rfl
  have hwaiting := hbegun.played (sampleScript (.login "correct horse") 1 atInsert)
    (Configuration.process_update_self _ 0 _ _) 12 ⟨trivial, trivial, trivial, trivial, trivial⟩
  have hchanged := (hwaiting.begun 1 rfl).played
    (sampleScript (.changePassword (some 0) "correct horse" "battery staple") 7 nowhere) (Configuration.process_update_self _ 1 _ _) 12
    ⟨trivial, trivial, trivial, trivial, trivial, .inl rfl, trivial, trivial, trivial, trivial, trivial, trivial⟩
  have hinserted := hchanged.played (i := 0) (sampleScript (.login "correct horse") 1 nowhere) rfl 12
    ⟨trivial, trivial⟩
  have hread := (hinserted.begun 2 rfl).played (sampleScript (.authenticated (some 1)) 7 atRead)
    (Configuration.process_update_self _ 2 _ _) 12 ⟨trivial, trivial, trivial, trivial⟩
  obtain ⟨_, hverified⟩ := h _ 2 1 (loggedIn 0) hread
    ⟨⟨_, _, none, _, Configuration.process_update_self _ 2 _ _, rfl, trivial⟩, 0, by decide⟩
  cases hverified

end Runs

end Lingsway.Api.Sessions
