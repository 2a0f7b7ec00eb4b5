import Lingsway.Core.Secrets
import Lingsway.Library.History

/-!
# Versions of a secret

Whoever changes the row holds its lock, and has seen what it replaces. Each
transaction is verified alone against the ones that keep to this; the committed
states of every run are then ordered by their revisions.
-/
namespace Lingsway.Secrets

open Library Program

/-- `b` is the same row as `a`, or has a higher revision. -/
def Follows (a b : Secret) : Prop := b = a ∨ a.revision < b.revision

theorem Follows.refl (a : Secret) : Follows a a := .inl rfl

theorem Follows.trans {a b c : Secret} (hab : Follows a b) (hbc : Follows b c) : Follows a c := by
  obtain rfl | hab := hab
  · exact hbc
  · obtain rfl | hbc := hbc
    · exact .inr hab
    · exact .inr (hab.trans hbc)

/-- Where there was a row there is one that follows it. -/
def Later (before after : Option Secret) : Prop := ∀ a, before = some a → ∃ b, after = some b ∧ Follows a b

theorem Later.refl (row : Option Secret) : Later row row := fun a h => ⟨a, h, .refl a⟩

theorem Later.trans {x y z : Option Secret} (hxy : Later x y) (hyz : Later y z) : Later x z := by
  intro a ha
  obtain ⟨b, hb, hab⟩ := hxy a ha
  obtain ⟨c, hc, hbc⟩ := hyz b hb
  exact ⟨c, hc, hab.trans hbc⟩

/-- A change sees the row behind the earlier ones, raises the revision of what it replaces, and
replaces nothing for a request that creates. -/
structure Sequel (row : Option Secret) (change : Change) (earlier : List Change) : Prop where
  before : change.before = seenThrough earlier row
  raised : ∀ a, change.before = some a → a.revision < change.after.revision
  created : ∀ purpose, change.request = some (.getOrCreate purpose) → change.before = none

/-- The changes of one transaction over a row. -/
def Chained (row : Option Secret) (changes : List Change) : Prop := History.Always (Sequel row) changes

theorem Chained.later {row : Option Secret} {changes : List Change} (h : Chained row changes) :
    Later row (seenThrough changes row) := by
  induction changes with
  | nil => exact .refl row
  | cons change earlier ih =>
    obtain ⟨hsequel, hearlier⟩ := h
    intro a ha
    obtain ⟨b, hb, hab⟩ := ih hearlier a ha
    have hraised := hsequel.raised b (hsequel.before.trans hb)
    exact ⟨change.after, rfl, hab.trans (.inr hraised)⟩

/-- The returned row of a `put_secret` holds its value, and the transaction has not lost it. -/
structure Wrote (F : Fernet) (row : Option Secret) (changes : List Change) (plaintext purpose : String)
    (result : Secret) : Prop where
  plaintext : F.decrypt result.ciphertext = some plaintext
  purpose : result.purpose = purpose
  replaced : ∀ a, row = some a → Follows a result
  kept : Later (some result) (seenThrough changes row)

/-- The row was committed before, or comes from this transaction. -/
def Found (states : List (Option Secret)) (changes : List Change) (result : Secret) : Prop :=
  some result ∈ states ∨ ∃ change ∈ changes, change.after = result

def Accounted (F : Fernet) (row : Option Secret) (states : List (Option Secret)) (changes : List Change)
    (x : Served) : Prop :=
  match x.request, x.result with
  | .put plaintext purpose, .ok result => Wrote F row changes plaintext purpose result
  | .getOrCreate _, .ok result => Found states changes result
  | _, .error _ => True

/-- What holds of a committed transaction over the ones before it. -/
structure Recorded (F : Fernet) (initial : Option Secret) (commit : Commit) (earlier : List Commit) : Prop where
  chained : Chained (rowAfter initial earlier) commit.changes
  accounted : ∀ x ∈ commit.served,
    Accounted F (rowAfter initial earlier) (earlier.tails.map (rowAfter initial)) commit.changes x

def Invariant (F : Fernet) (w : World) : Prop := History.Always (Recorded F w.initial) w.commits

/-- What transaction `i` may do to the shared state. -/
structure Guarantee (i : ℕ) (s t : World) : Prop where
  initial : t.initial = s.initial
  grown : s.commits <:+ t.commits
  held : ∀ j, j ≠ i → (t.holder = some j ↔ s.holder = some j)
  row : ∀ j, j ≠ i → s.holder = some j → t.row = s.row

theorem Guarantee.refl (i : ℕ) (s : World) : Guarantee i s s :=
  ⟨rfl, List.suffix_rfl, fun _ _ => Iff.rfl, fun _ _ _ => rfl⟩

theorem Guarantee.states {i : ℕ} {s t : World} (h : Guarantee i s t) {row : Option Secret}
    (hrow : row ∈ s.states) : row ∈ t.states := by
  obtain ⟨past, hpast, rfl⟩ := List.mem_map.mp hrow
  rw [World.states, h.initial]
  exact List.mem_map_of_mem ((List.mem_tails _ _).mpr (((List.mem_tails _ _).mp hpast).trans h.grown))

def contract (F : Fernet) : Contract calls Exn World Session where
  guarantee := Guarantee
  invariant := Invariant F
  absent := fun i w => w.holder ≠ some i
  kept := fun _ _ => True
  safe := fun _ _ _ _ _ => True

abbrev among (F : Fernet) (i : ℕ) : Handler calls Exn State := (contract F).handler (agents F) conduct i

/-- The results so far bind the transaction to what it has written. -/
def Binding (x : Served) : Bool :=
  match x.request, x.result with
  | .put .., .ok _ => true
  | _, _ => false

/-- A transaction that has served these requests. -/
structure Busy (F : Fernet) (i : ℕ) (served : List Served) (w : State) : Prop where
  locked : w.2.changes ≠ [] ∨ served.any Binding = true → w.1.holder = some i
  chained : Chained w.1.row w.2.changes
  accounted : ∀ x ∈ served, Accounted F w.1.row w.1.states w.2.changes x

/-- The transaction has locked the row it sees. -/
structure Holding (i : ℕ) (row : Secret) (w : State) : Prop where
  holder : w.1.holder = some i
  current : current w = some row

section Stability

variable {F : Fernet} {i : ℕ} {served : List Served}

theorem holding_stable (row : Secret) : (contract F).Stable i (Holding i row) := by
  intro j s t l hj hguarantee _ h
  refine ⟨(hguarantee.held i hj.symm).mpr h.holder, ?_⟩
  rw [current, hguarantee.row i hj.symm h.holder]
  exact h.current

theorem Accounted.mono {row : Option Secret} {states states' : List (Option Secret)} {changes : List Change}
    {x : Served} (hstates : ∀ row ∈ states, row ∈ states') (h : Accounted F row states changes x) :
    Accounted F row states' changes x := by
  obtain ⟨request, result⟩ := x
  cases result with
  | error e => cases request <;> trivial
  | ok result =>
    cases request with
    | put plaintext purpose => exact h
    | getOrCreate purpose =>
      obtain hcommitted | hown := h
      · exact .inl (hstates _ hcommitted)
      · exact .inr hown

/-- Only a `put_secret` that returned says something of the row that is there. -/
theorem Accounted.of_not_binding {row row' : Option Secret} {states : List (Option Secret)}
    {changes : List Change} {x : Served} (hx : Binding x = false) (h : Accounted F row states changes x) :
    Accounted F row' states changes x := by
  obtain ⟨request, result⟩ := x
  cases result with
  | error e => cases request <;> trivial
  | ok result =>
    cases request with
    | put plaintext purpose => cases hx
    | getOrCreate purpose => exact h

theorem busy_stable : (contract F).Stable i (Busy F i served) := by
  intro j s t l hj hguarantee _ h
  by_cases hheld : s.holder = some i
  · have hrow := hguarantee.row i hj.symm hheld
    refine ⟨fun _ => (hguarantee.held i hj.symm).mpr hheld, ?_, ?_⟩
    · rw [hrow]
      exact h.chained
    · intro x hx
      rw [hrow]
      exact (h.accounted x hx).mono fun _ => hguarantee.states
  · have hopen : ¬ (l.changes ≠ [] ∨ served.any Binding = true) := fun hlocked => hheld (h.locked hlocked)
    simp only [ne_eq, not_or, not_not, Bool.not_eq_true, List.any_eq_false] at hopen
    obtain ⟨hchanges, hbinding⟩ := hopen
    refine ⟨?_, ?_, ?_⟩
    · rintro (hlocked | hlocked)
      · exact absurd hchanges hlocked
      · obtain ⟨x, hx, hbinds⟩ := List.any_eq_true.mp hlocked
        rw [hbinding x hx] at hbinds
        cases hbinds
    · rw [hchanges]
      trivial
    · intro x hx
      exact ((h.accounted x hx).of_not_binding (hbinding x hx)).mono fun _ => hguarantee.states

end Stability

section Steps

variable {F : Fernet} {i : ℕ} {served : List Served}

/-- A call by a transaction that holds `P`, to a guaranteed step. -/
theorem act_wp {c : Call} {P : State → Prop} {Q : Except Exn c.Answer → State → Prop}
    (hstable : (contract F).Stable i P)
    (h : ∀ w choice, P w → Invariant F w.1 → conductCall i c w (act F i c choice w).1 →
      Guarantee i w.1 (act F i c choice w).2.1 ∧ Invariant F (act F i c choice w).2.1 ∧
        Q (act F i c choice w).1 (act F i c choice w).2)
    {w : State} (hw : P w) : (perform c).wp (among F i) Q w := by
  refine Contract.perform_wp hstable ?_ hw
  intro s l choice x w' hinvariant _ hP hact hallowed
  have hresult : act F i c choice (s, l) = (x, w') := hact
  have hstep := h (s, l) choice hP hinvariant
  rw [hresult] at hstep
  obtain ⟨hguarantee, hinvariant', hQ⟩ := hstep hallowed
  exact ⟨⟨hguarantee, hinvariant', trivial, trivial⟩, hQ⟩

/-- A call that leaves the shared state alone. -/
theorem idle_wp {c : Call} {P : State → Prop} {Q : Except Exn c.Answer → State → Prop}
    (hstable : (contract F).Stable i P)
    (h : ∀ w choice, P w → conductCall i c w (act F i c choice w).1 →
      (act F i c choice w).2.1 = w.1 ∧ Q (act F i c choice w).1 (act F i c choice w).2)
    {w : State} (hw : P w) : (perform c).wp (among F i) Q w := by
  refine act_wp hstable ?_ hw
  intro w choice hP hinvariant hallowed
  obtain ⟨hsame, hQ⟩ := h w choice hP hallowed
  rw [hsame]
  exact ⟨.refl i _, hinvariant, hQ⟩

theorem encrypt_wp {plaintext : String} {P : State → Prop} {Q : Except Exn String → State → Prop}
    (hstable : (contract F).Stable i P) (herror : ∀ e w, P w → Q (.error e) w)
    (hok : ∀ ciphertext w, P w → F.decrypt ciphertext = some plaintext → Q (.ok ciphertext) w)
    {w : State} (hw : P w) : (encryptSecret plaintext).wp (among F i) Q w := by
  unfold encryptSecret
  split_ifs
  · exact herror _ w hw
  · refine idle_wp hstable ?_ hw
    intro w choice hP _
    cases choice with
    | error e => exact ⟨rfl, herror e w hP⟩
    | ok iv => exact ⟨rfl, hok _ w hP (F.decrypt_encrypt iv plaintext)⟩

theorem decrypt_wp {ciphertext : String} {P : State → Prop} {Q : Except Exn String → State → Prop}
    (hstable : (contract F).Stable i P) (herror : ∀ e w, P w → Q (.error e) w)
    (hok : ∀ plaintext w, P w → F.decrypt ciphertext = some plaintext → Q (.ok plaintext) w)
    {w : State} (hw : P w) : (decryptSecret ciphertext).wp (among F i) Q w := by
  refine idle_wp hstable ?_ hw
  intro w choice hP _
  cases choice with
  | error e => exact ⟨rfl, herror e w hP⟩
  | ok _ =>
    cases hplain : F.decrypt ciphertext with
    | none =>
      simp only [act, Except.bind, hplain, true_and]
      exact herror _ w hP
    | some plaintext =>
      simp only [act, Except.bind, hplain, true_and]
      exact hok plaintext w hP hplain

theorem free_holder {s : World} (h : s.free i = true) {j : ℕ} (hj : j ≠ i) : s.holder ≠ some j := by
  simp only [World.free, Bool.or_eq_true, decide_eq_true_eq] at h
  obtain h | h := h
  · simp [h]
  · simp [h, hj.symm]

/-- Taking the lock that is free. -/
theorem guarantee_lock {s : World} (h : s.free i = true) : Guarantee i s { s with holder := some i } := by
  refine ⟨rfl, List.suffix_rfl, ?_, fun _ _ _ => rfl⟩
  intro j hj
  have hother := free_holder h hj
  simp [hother, hj.symm]

theorem Busy.lock {w : State} (h : Busy F i served w) : Busy F i served ({ w.1 with holder := some i }, w.2) :=
  ⟨fun _ => rfl, h.chained, h.accounted⟩

theorem Busy.of_changes {w : State} {l : Session} (h : Busy F i served w) (hl : l.changes = w.2.changes) :
    Busy F i served (w.1, l) := by
  refine ⟨?_, ?_, ?_⟩
  · rw [hl]
    exact h.locked
  · rw [hl]
    exact h.chained
  · rw [hl]
    exact h.accounted

theorem load_changes (l : Session) (populateExisting : Bool) (row : Option Secret) :
    (load l populateExisting row).2.changes = l.changes := by
  cases row <;> rfl

theorem load_serving (l : Session) (populateExisting : Bool) (row : Option Secret) :
    (load l populateExisting row).2.serving = l.serving := by
  cases row <;> rfl

/-- A request that raised says nothing of the row. -/
theorem Busy.error {w : State} {request : Request} (h : Busy F i served w) (e : Exn) :
    Busy F i (⟨request, .error e⟩ :: served) w := by
  have hbinding : Binding ⟨request, .error e⟩ = false := by cases request <;> rfl
  refine ⟨?_, h.chained, ?_⟩
  · simp only [List.any_cons, hbinding, Bool.false_or]
    exact h.locked
  · intro x hx
    obtain rfl | hx := List.mem_cons.mp hx
    · cases request <;> trivial
    · exact h.accounted x hx

theorem accounted_of_later {row : Option Secret} {states : List (Option Secret)} {changes : List Change}
    {added : Change} (hlater : Later (seenThrough changes row) (some added.after)) {x : Served}
    (h : Accounted F row states changes x) : Accounted F row states (added :: changes) x := by
  obtain ⟨request, result⟩ := x
  cases result with
  | error e => cases request <;> trivial
  | ok result =>
    cases request with
    | put plaintext purpose => exact ⟨h.plaintext, h.purpose, h.replaced, h.kept.trans hlater⟩
    | getOrCreate purpose =>
      obtain hcommitted | ⟨change, hchange, hafter⟩ := h
      · exact .inl hcommitted
      · exact .inr ⟨change, List.mem_cons_of_mem _ hchange, hafter⟩

/-- A change that raises the revision, or finds no row. -/
theorem Busy.change {w : State} {loaded : Option Secret} {after : Secret} (h : Busy F i served w)
    (hraised : ∀ a, current w = some a → a.revision < after.revision)
    (hcreated : ∀ purpose, w.2.serving = some (.getOrCreate purpose) → current w = none) :
    Busy F i served (change i w loaded after) := by
  have hlater : Later (seenThrough w.2.changes w.1.row) (some after) := fun a ha => ⟨after, rfl, .inr (hraised a ha)⟩
  refine ⟨fun _ => rfl, ⟨⟨rfl, hraised, hcreated⟩, h.chained⟩, ?_⟩
  intro x hx
  exact accounted_of_later (by exact hlater) (h.accounted x hx)

theorem Busy.put {w : State} {plaintext purpose : String} {row : Secret} (h : Busy F i served w)
    (hholding : Holding i row w) (hplaintext : F.decrypt row.ciphertext = some plaintext)
    (hpurpose : row.purpose = purpose) : Busy F i (⟨.put plaintext purpose, .ok row⟩ :: served) w := by
  refine ⟨fun _ => hholding.holder, h.chained, ?_⟩
  intro x hx
  obtain rfl | hx := List.mem_cons.mp hx
  · have hcurrent : seenThrough w.2.changes w.1.row = some row := hholding.current
    refine ⟨hplaintext, hpurpose, ?_, ?_⟩
    · intro a ha
      obtain ⟨b, hb, hab⟩ := h.chained.later a ha
      rw [hcurrent] at hb
      cases hb
      exact hab
    · rw [hcurrent]
      exact .refl _
  · exact h.accounted x hx

theorem Busy.got {w : State} {purpose : String} {row : Secret} (h : Busy F i served w)
    (hfound : Found w.1.states w.2.changes row) : Busy F i (⟨.getOrCreate purpose, .ok row⟩ :: served) w := by
  refine ⟨?_, h.chained, ?_⟩
  · simp only [List.any_cons, Binding, Bool.false_or]
    exact h.locked
  · intro x hx
    obtain rfl | hx := List.mem_cons.mp hx
    · exact hfound
    · exact h.accounted x hx

theorem row_mem_states (w : World) : w.row ∈ w.states :=
  List.mem_map_of_mem ((List.mem_tails _ _).mpr List.suffix_rfl)

theorem found_of_seen {states : List (Option Secret)} {changes : List Change} {state : Option Secret} {row : Secret}
    (hstate : state ∈ states) (h : seenThrough changes state = some row) : Found states changes row := by
  cases changes with
  | nil =>
    have hrow : state = some row := h
    exact .inl (hrow ▸ hstate)
  | cons change earlier =>
    have hafter : change.after = row := by simpa [seenThrough] using h
    exact .inr ⟨change, List.mem_cons_self, hafter⟩

/-- A stale read yields a row that was committed, or the transaction's own. -/
theorem found_of_stale {w : State} {k : ℕ} {row : Secret} (h : stale w k = some row) :
    Found w.1.states w.2.changes row := by
  cases hchanges : w.2.changes with
  | cons change earlier =>
    rw [stale, hchanges] at h
    have hafter : change.after = row := by simpa [seenThrough] using h
    exact .inr ⟨change, List.mem_cons_self, hafter⟩
  | nil =>
    rw [stale, hchanges] at h
    have hstate : w.1.states[k]? = some (some row) := Option.join_eq_some_iff.mp h
    exact .inl (List.mem_of_getElem? hstate)

end Steps

/-- A transaction at one of its requests. -/
structure Serving (F : Fernet) (i : ℕ) (served : List Served) (request : Request) (w : State) : Prop where
  busy : Busy F i served w
  serving : w.2.serving = some request

section Calls

variable {F : Fernet} {i : ℕ} {served : List Served} {request : Request}

theorem serving_stable : (contract F).Stable i (Serving F i served request) := by
  intro j s t l hj hguarantee hinvariant h
  exact ⟨busy_stable j s t l hj hguarantee hinvariant h.busy, h.serving⟩

theorem Serving.lock {w : State} (h : Serving F i served request w) :
    Serving F i served request ({ w.1 with holder := some i }, w.2) := ⟨h.busy.lock, h.serving⟩

theorem Serving.load {w : State} {populateExisting : Bool} {row : Option Secret} (h : Serving F i served request w) :
    Serving F i served request (w.1, (load w.2 populateExisting row).2) :=
  ⟨h.busy.of_changes (load_changes ..), (load_serving ..).trans h.serving⟩

theorem select_wp {populateExisting : Bool} {Q : Except Exn (Option Secret) → State → Prop}
    (herror : ∀ e w, Serving F i served request w → Q (.error e) w)
    (hnone : ∀ w, Serving F i served request w → w.2.loaded = none → Q (.ok none) w)
    (hsome : ∀ row w, Serving F i served request w → (populateExisting = true → Found w.1.states w.2.changes row) →
      Q (.ok (some row)) w)
    {w : State} (hw : Serving F i served request w) : (perform (.select populateExisting)).wp (among F i) Q w := by
  refine idle_wp serving_stable ?_ hw
  intro w choice hP hallowed
  cases choice with
  | error e => exact ⟨rfl, herror e w hP⟩
  | ok k =>
    refine ⟨rfl, ?_⟩
    cases hseen : stale w k with
    | none =>
      have hunseen : w.2.loaded = none := by
        simpa [conductCall, act, reads, hseen, load] using hallowed
      have hresult : act F i (.select populateExisting) (.ok k) w = (.ok none, w) := by
        simp only [act, reads, hseen, load]
      rw [hresult]
      exact hnone w hP hunseen
    | some row =>
      have hresult : act F i (.select populateExisting) (.ok k) w = (.ok (some (mapped w.2 populateExisting row)),
          (w.1, (load w.2 populateExisting (some row)).2)) := by
        simp only [act, reads, hseen, load]
      rw [hresult]
      refine hsome _ _ hP.load ?_
      rintro rfl
      exact found_of_stale hseen

theorem selectForUpdate_wp {populateExisting : Bool} {Q : Except Exn (Option Secret) → State → Prop}
    (herror : ∀ e w, Serving F i served request w → Q (.error e) w)
    (hnone : ∀ w, Serving F i served request w → Q (.ok none) w)
    (hsome : ∀ row w, Serving F i served request w → Holding i row w → w.2.loaded = some row → Q (.ok (some row)) w)
    {w : State} (hw : Serving F i served request w ∧ (populateExisting = true ∨ w.2.loaded = none)) :
    (perform (.selectForUpdate populateExisting)).wp (among F i) Q w := by
  have hstable : (contract F).Stable i fun w =>
      Serving F i served request w ∧ (populateExisting = true ∨ w.2.loaded = none) :=
    .and serving_stable (Contract.stable_own fun l : Session => populateExisting = true ∨ l.loaded = none)
  refine act_wp hstable ?_ hw
  intro w choice hP hinvariant hallowed
  obtain ⟨hserving, hfresh⟩ := hP
  cases choice with
  | error e => exact ⟨.refl i _, hinvariant, herror e w hserving⟩
  | ok hidden =>
    by_cases hunseen : hidden = true ∨ current w = none
    · have hresult : act F i (.selectForUpdate populateExisting) (.ok hidden) w = (.ok none, w) := by
        simp only [act, locks, if_pos hunseen]
      rw [hresult]
      exact ⟨.refl i _, hinvariant, hnone w hserving⟩
    · obtain ⟨row, hrow⟩ := Option.ne_none_iff_exists'.mp (not_or.mp hunseen).2
      have hmapped : mapped w.2 populateExisting row = row := by
        obtain rfl | hloaded := hfresh
        · rfl
        · simp [mapped, hloaded]
      have hresult : act F i (.selectForUpdate populateExisting) (.ok hidden) w = (.ok (some row),
          ({ w.1 with holder := some i }, (load w.2 populateExisting (some row)).2)) := by
        simp only [act, locks, if_neg hunseen]
        simp only [reads, hrow, load, hmapped]
      have hfree : w.1.free i = true := by
        rw [hresult] at hallowed
        exact hallowed
      rw [hresult]
      refine ⟨guarantee_lock hfree, hinvariant, hsome row _ hserving.lock.load ⟨rfl, ?_⟩ ?_⟩
      · exact hrow
      · simp only [load, hmapped]

/-- What an insert leaves where there is no row. -/
theorem Serving.insert {w : State} {loaded : Option Secret} {values : Secret} (h : Serving F i served request w)
    (hnone : current w = none) : Serving F i served request (change i w loaded values) := by
  refine ⟨h.busy.change ?_ fun _ _ => hnone, h.serving⟩
  intro a ha
  rw [hnone] at ha
  cases ha

theorem guarantee_change {w : State} {loaded : Option Secret} {after : Secret} (hfree : w.1.free i = true) :
    Guarantee i w.1 (change i w loaded after).1 := guarantee_lock hfree

theorem insertIgnore_wp {values : Secret} {Q : Except Exn Bool → State → Prop}
    (herror : ∀ e w, Serving F i served request w → Q (.error e) w)
    (hok : ∀ created w, Serving F i served request w → Q (.ok created) w)
    {w : State} (hw : Serving F i served request w) : (perform (.insertIgnore values)).wp (among F i) Q w := by
  refine act_wp serving_stable ?_ hw
  intro w choice hP hinvariant hallowed
  cases choice with
  | error e => exact ⟨.refl i _, hinvariant, herror e w hP⟩
  | ok _ =>
    cases hcurrent : current w with
    | none =>
      simp only [act, inserts, hcurrent]
      exact ⟨guarantee_change hallowed, hinvariant, hok _ _ (hP.insert hcurrent)⟩
    | some row =>
      simp only [act, inserts, hcurrent]
      exact ⟨.refl i _, hinvariant, hok _ _ hP⟩

theorem insertNested_wp {values : Secret} {Q : Except Exn Unit → State → Prop}
    (herror : ∀ e w, Serving F i served request w → w.2.loaded = none → Q (.error e) w)
    (hok : ∀ w, Serving F i served request w → Holding i values w → Q (.ok ()) w)
    {w : State} (hw : Serving F i served request w ∧ w.2.loaded = none) :
    (perform (.insertNested values)).wp (among F i) Q w := by
  have hstable : (contract F).Stable i fun w => Serving F i served request w ∧ w.2.loaded = none :=
    .and serving_stable (Contract.stable_own fun l : Session => l.loaded = none)
  refine act_wp hstable ?_ hw
  intro w choice hP hinvariant hallowed
  obtain ⟨hserving, hloaded⟩ := hP
  cases choice with
  | error e => exact ⟨.refl i _, hinvariant, herror e w hserving hloaded⟩
  | ok _ =>
    cases hcurrent : current w with
    | none =>
      have hresult : act F i (.insertNested values) (.ok ()) w = (.ok (), change i w (some values) values) := by
        simp only [act, inserts, hcurrent, nested, if_true]
      have hfree : w.1.free i = true := by
        rw [hresult] at hallowed
        exact hallowed
      rw [hresult]
      exact ⟨guarantee_change hfree, hinvariant, hok _ (hserving.insert hcurrent) ⟨rfl, rfl⟩⟩
    | some row =>
      simp only [act, inserts, hcurrent, nested, Bool.false_eq_true, if_false]
      exact ⟨.refl i _, hinvariant, herror _ _ hserving hloaded⟩

theorem assigned_self (row values : Secret) : assigned (some row) values row = values := by
  obtain ⟨ciphertext, purpose, revision⟩ := values
  simp only [assigned]
  split_ifs <;> simp_all

theorem flush_wp {existing values : Secret} {plaintext purpose : String} {Q : Except Exn Unit → State → Prop}
    (hraised : existing.revision < values.revision)
    (herror : ∀ e w, Serving F i served (.put plaintext purpose) w → Q (.error e) w)
    (hok : ∀ w, Serving F i served (.put plaintext purpose) w → Holding i values w → Q (.ok ()) w)
    {w : State} (hw : (Serving F i served (.put plaintext purpose) w ∧ Holding i existing w) ∧
      w.2.loaded = some existing) :
    (perform (.flush values)).wp (among F i) Q w := by
  have hstable : (contract F).Stable i fun w => (Serving F i served (.put plaintext purpose) w ∧
      Holding i existing w) ∧ w.2.loaded = some existing :=
    .and (.and serving_stable (holding_stable existing)) (Contract.stable_own fun l : Session => l.loaded = some existing)
  refine act_wp hstable ?_ hw
  intro w choice hP hinvariant hallowed
  obtain ⟨⟨hserving, hholding⟩, hloaded⟩ := hP
  cases choice with
  | error e => exact ⟨.refl i _, hinvariant, herror e w hserving⟩
  | ok _ =>
    have hresult : act F i (.flush values) (.ok ()) w = (.ok (), change i w (some values) values) := by
      simp only [act, flushes, hholding.current, hloaded, assigned_self]
    have hfree : w.1.free i = true := by simp [World.free, hholding.holder]
    rw [hresult]
    refine ⟨guarantee_change hfree, hinvariant, hok _ ⟨hserving.busy.change ?_ ?_, hserving.serving⟩ ⟨rfl, rfl⟩⟩
    · intro a ha
      rw [hholding.current] at ha
      cases ha
      exact hraised
    · intro purpose' hcreating
      rw [hserving.serving] at hcreating
      cases hcreating

end Calls

section Programs

variable {F : Fernet} {i : ℕ} {served : List Served}

theorem settle_wp {existing : Secret} {plaintext purpose : String} {w : State}
    (hw : (Serving F i served (.put plaintext purpose) w ∧ Holding i existing w) ∧ w.2.loaded = some existing) :
    (settle existing plaintext purpose).wp (among F i)
      (fun r => Busy F i (⟨.put plaintext purpose, r⟩ :: served)) w := by
  have hstable : (contract F).Stable i fun w => (Serving F i served (.put plaintext purpose) w ∧
      Holding i existing w) ∧ w.2.loaded = some existing :=
    .and (.and serving_stable (holding_stable existing)) (Contract.stable_own fun l : Session => l.loaded = some existing)
  rw [settle, wp_bind]
  refine decrypt_wp hstable (fun e w h => h.1.1.busy.error e) ?_ hw
  intro current w hw hcurrent
  rw [bindPost_ok, wp_ite]
  constructor
  · rintro ⟨rfl, hpurpose⟩
    exact hw.1.1.busy.put hw.1.2 hcurrent hpurpose
  · intro _
    rw [wp_bind]
    refine encrypt_wp hstable (fun e w h => h.1.1.busy.error e) ?_ hw
    intro ciphertext w hw hplaintext
    rw [bindPost_ok, wp_bind]
    refine flush_wp (Int.lt_succ _) (fun e w h => h.busy.error e) ?_ hw
    intro w hserving hholding
    exact hserving.busy.put hholding hplaintext rfl

theorem relock_wp {populateExisting : Bool} {plaintext purpose : String} {missing : Exn} {w : State}
    (hw : Serving F i served (.put plaintext purpose) w ∧ (populateExisting = true ∨ w.2.loaded = none)) :
    (relock populateExisting missing plaintext purpose).wp (among F i)
      (fun r => Busy F i (⟨.put plaintext purpose, r⟩ :: served)) w := by
  rw [relock, wp_bind]
  refine selectForUpdate_wp (fun e w h => h.busy.error e) ?_ ?_ hw
  · intro w h
    exact h.busy.error missing
  · intro existing w hserving hholding hloaded
    exact settle_wp ⟨⟨hserving, hholding⟩, hloaded⟩

theorem insertMysql_wp {plaintext purpose : String} {w : State} (hw : Serving F i served (.put plaintext purpose) w) :
    (insertMysql plaintext purpose).wp (among F i)
      (fun r => Busy F i (⟨.put plaintext purpose, r⟩ :: served)) w := by
  rw [insertMysql, wp_bind]
  refine encrypt_wp serving_stable (fun e w h => h.busy.error e) ?_ hw
  intro ciphertext w hw _
  rw [bindPost_ok, wp_bind]
  refine insertIgnore_wp (fun e w h => h.busy.error e) ?_ hw
  intro created w hw
  rw [bindPost_ok]
  exact relock_wp ⟨hw, .inl rfl⟩

theorem insertOther_wp {plaintext purpose : String} {w : State}
    (hw : Serving F i served (.put plaintext purpose) w ∧ w.2.loaded = none) :
    (insertOther plaintext purpose).wp (among F i)
      (fun r => Busy F i (⟨.put plaintext purpose, r⟩ :: served)) w := by
  have hstable : (contract F).Stable i fun w =>
      Serving F i served (.put plaintext purpose) w ∧ w.2.loaded = none :=
    .and serving_stable (Contract.stable_own fun l : Session => l.loaded = none)
  rw [insertOther, wp_bind]
  refine encrypt_wp hstable (fun e w h => h.1.busy.error e) ?_ hw
  intro ciphertext w hw hplaintext
  rw [bindPost_ok, wp_bind, wp_attempt]
  refine insertNested_wp ?_ ?_ hw
  · intro e w hserving hloaded
    rw [bindPost_ok, wp_ite]
    constructor
    · intro _
      exact relock_wp ⟨hserving, .inr hloaded⟩
    · intro _
      exact hserving.busy.error e
  · intro w hserving hholding
    exact hserving.busy.put hholding hplaintext rfl

theorem putSecret_wp {dialect : Dialect} {plaintext purpose : String} {w : State}
    (hw : Serving F i served (.put plaintext purpose) w) :
    (putSecret dialect plaintext purpose).wp (among F i)
      (fun r => Busy F i (⟨.put plaintext purpose, r⟩ :: served)) w := by
  rw [putSecret, wp_bind]
  refine select_wp (fun e w h => h.busy.error e) ?_ ?_ hw
  · intro w hserving hloaded
    rw [bindPost_ok]
    cases dialect with
    | mysql => exact insertMysql_wp hserving
    | other => exact insertOther_wp ⟨hserving, hloaded⟩
  · intro row w hserving _
    exact relock_wp ⟨hserving, .inl rfl⟩

/-- The result of a creation was found, or it raised. -/
def Got (F : Fernet) (i : ℕ) (served : List Served) (r : Except Exn (Secret × Bool)) (w : State) : Prop :=
  Busy F i served w ∧ ∀ result, r = .ok result → Found w.1.states w.2.changes result.1

theorem Busy.got_error {w : State} (h : Busy F i served w) (e : Exn) : Got F i served (.error e) w :=
  ⟨h, fun _ hresult => by cases hresult⟩

theorem Busy.got_found {w : State} {row : Secret} (h : Busy F i served w)
    (hfound : Found w.1.states w.2.changes row) (created : Bool) : Got F i served (.ok (row, created)) w := by
  refine ⟨h, ?_⟩
  intro result hresult
  cases hresult
  exact hfound

theorem Holding.found {w : State} {row : Secret} (h : Holding i row w) : Found w.1.states w.2.changes row :=
  found_of_seen (row_mem_states w.1) h.current

theorem createMysql_wp {request : Request} {values : Secret} {w : State} (hw : Serving F i served request w) :
    (createMysql values).wp (among F i) (Got F i served) w := by
  rw [createMysql, wp_bind]
  refine insertIgnore_wp (fun e w h => h.busy.got_error e) ?_ hw
  intro created w hw
  rw [bindPost_ok, wp_bind]
  refine selectForUpdate_wp (fun e w h => h.busy.got_error e) ?_ ?_ ⟨hw, .inl rfl⟩
  · intro w hserving
    exact hserving.busy.got_error unreadable
  · intro winner w hserving hholding _
    exact hserving.busy.got_found hholding.found created

theorem createOther_wp {request : Request} {values : Secret} {w : State}
    (hw : Serving F i served request w ∧ w.2.loaded = none) :
    (createOther values).wp (among F i) (Got F i served) w := by
  rw [createOther, wp_bind, wp_attempt]
  refine insertNested_wp ?_ ?_ hw
  · intro e w hserving _
    rw [bindPost_ok, wp_ite]
    constructor
    · intro _
      rw [wp_bind]
      refine select_wp (fun e w h => h.busy.got_error e) ?_ ?_ hserving
      · intro w hserving _
        exact hserving.busy.got_error e
      · intro winner w hserving hfound
        exact hserving.busy.got_found (hfound rfl) false
    · intro _
      exact hserving.busy.got_error e
  · intro w hserving hholding
    exact hserving.busy.got_found hholding.found true

theorem getOrCreateSecret_wp {dialect : Dialect} {request : Request} {purpose : String} {w : State}
    (hw : Serving F i served request w) :
    (getOrCreateSecret dialect purpose).wp (among F i) (Got F i served) w := by
  have hstable : (contract F).Stable i fun w => Serving F i served request w ∧ w.2.loaded = none :=
    .and serving_stable (Contract.stable_own fun l : Session => l.loaded = none)
  rw [getOrCreateSecret, wp_bind]
  refine select_wp (fun e w h => h.busy.got_error e) ?_ ?_ hw
  · intro w hserving hloaded
    rw [bindPost_ok, wp_bind]
    refine idle_wp hstable ?_ ⟨hserving, hloaded⟩
    intro w choice hw _
    refine ⟨rfl, ?_⟩
    cases choice with
    | error e => exact hw.1.busy.got_error e
    | ok plaintext =>
      have hresult : act F i .plaintextFactory (.ok plaintext) w = (.ok plaintext, w) := rfl
      rw [hresult, bindPost_ok, wp_bind]
      refine encrypt_wp hstable (fun e w h => h.1.busy.got_error e) ?_ hw
      intro ciphertext w hw _
      rw [bindPost_ok]
      cases dialect with
      | mysql => exact createMysql_wp hw.1
      | other => exact createOther_wp hw
  · intro row w hserving hfound
    exact hserving.busy.got_found (hfound rfl) false

theorem serve_wp {dialect : Dialect} {request : Request} {w : State} (hw : Serving F i served request w) :
    (serve dialect request).wp (among F i) (fun r => Busy F i (⟨request, r⟩ :: served)) w := by
  cases request with
  | put plaintext purpose => exact putSecret_wp hw
  | getOrCreate purpose =>
    rw [serve, wp_bind]
    refine wp_mono _ _ ?_ (getOrCreateSecret_wp hw)
    intro r w hgot
    obtain ⟨hbusy, hfound⟩ := hgot
    cases r with
    | error e => exact hbusy.error e
    | ok result => exact hbusy.got (hfound result rfl)

theorem serveAll_wp {dialect : Dialect} {requests : List Request} {w : State} (hw : Busy F i served w) :
    (serveAll dialect requests served).wp (among F i)
      (fun r w => ∃ served, r = .ok served ∧ Busy F i served w ∨ ∃ e, r = .error e) w := by
  induction requests generalizing served w with
  | nil => exact ⟨served, .inl ⟨rfl, hw⟩⟩
  | cons request rest ih =>
    rw [serveAll, wp_bind]
    refine idle_wp busy_stable ?_ hw
    intro w choice hw _
    refine ⟨rfl, ?_⟩
    have hserving : Serving F i served request (w.1, { w.2 with serving := some request }) :=
      ⟨hw.of_changes rfl, rfl⟩
    have hresult : act F i (.serve request) choice w = (.ok (), (w.1, { w.2 with serving := some request })) := rfl
    rw [hresult, bindPost_ok, wp_bind, wp_attempt]
    refine wp_mono _ _ ?_ (serve_wp hserving)
    intro r w hw
    exact ih hw

/-- The commit of a transaction. -/
theorem Busy.commit {w : State} (h : Busy F i served w) (hinvariant : Invariant F w.1) :
    Guarantee i w.1 { w.1 with commits := ⟨w.2.changes, served⟩ :: w.1.commits } ∧
      Invariant F { w.1 with commits := ⟨w.2.changes, served⟩ :: w.1.commits } := by
  refine ⟨⟨rfl, List.suffix_cons .., fun _ _ => Iff.rfl, ?_⟩, ⟨h.chained, h.accounted⟩, hinvariant⟩
  intro j hj hheld
  have hchanges : w.2.changes = [] := by
    by_contra hne
    rw [h.locked (.inl hne)] at hheld
    cases hheld
    exact hj rfl
  simp [World.row, rowAfter, hchanges, seenThrough]

theorem begin_busy {s : World} : Busy F i [] (s, .fresh) := by
  refine ⟨?_, trivial, ?_⟩
  · rintro (hchanges | hserved)
    · exact absurd rfl hchanges
    · cases hserved
  · intro x hx
    cases hx

theorem transaction_wp {dialect : Dialect} {s : World} :
    (transaction dialect).wp (among F i) (fun _ _ => True) (s, .fresh) := by
  rw [transaction, wp_bind]
  refine idle_wp busy_stable ?_ (begin_busy (F := F) (i := i))
  intro w choice hw _
  refine ⟨rfl, ?_⟩
  have hresult : act F i .begin choice w = (.ok choice.1, (w.1, { w.2 with loaded := w.1.states[choice.2]?.join })) := rfl
  rw [hresult, bindPost_ok, wp_bind]
  refine wp_mono _ _ ?_ (serveAll_wp (hw.of_changes rfl))
  intro r w hr
  obtain ⟨served, ⟨rfl, hbusy⟩ | ⟨e, rfl⟩⟩ := hr
  · rw [bindPost_ok]
    refine act_wp busy_stable ?_ hbusy
    intro w choice hbusy hinvariant _
    obtain ⟨ending, answer⟩ := choice
    cases ending with
    | commit =>
      obtain ⟨hguarantee, hcommitted⟩ := hbusy.commit hinvariant
      exact ⟨hguarantee, hcommitted, trivial⟩
    | rollback => exact ⟨.refl i _, hinvariant, trivial⟩
  · trivial

end Programs

section Runs

variable {F : Fernet} {dialect : Dialect}

theorem unlock_guarantee (i : ℕ) (s : World) : Guarantee i s (s.unlock i) := by
  unfold World.unlock
  split_ifs with hheld
  · refine ⟨rfl, List.suffix_rfl, ?_, fun _ _ _ => rfl⟩
    intro j hj
    simp [hheld, hj.symm]
  · exact .refl i s

theorem unlock_invariant {i : ℕ} {s : World} (h : Invariant F s) : Invariant F (s.unlock i) := by
  unfold World.unlock
  split_ifs
  · exact h
  · exact h

theorem sound : (contract F).Sound (agents F) conduct (transaction dialect) .fresh fun _ _ _ => True where
  kept_stable := fun _ _ _ _ _ _ _ _ _ => trivial
  ended_stable := fun _ _ _ _ _ _ _ _ _ _ => trivial
  absent_stable := fun i j s t hj hguarantee _ habsent hheld => habsent ((hguarantee.held i hj.symm).mp hheld)
  begin_kept := fun _ _ _ _ => trivial
  verified := fun _ _ _ _ => transaction_wp
  crash_leaves := fun i s _ hinvariant _ _ => ⟨unlock_guarantee i s, unlock_invariant hinvariant, trivial⟩
  ended_leaves := fun i _ s _ hinvariant _ _ => ⟨unlock_guarantee i s, unlock_invariant hinvariant, trivial, trivial⟩

theorem invariant_of_reachable {g : Configuration calls Exn Unit World Session} (h : ReachableBy F dialect g) :
    Invariant F g.shared := by
  have hgood := Contract.good_of_reachable (@sound F dialect) ?_ (fun i s _ => .refl i s) h
  · exact hgood.invariant
  · rintro s ⟨hcommits, hholder⟩
    refine ⟨?_, ?_⟩
    · show History.Always (Recorded F s.initial) s.commits
      rw [hcommits]
      trivial
    · intro i hheld
      rw [hholder] at hheld
      cases hheld

end Runs

/-- The committed states behind `past`, which later ones follow. -/
theorem later_of_recorded {F : Fernet} {initial : Option Secret} {past now : List Commit}
    (h : History.Always (Recorded F initial) now) (hpast : past <:+ now) :
    Later (rowAfter initial past) (rowAfter initial now) := by
  induction now with
  | nil =>
    rw [List.suffix_nil.mp hpast]
    exact .refl _
  | cons commit earlier ih =>
    obtain ⟨hrecorded, hearlier⟩ := h
    obtain rfl | hpast := List.suffix_cons_iff.mp hpast
    · exact .refl _
    · exact (ih hearlier hpast).trans hrecorded.chained.later

/-- A transaction changes what was there only for a `put_secret`. -/
theorem unchanged_of_created {row : Option Secret} {changes : List Change} (h : Chained row changes)
    (hcreating : ∀ x ∈ changes, ∃ purpose, x.request = some (.getOrCreate purpose)) {a : Secret}
    (ha : row = some a) : changes = [] := by
  cases changes with
  | nil => rfl
  | cons change earlier =>
    obtain ⟨hsequel, hearlier⟩ := h
    obtain ⟨purpose, hrequest⟩ := hcreating change List.mem_cons_self
    have hchained : Chained row earlier := hearlier
    obtain ⟨b, hb, -⟩ := hchained.later a ha
    have hbefore := hsequel.before
    rw [hsequel.created purpose hrequest, hb] at hbefore
    cases hbefore

/-- Where only creations write, all committed states with a row have the same. -/
def Creating (commits : List Commit) : Prop :=
  ∀ commit ∈ commits, ∀ x ∈ commit.changes, ∃ purpose, x.request = some (.getOrCreate purpose)

theorem Creating.of_suffix {past now : List Commit} (h : Creating now) (hpast : past <:+ now) : Creating past :=
  fun commit hcommit => h commit (hpast.subset hcommit)

theorem row_of_creating {F : Fernet} {initial : Option Secret} {past now : List Commit} {row : Secret}
    (h : History.Always (Recorded F initial) now) (hcreating : Creating now) (hpast : past <:+ now)
    (hrow : rowAfter initial past = some row) : rowAfter initial now = some row := by
  induction now with
  | nil =>
    rw [List.suffix_nil.mp hpast] at hrow
    exact hrow
  | cons commit earlier ih =>
    obtain ⟨hrecorded, hearlier⟩ := h
    obtain rfl | hpast := List.suffix_cons_iff.mp hpast
    · exact hrow
    · have hbefore := ih hearlier (hcreating.of_suffix (List.suffix_cons ..)) hpast
      have hchanges : commit.changes = [] :=
        unchanged_of_created hrecorded.chained (hcreating commit List.mem_cons_self) hbefore
      rw [rowAfter, hchanges]
      exact hbefore

/-- What was found is what is there at the end. -/
theorem found_of_creating {F : Fernet} {initial : Option Secret} {commit : Commit} {earlier : List Commit}
    {row : Secret} (hrecorded : Recorded F initial commit earlier)
    (hearlier : History.Always (Recorded F initial) earlier) (hcreating : Creating (commit :: earlier))
    (hfound : Found (earlier.tails.map (rowAfter initial)) commit.changes row) :
    rowAfter initial (commit :: earlier) = some row := by
  obtain hcommitted | ⟨change, hchange, hafter⟩ := hfound
  · obtain ⟨past, hpast, hrow⟩ := List.mem_map.mp hcommitted
    exact row_of_creating ⟨hrecorded, hearlier⟩ hcreating
      (((List.mem_tails _ _).mp hpast).trans (List.suffix_cons ..)) hrow
  · obtain ⟨changes, served⟩ := commit
    cases changes with
    | nil => cases hchange
    | cons newest older =>
      obtain ⟨hsequel, hchained⟩ := hrecorded.chained
      obtain ⟨purpose, hrequest⟩ := hcreating _ List.mem_cons_self newest List.mem_cons_self
      have hunseen : seenThrough older (rowAfter initial earlier) = none :=
        hsequel.before.symm.trans (hsequel.created purpose hrequest)
      obtain rfl | hchange := List.mem_cons.mp hchange
      · simp [rowAfter, seenThrough, hafter]
      · cases older with
        | nil => cases hchange
        | cons second rest => cases hunseen

/-- What the committed states of one reference show. `past` and `now` are the commits up to some
moment, newest first, and `now` is the later one. -/
structure Versioned (F : Fernet) (w : World) : Prop where
  revision_le : ∀ past now a, past <:+ now → now <:+ w.commits → rowAfter w.initial past = some a →
    ∃ b, rowAfter w.initial now = some b ∧ a.revision ≤ b.revision
  revision_lt : ∀ past now a b, past <:+ now → now <:+ w.commits → rowAfter w.initial past = some a →
    rowAfter w.initial now = some b →
    F.decrypt a.ciphertext ≠ F.decrypt b.ciphertext ∨ a.purpose ≠ b.purpose → a.revision < b.revision
  determined : ∀ past now a b, past <:+ w.commits → now <:+ w.commits → rowAfter w.initial past = some a →
    rowAfter w.initial now = some b → a.revision = b.revision →
    F.decrypt a.ciphertext = F.decrypt b.ciphertext ∧ a.purpose = b.purpose
  /-- The row that a `put_secret` returned holds its value and follows what was there before; behind its
  commit the row has its revision and its value, or a higher revision. -/
  put_kept : ∀ commit earlier now plaintext purpose row, now <:+ w.commits → commit :: earlier <:+ now →
    ⟨.put plaintext purpose, .ok row⟩ ∈ commit.served →
    F.decrypt row.ciphertext = some plaintext ∧ row.purpose = purpose ∧
    (∀ a, rowAfter w.initial earlier = some a → a = row ∨ a.revision < row.revision) ∧
    ∃ b, rowAfter w.initial now = some b ∧ (row.revision < b.revision ∨
      b.revision = row.revision ∧ F.decrypt b.ciphertext = some plaintext ∧ b.purpose = purpose)
  /-- A creation writes only where its transaction sees no row. -/
  getOrCreate_keeps : ∀ commit ∈ w.commits, ∀ change ∈ commit.changes,
    ∀ purpose, change.request = some (.getOrCreate purpose) → change.before = none
  /-- Where only creations have written, all committed results are one row. -/
  getOrCreate_agree : Creating w.commits → ∃ row, ∀ commit ∈ w.commits, ∀ purpose result,
    ⟨.getOrCreate purpose, .ok result⟩ ∈ commit.served → result = row

section Versioned

variable {F : Fernet} {w : World}

theorem Invariant.later (h : Invariant F w) {past now : List Commit} (hpast : past <:+ now)
    (hnow : now <:+ w.commits) : Later (rowAfter w.initial past) (rowAfter w.initial now) :=
  later_of_recorded (h.of_suffix hnow) hpast

theorem Invariant.follows (h : Invariant F w) {past now : List Commit} {a b : Secret} (hpast : past <:+ now)
    (hnow : now <:+ w.commits) (ha : rowAfter w.initial past = some a) (hb : rowAfter w.initial now = some b) :
    Follows a b := by
  obtain ⟨c, hc, hac⟩ := h.later hpast hnow a ha
  rw [hb] at hc
  cases hc
  exact hac

/-- Of two moments one is the earlier. -/
theorem Invariant.comparable (h : Invariant F w) {past now : List Commit} {a b : Secret}
    (hpast : past <:+ w.commits) (hnow : now <:+ w.commits) (ha : rowAfter w.initial past = some a)
    (hb : rowAfter w.initial now = some b) : Follows a b ∨ Follows b a := by
  obtain hle | hle := List.suffix_or_suffix_of_suffix hpast hnow
  · exact .inl (h.follows hle hnow ha hb)
  · exact .inr (h.follows hle hpast hb ha)

theorem Invariant.put_kept (h : Invariant F w) {commit : Commit} {earlier now : List Commit}
    {plaintext purpose : String} {row : Secret} (hnow : now <:+ w.commits) (hcommit : commit :: earlier <:+ now)
    (hserved : ⟨.put plaintext purpose, .ok row⟩ ∈ commit.served) :
    Wrote F (rowAfter w.initial earlier) commit.changes plaintext purpose row ∧
      Later (some row) (rowAfter w.initial now) := by
  obtain ⟨hrecorded, -⟩ := h.of_suffix (hcommit.trans hnow)
  have hwrote : Wrote F (rowAfter w.initial earlier) commit.changes plaintext purpose row :=
    hrecorded.accounted _ hserved
  exact ⟨hwrote, hwrote.kept.trans (h.later hcommit hnow)⟩

theorem Invariant.versioned (h : Invariant F w) : Versioned F w := by
  refine ⟨?_, ?_, ?_, ?_, ?_, ?_⟩
  · intro past now a hpast hnow ha
    obtain ⟨b, hb, rfl | hab⟩ := h.later hpast hnow a ha
    · exact ⟨b, hb, le_refl _⟩
    · exact ⟨b, hb, hab.le⟩
  · intro past now a b hpast hnow ha hb hchanged
    obtain rfl | hab := h.follows hpast hnow ha hb
    · simp at hchanged
    · exact hab
  · intro past now a b hpast hnow ha hb hsame
    obtain (rfl | hab) | (rfl | hab) := h.comparable hpast hnow ha hb
    · exact ⟨rfl, rfl⟩
    · omega
    · exact ⟨rfl, rfl⟩
    · omega
  · intro commit earlier now plaintext purpose row hnow hcommit hserved
    obtain ⟨hwrote, hlater⟩ := h.put_kept hnow hcommit hserved
    obtain ⟨b, hb, hrow⟩ := hlater row rfl
    refine ⟨hwrote.plaintext, hwrote.purpose, ?_, b, hb, ?_⟩
    · intro a ha
      obtain rfl | hraised := hwrote.replaced a ha
      · exact .inl rfl
      · exact .inr hraised
    · obtain rfl | hraised := hrow
      · exact .inr ⟨rfl, hwrote.plaintext, hwrote.purpose⟩
      · exact .inl hraised
  · intro commit hcommit change hchange purpose hrequest
    obtain ⟨later, earlier, hsplit⟩ := List.append_of_mem hcommit
    obtain ⟨hrecorded, -⟩ := h.of_suffix (hsplit ▸ List.suffix_append later (commit :: earlier))
    obtain ⟨newer, older, holder⟩ := List.append_of_mem hchange
    have hchained : Chained _ (change :: older) :=
      hrecorded.chained.of_suffix (holder ▸ List.suffix_append newer (change :: older))
    obtain ⟨hsequel, -⟩ := hchained
    exact hsequel.created purpose hrequest
  · intro hcreating
    have hfound : ∀ commit ∈ w.commits, ∀ purpose result,
        ⟨.getOrCreate purpose, .ok result⟩ ∈ commit.served → w.row = some result := by
      intro commit hcommit purpose result hserved
      obtain ⟨later, earlier, hsplit⟩ := List.append_of_mem hcommit
      have hsuffix : commit :: earlier <:+ w.commits := hsplit ▸ List.suffix_append later (commit :: earlier)
      obtain ⟨hrecorded, hearlier⟩ := h.of_suffix hsuffix
      have hrow := found_of_creating hrecorded hearlier (hcreating.of_suffix hsuffix) (hrecorded.accounted _ hserved)
      exact row_of_creating h hcreating hsuffix hrow
    cases hrow : w.row with
    | none =>
      refine ⟨⟨"", "", 0⟩, ?_⟩
      intro commit hcommit purpose result hserved
      have hresult := hfound commit hcommit purpose result hserved
      rw [hrow] at hresult
      cases hresult
    | some row =>
      refine ⟨row, ?_⟩
      intro commit hcommit purpose result hserved
      have hresult := hfound commit hcommit purpose result hserved
      rw [hrow] at hresult
      cases hresult
      rfl

end Versioned

/-- A call of process `i`, by a choice that is allowed. -/
theorem ReachableBy.call {F : Fernet} {dialect : Dialect} {g : Configuration calls Exn Unit World Session}
    (h : ReachableBy F dialect g) (i : ℕ) (c : Call) (choice : c.Choice)
    {next : Except Exn c.Answer → Work Unit} {l : Session}
    (hprocess : g.process i = some ⟨.running (.call c next), l⟩)
    (hallowed : conductCall i c (g.shared, l) (act F i c choice (g.shared, l)).1) :
    ReachableBy F dialect (g.update i (.running (next (act F i c choice (g.shared, l)).1))
      (act F i c choice (g.shared, l)).2) :=
  h.step (.call choice hprocess rfl hallowed)

/-- In every run the revisions tell the committed states of a reference apart. -/
theorem secrets_versioned (F : Fernet) (dialect : Dialect) {g : Configuration calls Exn Unit World Session}
    (h : ReachableBy F dialect g) : Versioned F g.shared :=
  (invariant_of_reachable h).versioned

/-- A token is the text behind the letter that tokens begin with. -/
def letterToken : Fernet where
  encrypt := fun _ plaintext => String.ofList ('g' :: plaintext.toList)
  decrypt := fun ciphertext => match ciphertext.toList with
    | 'g' :: plaintext => some (String.ofList plaintext)
    | _ => none
  decrypt_encrypt := by
    intro iv plaintext
    simp

/-- Two writers that both saw no row: the second meets the duplicate key, and updates. -/
theorem secrets_versioned_race : ∃ g : Configuration calls Exn Unit World Session,
    (rowAfter g.shared.initial g.shared.commits).map (fun row => (letterToken.decrypt row.ciphertext, row.revision)) =
      some (some "new", 2) ∧
    g.shared.commits.length = 2 ∧ Versioned letterToken g.shared := by
  have hstart : ReachableBy letterToken .other (.start ⟨none, [], none⟩) := .start ⟨rfl, rfl⟩
  have hfirst : ReachableBy letterToken .other _ := hstart.step (.spawn 0 rfl)
  have hsecond : ReachableBy letterToken .other _ := hfirst.step (.spawn 1 rfl)
  have h := hsecond.call 0 .begin ([.put "old" "gateway"], 0) rfl trivial
  have h := h.call 0 (.serve (.put "old" "gateway")) () rfl trivial
  have h := h.call 0 (.select false) (.ok 0) rfl (fun hloaded => by cases hloaded)
  have h := h.call 1 .begin ([.put "new" "gateway"], 0) rfl trivial
  have h := h.call 1 (.serve (.put "new" "gateway")) () rfl trivial
  have h := h.call 1 (.select false) (.ok 0) rfl (fun hloaded => by cases hloaded)
  have h := h.call 0 (.encrypt "old") (.ok 0) rfl trivial
  have h := h.call 0 (.insertNested ⟨letterToken.encrypt 0 "old", "gateway", 1⟩) (.ok ()) rfl rfl
  have h := h.call 0 (.finish _) (.commit, .ok ()) rfl trivial
  have h : ReachableBy letterToken .other _ := h.step (.ret (i := 0) rfl)
  have h := h.call 1 (.encrypt "new") (.ok 0) rfl trivial
  have h := h.call 1 (.insertNested ⟨letterToken.encrypt 0 "new", "gateway", 1⟩) (.ok ()) rfl trivial
  have h := h.call 1 (.selectForUpdate false) (.ok false) rfl rfl
  have h := h.call 1 (.decrypt (letterToken.encrypt 0 "old")) (.ok ()) rfl trivial
  have h := h.call 1 (.encrypt "new") (.ok 0) rfl trivial
  have h := h.call 1 (.flush ⟨letterToken.encrypt 0 "new", "gateway", 2⟩) (.ok ()) rfl rfl
  have h := h.call 1 (.finish _) (.commit, .ok ()) rfl trivial
  exact ⟨_, by decide +kernel, rfl, secrets_versioned letterToken .other h⟩

end Lingsway.Secrets
