import Lingsway.Ops.MihomoUsage

/-!
# The law of attribution

A connection is tracked from the first batch that has it until it is pruned. Over
all such epochs, what a side has been charged is the sum of the largest counters,
by day as well as by host, as long as SQLite's sums are exact.
-/
namespace Lingsway.Ops.MihomoUsage

open Library

/-- A connection from its first sight on: its side, and the counters seen, the last one first. -/
structure Epoch where
  side : Side
  counters : List Bytes
  deriving Repr, DecidableEq

def Epoch.largest (e : Epoch) (d : Direction) : ℤ := (e.counters.map fun b => b.of d).foldr max 0

/-- The epochs that have ended, and those that go on. -/
structure Epochs where
  ended : List Epoch
  tracked : Rows String Epoch

def Epoch.charge (side : Side) (d : Direction) (e : Epoch) : ℤ := if e.side = side then e.largest d else 0

/-- The largest counters of a side's epochs. -/
def Epochs.sum (e : Epochs) (side : Side) (d : Direction) : ℤ :=
  (e.ended.map fun epoch => epoch.charge side d).sum + Rows.total (fun _ epoch => epoch.charge side d) e.tracked

section Runs

variable (c : Collector)

def Epochs.see (e : Epochs) (id : String) (side : Side) (seen : Bytes) : Epochs :=
  match e.tracked.lookup id with
  | none => { e with tracked := e.tracked.insert id ⟨side, [seen]⟩ }
  | some epoch => { e with tracked := e.tracked.insert id ⟨epoch.side, seen :: epoch.counters⟩ }

/-- What an item of a batch shows: a connection, its side by its chains, and its counters. -/
def sighting (item : Json) : Except Exn (Option (String × Side × Bytes)) := do
  let item ← fields item
  if connectionId c item = "" then .ok none
  else do
    let seen ← counters c item
    .ok (some (connectionId c item, (classifyConnection c item).toOption.getD .airport, seen))

def Epochs.observe (e : Epochs) (item : Json) : Epochs :=
  match sighting c item with
  | .ok (some (id, side, seen)) => e.see id side seen
  | _ => e

/-- What happens to the store. -/
inductive Step where
  | batch (connections : List Json) (observedAt : Timestamp)
  | prune (now : Timestamp) (retentionDays : ℕ)
  | error (errorType : String)

/-- The store after a step, and the epochs: a batch that failed has shown nothing. -/
def step (w : Store × Epochs) : Step → Store × Epochs
  | .batch connections observedAt =>
    match ingestConnections c connections observedAt w.1 with
    | (.ok _, t) => (t, connections.foldl (Epochs.observe c) w.2)
    | (.error _, t) => (t, w.2)
  | .prune now retentionDays =>
    let gone := fun (id : String) (_ : Epoch) => (w.1.connectionMaxima.lookup id).any (stale now retentionDays)
    (pruneConnectionMaxima now retentionDays w.1,
      ⟨w.2.ended ++ (Rows.keep gone w.2.tracked).entries.map Sigma.snd,
        Rows.keep (fun id epoch => !gone id epoch) w.2.tracked⟩)
  | .error errorType => (recordError errorType w.1, w.2)

def run (steps : List Step) : Store × Epochs := steps.foldl (step c) (freshStore, ⟨[], ∅⟩)

end Runs

/-- The bytes of a row, if it is of the side. -/
def bytesOf {κ : Type} (sideOf : κ → Side) (side : Side) (d : Direction) (key : κ) (b : Bytes) : ℤ :=
  if sideOf key = side then b.of d else 0

def dailyTotal (s : Store) (side : Side) (d : Direction) : ℤ := Rows.total (bytesOf Prod.snd side d) s.dailyUsage

def domainTotal (s : Store) (side : Side) (d : Direction) : ℤ :=
  Rows.total (bytesOf (fun key => key.2.2) side d) s.domainUsage

/-- Every number of the two tables satisfies `p`. -/
def Every (p : ℤ → Prop) (s : Store) : Prop :=
  (∀ key b, s.dailyUsage.lookup key = some b → ∀ d, p (b.of d)) ∧
    ∀ key b, s.domainUsage.lookup key = some b → ∀ d, p (b.of d)

/-- Every sum of the tables is a number of 64 bits. -/
def Fits (s : Store) : Prop := Every (· < 2 ^ 63) s

/-- With exact sums, the step would leave numbers of 64 bits. -/
def StepFits (c : Collector) (s : Store) : Step → Prop
  | .batch connections observedAt => Fits (ingestWith (· + ·) c connections observedAt s).2
  | _ => True

section Sums

variable {κ : Type} [DecidableEq κ] (sideOf : κ → Side) (side : Side) (d : Direction)

/-- An exact upsert adds its delta to the sum. -/
theorem total_upsert (rows : Rows κ Bytes) (key : κ) (delta : Bytes) :
    Rows.total (bytesOf sideOf side d) (upsert (· + ·) rows key delta) =
      Rows.total (bytesOf sideOf side d) rows + bytesOf sideOf side d key delta := by
  unfold upsert
  cases hrow : rows.lookup key with
  | none =>
    simp only
    rw [Rows.total_insert, hrow]
    simp
  | some b =>
    simp only
    rw [Rows.total_insert, hrow, Option.elim_some]
    unfold bytesOf
    split_ifs
    · cases d <;> simp [Bytes.of]
    · simp

theorem of_eq_zero {b : Bytes} (h : b.upload = 0 ∧ b.download = 0) : b.of d = 0 := by
  cases d with
  | upload => exact h.1
  | download => exact h.2

/-- `add_usage` adds the same to both tables. -/
theorem totals_addUsage (s : Store) (day : ℤ) (a : Attribution) :
    dailyTotal (addUsage (· + ·) s day a) side d = dailyTotal s side d + (if a.side = side then a.delta.of d else 0) ∧
      domainTotal (addUsage (· + ·) s day a) side d =
        domainTotal s side d + (if a.side = side then a.delta.of d else 0) := by
  unfold addUsage
  by_cases hzero : a.delta.upload = 0 ∧ a.delta.download = 0
  · rw [if_pos hzero, of_eq_zero d hzero]
    simp
  · rw [if_neg hzero]
    exact ⟨total_upsert _ side d s.dailyUsage (day, a.side) a.delta,
      total_upsert _ side d s.domainUsage (day, a.host, a.side) a.delta⟩

end Sums

section Tracking

variable {c : Collector} {maxima maxima' : Rows String ConnectionMaximum} {id : String} {item : Members}
  {seen : Bytes} {timestamp : Timestamp} {a : Attribution}

/-- What tracking a connection writes, and what it attributes. -/
theorem track_ok (h : track c maxima id item seen timestamp = .ok (maxima', a)) :
    bindable seen = .ok () ∧
      ((maxima.lookup id = none ∧ a.delta = seen ∧ classifyConnection c item = .ok a.side ∧
          maxima' = maxima.insert id ⟨a.side, a.host, seen, timestamp, timestamp⟩) ∨
        ∃ existing, maxima.lookup id = some existing ∧ a.delta = growth existing.max seen ∧ a.side = existing.side ∧
          maxima' = maxima.insert id (existing.seenAgain seen timestamp)) := by
  unfold track at h
  cases hrow : maxima.lookup id with
  | none =>
    rw [hrow] at h
    obtain ⟨row, hfirst, h⟩ := Reading.bind_ok h
    obtain ⟨rfl, rfl⟩ := Prod.mk.inj (Except.ok.inj h)
    unfold firstSeen at hfirst
    obtain ⟨side, hside, hfirst⟩ := Reading.bind_ok hfirst
    obtain ⟨host, -, hfirst⟩ := Reading.bind_ok hfirst
    obtain ⟨⟨⟩, hbind, hfirst⟩ := Reading.bind_ok hfirst
    obtain rfl := Except.ok.inj hfirst
    exact ⟨hbind, .inl ⟨rfl, rfl, hside, rfl⟩⟩
  | some existing =>
    rw [hrow] at h
    obtain ⟨⟨⟩, hbind, h⟩ := Reading.bind_ok h
    obtain ⟨rfl, rfl⟩ := Prod.mk.inj (Except.ok.inj h)
    exact ⟨hbind, .inr ⟨existing, rfl, rfl, rfl, rfl⟩⟩

theorem counters_nonneg (h : counters c item = .ok seen) (d : Direction) : 0 ≤ seen.of d := by
  unfold counters at h
  obtain ⟨upload, -, h⟩ := Reading.bind_ok h
  obtain ⟨download, -, h⟩ := Reading.bind_ok h
  obtain rfl := Except.ok.inj h
  cases d with
  | upload => exact le_max_left 0 upload
  | download => exact le_max_left 0 download

/-- A row shows the side and the largest counters of its epoch. -/
def Shows (row : ConnectionMaximum) (epoch : Epoch) : Prop :=
  row.side = epoch.side ∧ ∀ d, row.max.of d = epoch.largest d

/-- The rows are the epochs that go on. -/
def Matches (maxima : Rows String ConnectionMaximum) (e : Epochs) : Prop :=
  ∀ id, Option.Rel Shows (maxima.lookup id) (e.tracked.lookup id)

theorem largest_cons (side : Side) (seen : Bytes) (counters : List Bytes) (d : Direction) :
    Epoch.largest ⟨side, seen :: counters⟩ d = max (seen.of d) (Epoch.largest ⟨side, counters⟩ d) := rfl

theorem of_seenAgain (existing : ConnectionMaximum) (d : Direction) :
    (existing.seenAgain seen timestamp).max.of d = max (existing.max.of d) (seen.of d) := by
  cases d <;> rfl

theorem of_growth (before : Bytes) (d : Direction) : (growth before seen).of d = max 0 (seen.of d - before.of d) := by
  cases d <;> rfl

theorem Matches.insert {e : Epochs} (h : Matches maxima e) {row : ConnectionMaximum} {epoch : Epoch}
    (hrow : Shows row epoch) : Matches (maxima.insert id row) { e with tracked := e.tracked.insert id epoch } := by
  intro j
  simp only [Rows.lookup_insert]
  by_cases hj : j = id
  · rw [if_pos hj, if_pos hj]
    exact .some hrow
  · rw [if_neg hj, if_neg hj]
    exact h j

/-- A connection that is tracked is seen, and its epoch grows by what is attributed. -/
theorem see_track {e : Epochs} (h : Matches maxima e) (hseen : ∀ d, 0 ≤ seen.of d)
    (htrack : track c maxima id item seen timestamp = .ok (maxima', a)) :
    Matches maxima' (e.see id ((classifyConnection c item).toOption.getD .airport) seen) ∧
      ∀ side d, (e.see id ((classifyConnection c item).toOption.getD .airport) seen).sum side d =
        e.sum side d + if a.side = side then a.delta.of d else 0 := by
  obtain ⟨-, ⟨hnone, hdelta, hside, rfl⟩ | ⟨existing, hsome, hdelta, hside, rfl⟩⟩ := track_ok htrack
  · have hepoch : e.tracked.lookup id = none := by
      have hrel := h id
      rw [hnone] at hrel
      cases htracked : e.tracked.lookup id with
      | none => rfl
      | some epoch =>
        rw [htracked] at hrel
        cases hrel
    have hlargest : ∀ d, Epoch.largest ⟨a.side, [seen]⟩ d = seen.of d := by
      intro d
      rw [largest_cons]
      exact max_eq_left (hseen d)
    rw [hside, Epochs.see, hepoch]
    simp only [Except.toOption, Option.getD_some]
    refine ⟨h.insert ⟨rfl, fun d => (hlargest d).symm⟩, fun side d => ?_⟩
    rw [Epochs.sum, Epochs.sum, Rows.total_insert, hepoch, hdelta, Option.elim_none, sub_zero, ← add_assoc]
    congr 1
    unfold Epoch.charge
    rw [hlargest]
  · obtain ⟨epoch, hepoch, hshows⟩ : ∃ epoch, e.tracked.lookup id = some epoch ∧ Shows existing epoch := by
      have hrel := h id
      rw [hsome] at hrel
      cases htracked : e.tracked.lookup id with
      | none =>
        rw [htracked] at hrel
        cases hrel
      | some epoch =>
        rw [htracked] at hrel
        cases hrel with
        | some hshows => exact ⟨epoch, rfl, hshows⟩
    have hlargest : ∀ d, Epoch.largest ⟨epoch.side, seen :: epoch.counters⟩ d = max (seen.of d) (epoch.largest d) :=
      fun d => rfl
    rw [Epochs.see, hepoch]
    simp only
    refine ⟨h.insert ⟨hshows.1, fun d => ?_⟩, fun side d => ?_⟩
    · rw [of_seenAgain, hlargest, hshows.2, max_comm]
    · rw [Epochs.sum, Epochs.sum, Rows.total_insert, hepoch, hdelta, hside, hshows.1, Option.elim_some, of_growth,
        hshows.2, add_assoc]
      congr 1
      congr 1
      unfold Epoch.charge
      rw [hlargest]
      simp only
      split_ifs
      · omega
      · rfl

end Tracking

section Law

variable {c : Collector} {s t : Store} {e : Epochs} {totals totals' : Totals} {observedAt : Timestamp}

/-- What the store holds is what the epochs come to. -/
structure Law (s : Store) (e : Epochs) : Prop where
  tracked : Matches s.connectionMaxima e
  daily : ∀ side d, dailyTotal s side d = e.sum side d
  domain : ∀ side d, domainTotal s side d = e.sum side d

/-- An item of a batch: it has no identifier, or it is tracked and charged. -/
theorem ingestItem_ok {plus : ℤ → ℤ → ℤ} {item : Json} (h : ingestItem plus c observedAt s totals item = .ok (t, totals')) :
    ∃ members, fields item = .ok members ∧
      ((connectionId c members = "" ∧ t = s ∧ totals' = totals) ∨
        ∃ seen maxima a, connectionId c members ≠ "" ∧ counters c members = .ok seen ∧
          track c s.connectionMaxima (connectionId c members) members seen observedAt = .ok (maxima, a) ∧
          t = addUsage plus { s with connectionMaxima := maxima } (usageDay observedAt) a ∧
          totals' = totals.add a.delta) := by
  unfold ingestItem at h
  obtain ⟨members, hmembers, h⟩ := Reading.bind_ok h
  refine ⟨members, hmembers, ?_⟩
  by_cases hid : connectionId c members = ""
  · rw [if_pos hid] at h
    obtain ⟨rfl, rfl⟩ := Prod.mk.inj (Except.ok.inj h)
    exact .inl ⟨hid, rfl, rfl⟩
  · rw [if_neg hid] at h
    obtain ⟨seen, hseen, h⟩ := Reading.bind_ok h
    obtain ⟨⟨maxima, a⟩, htrack, h⟩ := Reading.bind_ok h
    obtain ⟨rfl, rfl⟩ := Prod.mk.inj (Except.ok.inj h)
    exact .inr ⟨seen, maxima, a, hid, hseen, htrack, rfl, rfl⟩

@[simp] theorem connectionMaxima_addUsage (plus : ℤ → ℤ → ℤ) (s : Store) (day : ℤ) (a : Attribution) :
    (addUsage plus s day a).connectionMaxima = s.connectionMaxima := by
  unfold addUsage
  split_ifs <;> rfl

/-- Exact sums keep the law, item by item. -/
theorem Law.item (h : Law s e) {item : Json} (hitem : ingestItem (· + ·) c observedAt s totals item = .ok (t, totals')) :
    Law t (e.observe c item) := by
  obtain ⟨members, hmembers, ⟨hid, rfl, -⟩ | ⟨seen, maxima, a, hid, hseen, htrack, rfl, -⟩⟩ := ingestItem_ok hitem
  · have hsighting : sighting c item = .ok none := by
      rw [sighting, hmembers]
      exact if_pos hid
    rw [Epochs.observe, hsighting]
    exact h
  · have hsighting : sighting c item = .ok (some (connectionId c members,
        (classifyConnection c members).toOption.getD .airport, seen)) := by
      rw [sighting, hmembers]
      refine (if_neg hid).trans ?_
      rw [hseen]
      rfl
    obtain ⟨hmatches, hsum⟩ := see_track h.tracked (counters_nonneg hseen) htrack
    rw [Epochs.observe, hsighting]
    refine ⟨by rw [connectionMaxima_addUsage]; exact hmatches, fun side d => ?_, fun side d => ?_⟩
    · rw [(totals_addUsage side d _ _ a).1, hsum, ← h.daily]
      rfl
    · rw [(totals_addUsage side d _ _ a).2, hsum, ← h.domain]
      rfl

theorem Law.items (h : Law s e) {items : List Json}
    (hitems : ingestItems (· + ·) c observedAt items s totals = .ok (t, totals')) :
    Law t (items.foldl (Epochs.observe c) e) := by
  induction items generalizing s e totals with
  | nil =>
    obtain ⟨rfl, -⟩ := Prod.mk.inj (Except.ok.inj hitems)
    exact h
  | cons item items ih =>
    rw [ingestItems] at hitems
    obtain ⟨⟨u, between⟩, hitem, hrest⟩ := Reading.bind_ok hitems
    exact ih (h.item hitem) hrest

theorem sum_map_snd (e : Epochs) (gone : String → Epoch → Bool) (side : Side) (d : Direction) :
    (((Rows.keep gone e.tracked).entries.map Sigma.snd).map fun epoch => epoch.charge side d).sum =
      Rows.total (fun _ epoch => epoch.charge side d) (Rows.keep gone e.tracked) := by
  rw [List.map_map]
  rfl

/-- Pruning ends epochs, and charges nothing. -/
theorem Law.prune (h : Law s e) (now : Timestamp) (retentionDays : ℕ) :
    Law (step c (s, e) (.prune now retentionDays)).1 (step c (s, e) (.prune now retentionDays)).2 := by
  have hsum : ∀ side d, (step c (s, e) (.prune now retentionDays)).2.sum side d = e.sum side d := by
    intro side d
    simp only [step, Epochs.sum, List.map_append, List.sum_append, sum_map_snd]
    rw [add_assoc, Rows.total_keep]
  refine ⟨fun id => ?_, fun side d => ?_, fun side d => ?_⟩
  · have hrel := h.tracked id
    simp only [step, pruneConnectionMaxima, Rows.lookup_keep]
    cases hrow : s.connectionMaxima.lookup id with
    | none =>
      rw [hrow] at hrel
      cases hepoch : e.tracked.lookup id with
      | none => exact .none
      | some epoch =>
        rw [hepoch] at hrel
        cases hrel
    | some row =>
      rw [hrow] at hrel
      cases hepoch : e.tracked.lookup id with
      | none =>
        rw [hepoch] at hrel
        cases hrel
      | some epoch =>
        rw [hepoch] at hrel
        cases hrel with
        | some hshows =>
          by_cases hstale : stale now retentionDays row = true
          · simp [Option.filter, hstale]
          · simpa [Option.filter, hstale] using hshows
  · rw [hsum]
    exact h.daily side d
  · rw [hsum]
    exact h.domain side d

end Law

section Exact

variable {κ : Type} [DecidableEq κ] {rows : Rows κ Bytes} {key : κ} {delta : Bytes}

theorem lookup_upsert (plus : ℤ → ℤ → ℤ) (j : κ) : (upsert plus rows key delta).lookup j =
    if j = key then
      some ((rows.lookup key).elim delta fun b => ⟨plus b.upload delta.upload, plus b.download delta.download⟩)
    else rows.lookup j := by
  unfold upsert
  cases rows.lookup key with
  | none => exact Rows.lookup_insert rows key j delta
  | some b => exact Rows.lookup_insert rows key j _

/-- A number that is written is at least the number it replaces. -/
theorem le_upsert (hdelta : ∀ d, 0 ≤ delta.of d) {j : κ} {b : Bytes} (h : rows.lookup j = some b) :
    ∃ b', (upsert (· + ·) rows key delta).lookup j = some b' ∧ ∀ d, b.of d ≤ b'.of d := by
  rw [lookup_upsert]
  by_cases hj : j = key
  · subst j
    rw [if_pos rfl, h]
    refine ⟨_, rfl, fun d => ?_⟩
    have hd := hdelta d
    cases d with
    | upload => exact le_add_of_nonneg_right hd
    | download => exact le_add_of_nonneg_right hd
  · rw [if_neg hj]
    exact ⟨b, h, fun d => le_rfl⟩

theorem nonneg_upsert (hrows : ∀ j b, rows.lookup j = some b → ∀ d, 0 ≤ b.of d) (hdelta : ∀ d, 0 ≤ delta.of d) :
    ∀ j b, (upsert (· + ·) rows key delta).lookup j = some b → ∀ d, 0 ≤ b.of d := by
  intro j b hb d
  rw [lookup_upsert] at hb
  split_ifs at hb
  · have hd := hdelta d
    cases hrow : rows.lookup key with
    | none =>
      rw [hrow] at hb
      obtain rfl := Option.some.inj hb
      exact hd
    | some before =>
      rw [hrow] at hb
      obtain rfl := Option.some.inj hb
      have hbefore := hrows key before hrow d
      cases d with
      | upload => exact add_nonneg hbefore hd
      | download => exact add_nonneg hbefore hd
  · exact hrows j b hb d

theorem sqlitePlus_eq {a b : ℤ} (ha : 0 ≤ a) (hb : 0 ≤ b) (h : a + b < 2 ^ 63) : sqlitePlus a b = a + b :=
  if_pos ⟨by omega, h⟩

/-- SQLite's sum is exact if the exact one is a number of 64 bits. -/
theorem upsert_sqlitePlus (hrows : ∀ j b, rows.lookup j = some b → ∀ d, 0 ≤ b.of d) (hdelta : ∀ d, 0 ≤ delta.of d)
    (hfits : ∀ b, (upsert (· + ·) rows key delta).lookup key = some b → ∀ d, b.of d < 2 ^ 63) :
    upsert sqlitePlus rows key delta = upsert (· + ·) rows key delta := by
  rw [lookup_upsert, if_pos rfl] at hfits
  unfold upsert
  cases hrow : rows.lookup key with
  | none => rfl
  | some b =>
    rw [hrow] at hfits
    have hb := hrows key b hrow
    have hnew := hfits _ rfl
    have hupload : sqlitePlus b.upload delta.upload = b.upload + delta.upload :=
      sqlitePlus_eq (hb .upload) (hdelta .upload) (hnew .upload)
    have hdownload : sqlitePlus b.download delta.download = b.download + delta.download :=
      sqlitePlus_eq (hb .download) (hdelta .download) (hnew .download)
    simp only
    rw [hupload, hdownload]

variable {s t u : Store} {day : ℤ} {a : Attribution}

/-- No number of the first store is more than the same number of the second. -/
def Under (s t : Store) : Prop :=
  (∀ key b, s.dailyUsage.lookup key = some b → ∃ b', t.dailyUsage.lookup key = some b' ∧ ∀ d, b.of d ≤ b'.of d) ∧
    ∀ key b, s.domainUsage.lookup key = some b → ∃ b', t.domainUsage.lookup key = some b' ∧ ∀ d, b.of d ≤ b'.of d

theorem Under.refl (s : Store) : Under s s :=
  ⟨fun _ b hb => ⟨b, hb, fun _ => le_rfl⟩, fun _ b hb => ⟨b, hb, fun _ => le_rfl⟩⟩

theorem Under.trans (h : Under s t) (h' : Under t u) : Under s u := by
  constructor
  · intro key b hb
    obtain ⟨b', hb', hle⟩ := h.1 key b hb
    obtain ⟨b'', hb'', hle'⟩ := h'.1 key b' hb'
    exact ⟨b'', hb'', fun d => (hle d).trans (hle' d)⟩
  · intro key b hb
    obtain ⟨b', hb', hle⟩ := h.2 key b hb
    obtain ⟨b'', hb'', hle'⟩ := h'.2 key b' hb'
    exact ⟨b'', hb'', fun d => (hle d).trans (hle' d)⟩

theorem Under.fits (h : Under s t) (hfits : Fits t) : Fits s := by
  constructor
  · intro key b hb d
    obtain ⟨b', hb', hle⟩ := h.1 key b hb
    exact (hle d).trans_lt (hfits.1 key b' hb' d)
  · intro key b hb d
    obtain ⟨b', hb', hle⟩ := h.2 key b hb
    exact (hle d).trans_lt (hfits.2 key b' hb' d)

theorem under_addUsage (hdelta : ∀ d, 0 ≤ a.delta.of d) : Under s (addUsage (· + ·) s day a) := by
  unfold addUsage
  split_ifs
  · exact .refl s
  · exact ⟨fun _ _ hb => le_upsert hdelta hb, fun _ _ hb => le_upsert hdelta hb⟩

theorem nonneg_addUsage (hs : Every (0 ≤ ·) s) (hdelta : ∀ d, 0 ≤ a.delta.of d) :
    Every (0 ≤ ·) (addUsage (· + ·) s day a) := by
  unfold addUsage
  split_ifs
  · exact hs
  · exact ⟨nonneg_upsert hs.1 hdelta, nonneg_upsert hs.2 hdelta⟩

theorem addUsage_sqlitePlus (hs : Every (0 ≤ ·) s) (hdelta : ∀ d, 0 ≤ a.delta.of d)
    (hfits : Fits (addUsage (· + ·) s day a)) : addUsage sqlitePlus s day a = addUsage (· + ·) s day a := by
  unfold addUsage at hfits ⊢
  by_cases hzero : a.delta.upload = 0 ∧ a.delta.download = 0
  · rw [if_pos hzero, if_pos hzero]
  · rw [if_neg hzero] at hfits
    rw [if_neg hzero, if_neg hzero, upsert_sqlitePlus hs.1 hdelta fun b hb => hfits.1 _ b hb,
      upsert_sqlitePlus hs.2 hdelta fun b hb => hfits.2 _ b hb]

variable {c : Collector} {totals totals' : Totals} {observedAt : Timestamp}

theorem delta_nonneg {maxima maxima' : Rows String ConnectionMaximum} {id : String} {item : Members} {seen : Bytes}
    (hseen : counters c item = .ok seen) (h : track c maxima id item seen observedAt = .ok (maxima', a)) (d : Direction) :
    0 ≤ a.delta.of d := by
  obtain ⟨-, ⟨-, hdelta, -⟩ | ⟨existing, -, hdelta, -⟩⟩ := track_ok h
  · rw [hdelta]
    exact counters_nonneg hseen d
  · rw [hdelta, of_growth]
    exact le_max_left 0 _

/-- An item charges the same however the sums are made. -/
theorem ingestItem_of_track {plus : ℤ → ℤ → ℤ} {item : Json} {members : Members} (hmembers : fields item = .ok members)
    (hid : connectionId c members ≠ "") {seen : Bytes} (hseen : counters c members = .ok seen)
    {maxima : Rows String ConnectionMaximum}
    (htrack : track c s.connectionMaxima (connectionId c members) members seen observedAt = .ok (maxima, a)) :
    ingestItem plus c observedAt s totals item =
      .ok (addUsage plus { s with connectionMaxima := maxima } (usageDay observedAt) a, totals.add a.delta) := by
  rw [ingestItem, hmembers]
  refine (if_neg hid).trans ?_
  rw [hseen]
  change (track c s.connectionMaxima (connectionId c members) members seen observedAt >>= _) = _
  rw [htrack]
  rfl

theorem ingestItem_skip {plus : ℤ → ℤ → ℤ} {item : Json} {members : Members} (hmembers : fields item = .ok members)
    (hid : connectionId c members = "") : ingestItem plus c observedAt s totals item = .ok (s, totals) := by
  rw [ingestItem, hmembers]
  exact if_pos hid

/-- What an exact item does to the numbers. -/
theorem exact_item {item : Json} (h : ingestItem (· + ·) c observedAt s totals item = .ok (t, totals'))
    (hs : Every (0 ≤ ·) s) :
    Under s t ∧ Every (0 ≤ ·) t ∧ (Fits t → ingestItem sqlitePlus c observedAt s totals item = .ok (t, totals')) := by
  obtain ⟨members, hmembers, ⟨hid, rfl, rfl⟩ | ⟨seen, maxima, a, hid, hseen, htrack, rfl, rfl⟩⟩ := ingestItem_ok h
  · exact ⟨.refl t, hs, fun _ => ingestItem_skip hmembers hid⟩
  · have hdelta := delta_nonneg hseen htrack
    have hs' : Every (0 ≤ ·) { s with connectionMaxima := maxima } := hs
    refine ⟨?_, nonneg_addUsage hs' hdelta, fun hfits => ?_⟩
    · exact @under_addUsage { s with connectionMaxima := maxima } _ a hdelta
    · rw [ingestItem_of_track hmembers hid hseen htrack, addUsage_sqlitePlus hs' hdelta hfits]

theorem exact_items {items : List Json} (h : ingestItems (· + ·) c observedAt items s totals = .ok (t, totals'))
    (hs : Every (0 ≤ ·) s) :
    Under s t ∧ Every (0 ≤ ·) t ∧ (Fits t → ingestItems sqlitePlus c observedAt items s totals = .ok (t, totals')) := by
  induction items generalizing s totals with
  | nil =>
    obtain ⟨rfl, rfl⟩ := Prod.mk.inj (Except.ok.inj h)
    exact ⟨.refl s, hs, fun _ => rfl⟩
  | cons item items ih =>
    rw [ingestItems] at h
    obtain ⟨⟨u, between⟩, hitem, hrest⟩ := Reading.bind_ok h
    obtain ⟨hunder, hu, hsame⟩ := exact_item hitem hs
    obtain ⟨hunder', ht, hsame'⟩ := ih hrest hu
    refine ⟨hunder.trans hunder', ht, fun hfits => ?_⟩
    rw [ingestItems, hsame (hunder'.fits hfits)]
    exact hsame' hfits

/-- Whether an item raises does not depend on the sums. -/
theorem ingestItems_maxima {plus plus' : ℤ → ℤ → ℤ} {items : List Json} {s' : Store}
    (h : ingestItems plus c observedAt items s totals = .ok (t, totals'))
    (hmaxima : s'.connectionMaxima = s.connectionMaxima) :
    ∃ t', ingestItems plus' c observedAt items s' totals = .ok (t', totals') := by
  induction items generalizing s s' totals with
  | nil =>
    obtain ⟨rfl, rfl⟩ := Prod.mk.inj (Except.ok.inj h)
    exact ⟨s', rfl⟩
  | cons item items ih =>
    rw [ingestItems] at h
    obtain ⟨⟨u, between⟩, hitem, hrest⟩ := Reading.bind_ok h
    rw [ingestItems]
    obtain ⟨members, hmembers, ⟨hid, rfl, rfl⟩ | ⟨seen, maxima, a, hid, hseen, htrack, rfl, rfl⟩⟩ := ingestItem_ok hitem
    · rw [ingestItem_skip hmembers hid]
      exact ih hrest hmaxima
    · rw [← hmaxima] at htrack
      rw [ingestItem_of_track hmembers hid hseen htrack]
      exact ih hrest (by simp)

end Exact

section Again

variable {c : Collector} {s t : Store} {totals totals' : Totals} {observedAt : Timestamp} {plus : ℤ → ℤ → ℤ}

/-- The rows hold at least what the item shows. -/
def Covered (c : Collector) (maxima : Rows String ConnectionMaximum) (item : Json) : Prop :=
  ∃ members, fields item = .ok members ∧
    (connectionId c members = "" ∨
      ∃ seen row, counters c members = .ok seen ∧ bindable seen = .ok () ∧
        maxima.lookup (connectionId c members) = some row ∧ ∀ d, seen.of d ≤ row.max.of d)

/-- No row is gone, and no maximum is less. -/
def Grown (maxima maxima' : Rows String ConnectionMaximum) : Prop :=
  ∀ id row, maxima.lookup id = some row → ∃ row', maxima'.lookup id = some row' ∧ ∀ d, row.max.of d ≤ row'.max.of d

theorem Grown.refl (maxima : Rows String ConnectionMaximum) : Grown maxima maxima :=
  fun _ row hrow => ⟨row, hrow, fun _ => le_rfl⟩

theorem Grown.trans {maxima maxima' maxima'' : Rows String ConnectionMaximum} (h : Grown maxima maxima')
    (h' : Grown maxima' maxima'') : Grown maxima maxima'' := by
  intro id row hrow
  obtain ⟨row', hrow', hle⟩ := h id row hrow
  obtain ⟨row'', hrow'', hle'⟩ := h' id row' hrow'
  exact ⟨row'', hrow'', fun d => (hle d).trans (hle' d)⟩

theorem Covered.grown {maxima maxima' : Rows String ConnectionMaximum} {item : Json} (h : Covered c maxima item)
    (hgrown : Grown maxima maxima') : Covered c maxima' item := by
  obtain ⟨members, hmembers, hid | ⟨seen, row, hseen, hbind, hrow, hle⟩⟩ := h
  · exact ⟨members, hmembers, .inl hid⟩
  · obtain ⟨row', hrow', hle'⟩ := hgrown _ row hrow
    exact ⟨members, hmembers, .inr ⟨seen, row', hseen, hbind, hrow', fun d => (hle d).trans (hle' d)⟩⟩

/-- A tracked connection's row holds what was seen, and the other rows stay. -/
theorem grown_track {maxima maxima' : Rows String ConnectionMaximum} {id : String} {item : Members} {seen : Bytes}
    {a : Attribution} (h : track c maxima id item seen observedAt = .ok (maxima', a)) :
    Grown maxima maxima' ∧ bindable seen = .ok () ∧
      ∃ row, maxima'.lookup id = some row ∧ ∀ d, seen.of d ≤ row.max.of d := by
  obtain ⟨hbind, ⟨hnone, -, -, rfl⟩ | ⟨existing, hsome, -, -, rfl⟩⟩ := track_ok h
  · refine ⟨fun j row hrow => ?_, hbind, _, by rw [Rows.lookup_insert, if_pos rfl], fun d => le_rfl⟩
    have hj : j ≠ id := by
      rintro rfl
      rw [hnone] at hrow
      cases hrow
    exact ⟨row, by rw [Rows.lookup_insert, if_neg hj]; exact hrow, fun d => le_rfl⟩
  · refine ⟨fun j row hrow => ?_, hbind, _, by rw [Rows.lookup_insert, if_pos rfl], fun d => ?_⟩
    · rw [Rows.lookup_insert]
      by_cases hj : j = id
      · rw [hj, hsome] at hrow
        obtain rfl := Option.some.inj hrow
        rw [if_pos hj]
        exact ⟨_, rfl, fun d => by rw [of_seenAgain]; exact le_max_left _ _⟩
      · rw [if_neg hj]
        exact ⟨row, hrow, fun d => le_rfl⟩
    · rw [of_seenAgain]
      exact le_max_right _ _

theorem covered_item {item : Json} (h : ingestItem plus c observedAt s totals item = .ok (t, totals')) :
    Grown s.connectionMaxima t.connectionMaxima ∧ Covered c t.connectionMaxima item := by
  obtain ⟨members, hmembers, ⟨hid, rfl, -⟩ | ⟨seen, maxima, a, -, hseen, htrack, rfl, -⟩⟩ := ingestItem_ok h
  · exact ⟨.refl _, members, hmembers, .inl hid⟩
  · obtain ⟨hgrown, hbind, row, hrow, hle⟩ := grown_track htrack
    rw [connectionMaxima_addUsage]
    exact ⟨hgrown, members, hmembers, .inr ⟨seen, row, hseen, hbind, hrow, hle⟩⟩

/-- After a batch, the rows hold what its items show. -/
theorem covered_items {items : List Json} (h : ingestItems plus c observedAt items s totals = .ok (t, totals')) :
    Grown s.connectionMaxima t.connectionMaxima ∧ ∀ item ∈ items, Covered c t.connectionMaxima item := by
  induction items generalizing s totals with
  | nil =>
    obtain ⟨rfl, -⟩ := Prod.mk.inj (Except.ok.inj h)
    exact ⟨.refl _, by simp⟩
  | cons item items ih =>
    rw [ingestItems] at h
    obtain ⟨⟨u, between⟩, hitem, hrest⟩ := Reading.bind_ok h
    obtain ⟨hgrown, hcovered⟩ := covered_item hitem
    obtain ⟨hgrown', hcovered'⟩ := ih hrest
    refine ⟨hgrown.trans hgrown', fun i hi => ?_⟩
    obtain rfl | hi := List.mem_cons.mp hi
    · exact hcovered.grown hgrown'
    · exact hcovered' i hi

/-- Both tables and the totals are as they were. -/
structure NothingAdded (s t : Store) (totals totals' : Totals) : Prop where
  daily : t.dailyUsage = s.dailyUsage
  domain : t.domainUsage = s.domainUsage
  upload : totals'.uploadDelta = totals.uploadDelta
  download : totals'.downloadDelta = totals.downloadDelta

theorem growth_eq_zero {before seen : Bytes} (h : ∀ d, seen.of d ≤ before.of d) : growth before seen = ⟨0, 0⟩ := by
  have hupload : seen.upload - before.upload ≤ 0 := sub_nonpos.mpr (h .upload)
  have hdownload : seen.download - before.download ≤ 0 := sub_nonpos.mpr (h .download)
  rw [growth, max_eq_left hupload, max_eq_left hdownload]

/-- An item whose row holds what it shows adds nothing. -/
theorem again_item {item : Json} (h : Covered c s.connectionMaxima item) :
    ∃ t totals', ingestItem plus c observedAt s totals item = .ok (t, totals') ∧
      Grown s.connectionMaxima t.connectionMaxima ∧ NothingAdded s t totals totals' := by
  obtain ⟨members, hmembers, hid | ⟨seen, row, hseen, hbind, hrow, hle⟩⟩ := h
  · exact ⟨s, totals, ingestItem_skip hmembers hid, .refl _, rfl, rfl, rfl, rfl⟩
  · by_cases hid : connectionId c members = ""
    · exact ⟨s, totals, ingestItem_skip hmembers hid, .refl _, rfl, rfl, rfl, rfl⟩
    · have htrack : track c s.connectionMaxima (connectionId c members) members seen observedAt =
          .ok (s.connectionMaxima.insert (connectionId c members) (row.seenAgain seen observedAt),
            ⟨row.side, row.host, ⟨0, 0⟩⟩) := by
        rw [track, hrow]
        simp only
        rw [hbind, growth_eq_zero hle]
        rfl
      refine ⟨_, _, ingestItem_of_track hmembers hid hseen htrack, ?_, ?_⟩
      · rw [connectionMaxima_addUsage]
        exact (grown_track htrack).1
      · have hnone : ∀ u : Store, addUsage plus u (usageDay observedAt) ⟨row.side, row.host, ⟨0, 0⟩⟩ = u :=
          fun u => if_pos ⟨rfl, rfl⟩
        rw [hnone]
        exact ⟨rfl, rfl, add_zero _, add_zero _⟩

theorem again_items {items : List Json} (h : ∀ item ∈ items, Covered c s.connectionMaxima item) :
    ∃ t totals', ingestItems plus c observedAt items s totals = .ok (t, totals') ∧ NothingAdded s t totals totals' := by
  induction items generalizing s totals with
  | nil => exact ⟨s, totals, rfl, rfl, rfl, rfl, rfl⟩
  | cons item items ih =>
    obtain ⟨u, between, hitem, hgrown, hnothing⟩ := @again_item c s totals observedAt plus item (h item List.mem_cons_self)
    obtain ⟨t, totals', hrest, hnothing'⟩ := @ih u between
      fun i hi => (h i (List.mem_cons_of_mem _ hi)).grown hgrown
    refine ⟨t, totals', ?_, hnothing'.daily.trans hnothing.daily, hnothing'.domain.trans hnothing.domain,
      hnothing'.upload.trans hnothing.upload, hnothing'.download.trans hnothing.download⟩
    rw [ingestItems, hitem]
    exact hrest

end Again

section Main

variable {c : Collector} {s : Store} {e : Epochs}

/-- Every step of the run fits. -/
def Fitting (c : Collector) (steps : List Step) : Prop :=
  ∀ past st later, steps = past ++ st :: later → StepFits c (run c past).1 st

def Step.isPrune : Step → Bool
  | .prune _ _ => true
  | _ => false

theorem run_concat (steps : List Step) (st : Step) : run c (steps ++ [st]) = step c (run c steps) st := by
  rw [run, List.foldl_append]
  rfl

/-- A batch is ingested with exact sums if it fits. -/
theorem law_batch (h : Law s e) (hs : Every (0 ≤ ·) s) {connections : List Json} {observedAt : Timestamp}
    (hfits : StepFits c s (.batch connections observedAt)) :
    Law (step c (s, e) (.batch connections observedAt)).1 (step c (s, e) (.batch connections observedAt)).2 ∧
      Every (0 ≤ ·) (step c (s, e) (.batch connections observedAt)).1 := by
  cases hcode : ingestItems sqlitePlus c observedAt connections s ⟨0, 0, 0⟩ with
  | error exc =>
    have hstep : step c (s, e) (.batch connections observedAt) = (s, e) := by
      simp [step, ingestConnections, ingestWith, hcode]
    rw [hstep]
    exact ⟨h, hs⟩
  | ok r =>
    obtain ⟨t, totals⟩ := r
    obtain ⟨u, hexact⟩ := @ingestItems_maxima _ _ _ _ _ _ _ (· + ·) _ s hcode rfl
    have hfit : Fits u := by
      simp only [StepFits, ingestWith, hexact] at hfits
      exact hfits
    obtain ⟨-, hu, hsame⟩ := exact_items hexact hs
    have heq := hsame hfit
    rw [hcode] at heq
    obtain ⟨rfl, -⟩ := Prod.mk.inj (Except.ok.inj heq)
    have hlaw := h.items hexact
    have hstep : step c (s, e) (.batch connections observedAt) =
        ({ t with collectorState := ⟨some observedAt, none, 0⟩ }, connections.foldl (Epochs.observe c) e) := by
      simp [step, ingestConnections, ingestWith, hcode]
    rw [hstep]
    exact ⟨⟨hlaw.tracked, hlaw.daily, hlaw.domain⟩, hu⟩

theorem law_of_run {steps : List Step} (h : Fitting c steps) :
    Law (run c steps).1 (run c steps).2 ∧ Every (0 ≤ ·) (run c steps).1 := by
  induction steps using List.reverseRecOn with
  | nil =>
    refine ⟨⟨fun id => .none, fun side d => ?_, fun side d => ?_⟩, ?_, ?_⟩
    · rfl
    · rfl
    · intro key b hb
      cases hb
    · intro key b hb
      cases hb
  | append_singleton steps st ih =>
    have hpast : Fitting c steps := by
      intro past st' later hsteps
      exact h past st' (later ++ [st]) (by rw [hsteps]; simp)
    obtain ⟨hlaw, hnonneg⟩ := ih hpast
    rw [run_concat]
    cases st with
    | batch connections observedAt => exact law_batch hlaw hnonneg (h steps _ [] rfl)
    | prune now retentionDays => exact ⟨hlaw.prune now retentionDays, hnonneg⟩
    | error errorType => exact ⟨⟨hlaw.tracked, hlaw.daily, hlaw.domain⟩, hnonneg⟩

/-- Batches and errors keep what the rows hold. -/
theorem grown_step {st : Step} (h : st.isPrune = false) :
    Grown s.connectionMaxima (step c (s, e) st).1.connectionMaxima := by
  cases st with
  | batch connections observedAt =>
    cases hcode : ingestItems sqlitePlus c observedAt connections s ⟨0, 0, 0⟩ with
    | error exc =>
      simp only [step, ingestConnections, ingestWith, hcode]
      exact .refl _
    | ok r =>
      simp only [step, ingestConnections, ingestWith, hcode]
      exact (covered_items hcode).1
  | prune now retentionDays => cases h
  | error errorType => exact .refl _

theorem grown_steps {w : Store × Epochs} {steps : List Step} (h : ∀ st ∈ steps, st.isPrune = false) :
    Grown w.1.connectionMaxima (steps.foldl (step c) w).1.connectionMaxima := by
  induction steps generalizing w with
  | nil => exact .refl _
  | cons st steps ih =>
    exact (grown_step (h st List.mem_cons_self)).trans (ih fun i hi => h i (List.mem_cons_of_mem _ hi))

end Main

/-- As long as exact sums fit, both tables hold the largest counters of all epochs. A batch that has been ingested
adds nothing again before the next pruning, and one that fails changes nothing. -/
theorem attribution_conserved {c : Collector} {steps : List Step} (h : Fitting c steps) :
    (∀ side d, dailyTotal (run c steps).1 side d = (run c steps).2.sum side d ∧
      domainTotal (run c steps).1 side d = (run c steps).2.sum side d) ∧
    (∀ past connections observedAt later totals again,
      steps = past ++ .batch connections observedAt :: later → (∀ st ∈ later, st.isPrune = false) →
      (ingestConnections c connections observedAt (run c past).1).1 = .ok totals →
      ∃ t totals', ingestConnections c connections again (run c steps).1 = (.ok totals', t) ∧
        NothingAdded (run c steps).1 t ⟨0, 0, 0⟩ totals') ∧
    ∀ connections observedAt exc, (ingestConnections c connections observedAt (run c steps).1).1 = .error exc →
      (ingestConnections c connections observedAt (run c steps).1).2 = (run c steps).1 := by
  obtain ⟨hlaw, -⟩ := law_of_run h
  refine ⟨fun side d => ⟨hlaw.daily side d, hlaw.domain side d⟩, ?_, ?_⟩
  · intro past connections observedAt later totals again hsteps hlater hok
    have hcovered : ∀ item ∈ connections, Covered c (run c steps).1.connectionMaxima item := by
      cases hcode : ingestItems sqlitePlus c observedAt connections (run c past).1 ⟨0, 0, 0⟩ with
      | error exc =>
        simp only [ingestConnections, ingestWith, hcode] at hok
        cases hok
      | ok r =>
        intro item hitem
        have hrun : run c steps = later.foldl (step c) (step c (run c past) (.batch connections observedAt)) := by
          rw [hsteps, run, List.foldl_append]
          rfl
        have hbatch := (covered_items hcode).2 item hitem
        have hgrown := @grown_steps c (step c (run c past) (.batch connections observedAt)) later hlater
        rw [hrun]
        refine Covered.grown ?_ hgrown
        simp only [step, ingestConnections, ingestWith, hcode]
        exact hbatch
    obtain ⟨t, totals', hagain, hnothing⟩ := @again_items c (run c steps).1 ⟨0, 0, 0⟩ again sqlitePlus connections hcovered
    refine ⟨{ t with collectorState := ⟨some again, none, 0⟩ }, totals', ?_, hnothing.daily, hnothing.domain,
      hnothing.upload, hnothing.download⟩
    simp only [ingestConnections, ingestWith, hagain]
  · intro connections observedAt exc hfailed
    cases hcode : ingestItems sqlitePlus c observedAt connections (run c steps).1 ⟨0, 0, 0⟩ with
    | error exc' => simp only [ingestConnections, ingestWith, hcode]
    | ok r =>
      simp only [ingestConnections, ingestWith, hcode] at hfailed
      cases hfailed

/-- A collector of integers. -/
def sampleCollector : Collector where
  toInt := fun value => match value with
    | .int n => .ok n
    | _ => .error ⟨.valueError, "invalid literal for int() with base 10"⟩
  lower := Text.lowerWord
  quote := fun text => text
  residentialChain := "EGRESS_US_01"

def sampleItem (id : String) (upload : ℤ) : Json :=
  .obj [("id", .str id), ("upload", .int upload), ("chains", .arr [.str "EGRESS_US_01"])]

theorem attribution_conserved_sample :
    dailyTotal (run sampleCollector [.batch [sampleItem "a" 5, sampleItem "b" 7] 0]).1 .residential .upload =
      (run sampleCollector [.batch [sampleItem "a" 5, sampleItem "b" 7] 0]).2.sum .residential .upload := by
  have hrows : (ingestWith (· + ·) sampleCollector [sampleItem "a" 5, sampleItem "b" 7] 0 freshStore).2.dailyUsage.entries =
        [⟨(0, .residential), ⟨12, 0⟩⟩] ∧
      (ingestWith (· + ·) sampleCollector [sampleItem "a" 5, sampleItem "b" 7] 0 freshStore).2.domainUsage.entries =
        [⟨(0, "unknown", .residential), ⟨12, 0⟩⟩] := by decide +kernel
  have hfitting : Fitting sampleCollector [.batch [sampleItem "a" 5, sampleItem "b" 7] 0] := by
    intro past st later hsteps
    cases past with
    | nil =>
      obtain ⟨rfl, -⟩ := List.cons.inj hsteps
      constructor
      · intro key b hb d
        have hmem := Rows.mem_entries.mpr hb
        simp only [run, List.foldl_nil, hrows.1, List.mem_singleton] at hmem
        cases hmem
        cases d <;> decide
      · intro key b hb d
        have hmem := Rows.mem_entries.mpr hb
        simp only [run, List.foldl_nil, hrows.2, List.mem_singleton] at hmem
        cases hmem
        cases d <;> decide
    | cons st' past =>
      have hlength := congrArg List.length hsteps
      simp at hlength
  exact ((attribution_conserved hfitting).1 .residential .upload).1

/-- Two counters of the largest number come to a sum that is rounded. -/
theorem attribution_rounded : ¬∀ (c : Collector) (steps : List Step) (side : Side) (d : Direction),
    dailyTotal (run c steps).1 side d = (run c steps).2.sum side d := by
  intro h
  have hrounded : dailyTotal (run sampleCollector [.batch [sampleItem "a" (2 ^ 63 - 1), sampleItem "b" (2 ^ 63 - 1)] 0]).1
      .residential .upload = 2 ^ 64 := by decide +kernel
  have hexact : (run sampleCollector [.batch [sampleItem "a" (2 ^ 63 - 1), sampleItem "b" (2 ^ 63 - 1)] 0]).2.sum
      .residential .upload = 2 ^ 64 - 2 := by decide +kernel
  have heq := h sampleCollector [.batch [sampleItem "a" (2 ^ 63 - 1), sampleItem "b" (2 ^ 63 - 1)] 0] .residential .upload
  rw [hrounded, hexact] at heq
  norm_num at heq

end Lingsway.Ops.MihomoUsage
