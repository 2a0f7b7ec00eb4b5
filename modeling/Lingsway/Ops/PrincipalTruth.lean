import Lingsway.Ops.GatewayPrincipals
import Lingsway.Library.Renaming

/-!
# What a reconciliation reports

The commit is the only call that changes a committed row. Behind it the run knows
that it has committed, unless the commit raises.
-/
namespace Lingsway.Ops.Principals

open Library Program

/-- Every active route has the principal that was looked up for it. -/
def AtTargets (find : String → Except Exn (Option String)) (w : World) : Prop :=
  ∃ seen after, w.landed = some (seen, after) ∧ ∀ id row, after.bindings.get id = some row → row.active = true →
    ∃ user, seen.accountingUserIds row.subscriptionId = some (some user) ∧ find user = .ok (some row.gatewayPrincipal)

/-- What a result says of the rows is true. -/
structure Reported (find : String → Except Exn (Option String)) (result : ReconciliationResult) (w : World) : Prop where
  untouched : result.status = .aborted ∨ result.mode = .dryRun → w.changed = []
  reconciled : result.mode = .confirmed → result.status = .success ∨ result.status = .committedWithWarning →
    AtTargets find w ∧ w.changed.length = result.updatedCount

/-- The rows to update, with their targets. -/
def changes (targets : List (ℕ × String)) (snapshots : List BindingSnapshot) : List (ℕ × String) :=
  (snapshots.filter fun row => targetOf targets row.id ≠ row.gatewayPrincipal).map fun row =>
    (row.id, targetOf targets row.id)

/-- The updates, in this order, meet no unique conflict. -/
def NoConflict (collate : String → String) (bindings : Table GatewayRouteBinding) : List (ℕ × String) → Prop
  | [] => True
  | u :: rest => conflicts collate bindings u.1 u.2 = false ∧
      NoConflict collate (bindings.modify u.1 (setPrincipal u.2)) rest

/-- The unique key tells every new principal apart from the old and the new ones of the other rows. -/
def TellsApart (collate : String → String) (snapshots : List BindingSnapshot) (targets : List (ℕ × String)) : Prop :=
  ∀ row ∈ snapshots, targetOf targets row.id ≠ row.gatewayPrincipal → ∀ other ∈ snapshots, other.id ≠ row.id →
    ∀ p, p = other.gatewayPrincipal ∨ p = targetOf targets other.id →
      collate (targetOf targets row.id) = collate p → targetOf targets row.id = p

section Renamed

variable {bindings : Table GatewayRouteBinding} {pending : List (ℕ × String)} {id : ℕ} {target : String}

theorem renamed_append (u : ℕ × String) :
    renamed (pending ++ [u]) bindings = (renamed pending bindings).modify u.1 (setPrincipal u.2) := by
  simp [renamed]

theorem get_renamed_of_not_mem (h : id ∉ pending.map Prod.fst) : (renamed pending bindings).get id = bindings.get id := by
  induction pending generalizing bindings with
  | nil => rfl
  | cons u rest ih =>
    rw [List.map_cons, List.mem_cons, not_or] at h
    have hrest := @ih (bindings.modify u.1 (setPrincipal u.2)) h.2
    rw [Table.get_modify, if_neg h.1] at hrest
    exact hrest

theorem get_renamed_of_mem (hnodup : (pending.map Prod.fst).Nodup) (h : (id, target) ∈ pending) :
    (renamed pending bindings).get id = (bindings.get id).map (setPrincipal target) := by
  induction pending generalizing bindings with
  | nil => cases h
  | cons u rest ih =>
    rw [List.map_cons, List.nodup_cons] at hnodup
    obtain heq | h := List.mem_cons.mp h
    · have hfirst := @get_renamed_of_not_mem (bindings.modify u.1 (setPrincipal u.2)) rest u.1 hnodup.1
      rw [Table.get_modify, if_pos rfl] at hfirst
      rw [← heq] at hfirst
      exact heq ▸ hfirst
    · have hne : id ≠ u.1 := fun heq => hnodup.1 (List.mem_map.mpr ⟨(id, target), h, heq⟩)
      have hrest := @ih (bindings.modify u.1 (setPrincipal u.2)) hnodup.2 h
      rw [Table.get_modify, if_neg hne] at hrest
      exact hrest

theorem mem_changedRows {before after : Table GatewayRouteBinding} :
    id ∈ changedRows before after ↔ (∃ row, before.get id = some row) ∧ after.get id ≠ before.get id := by
  simp only [changedRows, List.mem_map, List.mem_filter, Table.mem_entities, decide_not, Bool.not_eq_true',
    decide_eq_false_iff_not]
  constructor
  · rintro ⟨e, ⟨he, hafter⟩, rfl⟩
    exact ⟨⟨e.row, he⟩, he ▸ hafter⟩
  · rintro ⟨⟨row, hrow⟩, hafter⟩
    exact ⟨⟨id, row⟩, ⟨hrow, hrow ▸ hafter⟩, rfl⟩

end Renamed

section Snapshot

variable {store : Store} {snapshots : List BindingSnapshot} {row : Joined} {snapshot : BindingSnapshot}

/-- What a row is read as. -/
structure ReadAs (row : Joined) (snapshot : BindingSnapshot) : Prop where
  id : snapshot.id = row.binding.id
  principal : snapshot.gatewayPrincipal = row.binding.row.gatewayPrincipal
  user : row.subscription = some (some snapshot.accountingUserId)

theorem snapshotOf_ok (h : snapshotOf row = .ok snapshot) : ReadAs row snapshot := by
  unfold snapshotOf at h
  dsimp only at h
  cases hsubscription : row.subscription with
  | none =>
    rw [hsubscription] at h
    cases h
  | some accountingUserId =>
    rw [hsubscription] at h
    dsimp only at h
    cases hfilter : accountingUserId.filter fun id => Text.strip id ≠ "" with
    | none =>
      rw [hfilter] at h
      cases h
    | some id =>
      rw [hfilter] at h
      dsimp only at h
      have huser := (Option.filter_eq_some_iff.mp hfilter).1
      split_ifs at h
      cases h
      exact ⟨rfl, rfl, by rw [hsubscription, huser]⟩

theorem mem_activeBindings {bindings : Table GatewayRouteBinding} {e : Entity GatewayRouteBinding} :
    e ∈ activeBindings bindings ↔ bindings.get e.id = some e.row ∧ e.row.active = true := by
  rw [activeBindings, List.mem_filter, Table.mem_entities]

theorem nodup_ids (bindings : Table GatewayRouteBinding) (p : Entity GatewayRouteBinding → Bool) :
    ((bindings.entities.filter p).map Entity.id).Nodup := by
  have hsorted : ((bindings.entities.filter p).map Entity.id).Pairwise (· < ·) :=
    List.pairwise_map.mpr (bindings.sorted_entities.filter p)
  exact hsorted.imp fun hlt => hlt.ne

/-- Every snapshot is of an active row. -/
theorem row_of_snapshot (h : (joinedRows store).mapM snapshotOf = .ok snapshots) (hmem : snapshot ∈ snapshots) :
    ∃ r, store.bindings.get snapshot.id = some r ∧ r.active = true ∧ r.gatewayPrincipal = snapshot.gatewayPrincipal := by
  obtain ⟨row, hrow, hread⟩ := Reading.exists_of_mem h hmem
  obtain ⟨e, he, rfl⟩ := List.mem_map.mp hrow
  obtain ⟨hget, hactive⟩ := mem_activeBindings.mp he
  have hreads := snapshotOf_ok hread
  exact ⟨e.row, by rw [hreads.id, hget], hactive, hreads.principal.symm⟩

/-- Every active row has its snapshot. -/
theorem snapshot_of_row (h : (joinedRows store).mapM snapshotOf = .ok snapshots) {id : ℕ} {r : GatewayRouteBinding}
    (hget : store.bindings.get id = some r) (hactive : r.active = true) :
    ∃ snapshot ∈ snapshots, snapshot.id = id ∧ snapshot.gatewayPrincipal = r.gatewayPrincipal ∧
      store.accountingUserIds r.subscriptionId = some (some snapshot.accountingUserId) := by
  have hmem : (⟨id, r⟩ : Entity GatewayRouteBinding) ∈ activeBindings store.bindings :=
    mem_activeBindings.mpr ⟨hget, hactive⟩
  obtain ⟨snapshot, hsnapshot, hread⟩ := Reading.exists_of_element h (List.mem_map_of_mem hmem)
  have hreads := snapshotOf_ok hread
  exact ⟨snapshot, hsnapshot, hreads.id, hreads.principal, hreads.user⟩

theorem ids_of_snapshots (h : (joinedRows store).mapM snapshotOf = .ok snapshots) :
    (snapshots.map BindingSnapshot.id).Nodup := by
  have hread : List.Forall₂ (fun (row : Joined) (snapshot : BindingSnapshot) => row.binding.id = snapshot.id)
      (joinedRows store) snapshots := (Reading.mapM_ok_iff.mp h).imp fun row snapshot hread => (snapshotOf_ok hread).id.symm
  have hids : (joinedRows store).map (fun row => row.binding.id) = snapshots.map BindingSnapshot.id := by
    rw [← List.forall₂_eq_eq_eq, List.forall₂_map_left_iff, List.forall₂_map_right_iff]
    exact hread
  rw [← hids, joinedRows, List.map_map]
  exact nodup_ids store.bindings _

end Snapshot

section Committed

variable {store : Store} {snapshots : List BindingSnapshot} {targets : List (ℕ × String)}
  {find : String → Except Exn (Option String)}

/-- Every row has the target that was looked up for it. -/
def Found (find : String → Except Exn (Option String)) (snapshots : List BindingSnapshot)
    (targets : List (ℕ × String)) : Prop :=
  ∀ row ∈ snapshots, find row.accountingUserId = .ok (some (targetOf targets row.id))

theorem mem_changes {u : ℕ × String} : u ∈ changes targets snapshots ↔ ∃ row ∈ snapshots,
    targetOf targets row.id ≠ row.gatewayPrincipal ∧ u = (row.id, targetOf targets row.id) := by
  simp only [changes, List.mem_map, List.mem_filter, decide_not, Bool.not_eq_true', decide_eq_false_iff_not]
  constructor
  · rintro ⟨row, ⟨hmem, hne⟩, rfl⟩
    exact ⟨row, hmem, hne, rfl⟩
  · rintro ⟨row, hmem, hne, rfl⟩
    exact ⟨row, ⟨hmem, hne⟩, rfl⟩

theorem nodup_changes (h : (snapshots.map BindingSnapshot.id).Nodup) :
    ((changes targets snapshots).map Prod.fst).Nodup := by
  rw [changes, List.map_map]
  exact (List.filter_sublist.map BindingSnapshot.id).nodup h

/-- After the updates, a row of a snapshot has its target. -/
theorem get_reconciled (hids : (snapshots.map BindingSnapshot.id).Nodup) {row : BindingSnapshot} (hrow : row ∈ snapshots)
    {r : GatewayRouteBinding} (hget : store.bindings.get row.id = some r)
    (hprincipal : r.gatewayPrincipal = row.gatewayPrincipal) :
    (renamed (changes targets snapshots) store.bindings).get row.id = some (setPrincipal (targetOf targets row.id) r) := by
  by_cases hsame : targetOf targets row.id = row.gatewayPrincipal
  · have hnot : row.id ∉ (changes targets snapshots).map Prod.fst := by
      intro hmem
      obtain ⟨u, hu, hid⟩ := List.mem_map.mp hmem
      obtain ⟨other, hother, hne, rfl⟩ := mem_changes.mp hu
      rw [List.inj_on_of_nodup_map hids hother hrow hid] at hne
      exact hne hsame
    rw [get_renamed_of_not_mem hnot, hget, hsame, ← hprincipal]
    rfl
  · rw [get_renamed_of_mem (nodup_changes hids) (mem_changes.mpr ⟨row, hrow, hsame, rfl⟩), hget]
    rfl

theorem reconciled (hread : (joinedRows store).mapM snapshotOf = .ok snapshots) (hfound : Found find snapshots targets)
    {id : ℕ} {row : GatewayRouteBinding}
    (hget : (renamed (changes targets snapshots) store.bindings).get id = some row) (hactive : row.active = true) :
    ∃ user, store.accountingUserIds row.subscriptionId = some (some user) ∧
      find user = .ok (some row.gatewayPrincipal) := by
  have hids := ids_of_snapshots hread
  by_cases hmem : id ∈ (changes targets snapshots).map Prod.fst
  · obtain ⟨u, hu, rfl⟩ := List.mem_map.mp hmem
    obtain ⟨snapshot, hsnapshot, -, rfl⟩ := mem_changes.mp hu
    obtain ⟨r, hr, hractive, hprincipal⟩ := row_of_snapshot hread hsnapshot
    obtain ⟨other, hother, hid, -, huser⟩ := snapshot_of_row hread hr hractive
    rw [List.inj_on_of_nodup_map hids hother hsnapshot hid] at huser
    rw [get_reconciled hids hsnapshot hr hprincipal] at hget
    cases hget
    exact ⟨_, huser, hfound snapshot hsnapshot⟩
  · have hold := hget
    rw [get_renamed_of_not_mem hmem] at hold
    obtain ⟨snapshot, hsnapshot, rfl, hprincipal, huser⟩ := snapshot_of_row hread hold hactive
    rw [get_reconciled hids hsnapshot hold hprincipal.symm] at hget
    have hrow : setPrincipal (targetOf targets snapshot.id) row = row := Option.some.inj hget
    refine ⟨_, huser, ?_⟩
    rw [← hrow]
    exact hfound snapshot hsnapshot

theorem nodup_changedRows (before after : Table GatewayRouteBinding) : (changedRows before after).Nodup :=
  nodup_ids before _

/-- As many rows change as are updated. -/
theorem length_changedRows (hread : (joinedRows store).mapM snapshotOf = .ok snapshots) :
    (changedRows store.bindings (renamed (changes targets snapshots) store.bindings)).length =
      (changes targets snapshots).length := by
  have hids := ids_of_snapshots hread
  have hperm : (changedRows store.bindings (renamed (changes targets snapshots) store.bindings)).Perm
      ((changes targets snapshots).map Prod.fst) := by
    refine (List.perm_ext_iff_of_nodup (nodup_changedRows _ _) (nodup_changes hids)).mpr fun id => ?_
    rw [mem_changedRows]
    constructor
    · rintro ⟨-, hchanged⟩
      by_contra hmem
      exact hchanged (get_renamed_of_not_mem hmem)
    · intro hmem
      obtain ⟨u, hu, rfl⟩ := List.mem_map.mp hmem
      obtain ⟨snapshot, hsnapshot, hne, rfl⟩ := mem_changes.mp hu
      obtain ⟨r, hr, -, hprincipal⟩ := row_of_snapshot hread hsnapshot
      refine ⟨⟨r, hr⟩, ?_⟩
      rw [get_reconciled hids hsnapshot hr hprincipal, hr]
      intro hsame
      have hrow : setPrincipal (targetOf targets snapshot.id) r = r := Option.some.inj hsame
      have htarget := congrArg GatewayRouteBinding.gatewayPrincipal hrow
      exact hne (htarget.trans hprincipal)
  rw [hperm.length_eq, List.length_map]

end Committed

section Calls

variable {collate : String → String} {find : String → Except Exn (Option String)} {w : World}

theorem wp_step (c : Step) {Q : Except Exn c.Answer → World → Prop} :
    (perform (S := steps) c : Run c.Answer).wp (database collate find).handler Q w ↔
      ∀ fate : Fate, Q (World.act collate find c fate w).1 (World.act collate find c fate w).2 := by
  refine (Machine.wp_call_handler (database collate find) c _ Q w).trans ?_
  exact forall_congr' fun fate => iff_of_eq (wp_ofExcept _ _ _ _)

/-- Nothing is committed, and the run does not think so. -/
structure Fresh (w : World) : Prop where
  changed : w.changed = []
  lost : w.lost = false
  completed : w.locals.commitCompleted = false

/-- Nothing is committed, and the session has no transaction. -/
structure Idle (w : World) : Prop extends Fresh w where
  pending : w.pending = []
  seen : w.seen = none
  updated : w.locals.updated = 0

/-- Whether the run knows that it has committed. -/
structure Truth (find : String → Except Exn (Option String)) (w : World) : Prop where
  untold : w.locals.commitCompleted = false → (w.changed = [] ↔ w.lost = false)
  told : w.locals.commitCompleted = true → w.lost = false ∧ AtTargets find w ∧ w.changed.length = w.locals.updated

theorem Fresh.truth (h : Fresh w) : Truth find w where
  untold _ := ⟨fun _ => h.lost, fun _ => h.changed⟩
  told hcompleted := by
    rw [h.completed] at hcompleted
    cases hcompleted

/-- The parts of the world that no call but the commit and the assignments changes. -/
structure SameRecord (w w' : World) : Prop where
  changed : w'.changed = w.changed
  landed : w'.landed = w.landed
  lost : w'.lost = w.lost
  locals : w'.locals = w.locals

theorem SameRecord.refl (w : World) : SameRecord w w := ⟨rfl, rfl, rfl, rfl⟩

theorem SameRecord.trans {w w' w'' : World} (h : SameRecord w w') (h' : SameRecord w' w'') : SameRecord w w'' :=
  ⟨h'.changed.trans h.changed, h'.landed.trans h.landed, h'.lost.trans h.lost, h'.locals.trans h.locals⟩

theorem Fresh.same {w' : World} (h : Fresh w) (hsame : SameRecord w w') : Fresh w' :=
  ⟨hsame.changed.trans h.changed, hsame.lost.trans h.lost, by rw [hsame.locals, h.completed]⟩

theorem Truth.same {w' : World} (h : Truth find w) (hsame : SameRecord w w') : Truth find w' where
  untold hcompleted := by
    rw [hsame.locals] at hcompleted
    rw [hsame.changed, hsame.lost]
    exact h.untold hcompleted
  told hcompleted := by
    rw [hsame.locals] at hcompleted
    obtain ⟨hlost, htargets, hlength⟩ := h.told hcompleted
    rw [hsame.lost, hsame.changed, hsame.locals, AtTargets, hsame.landed]
    exact ⟨hlost, htargets, hlength⟩

/-- The calls that leave the record alone. -/
def silent : Step → Bool
  | .commit => false
  | .countUpdate => false
  | .setCommitCompleted => false
  | _ => true

theorem sameRecord_updateRow (id : ℕ) (old target : String) :
    SameRecord w (w.updateRow collate id old target).2 := by
  unfold World.updateRow
  split
  · exact .refl w
  · split_ifs
    · exact .refl w
    · exact ⟨rfl, rfl, rfl, rfl⟩
    · exact .refl w

theorem sameRecord_act {c : Step} (hc : silent c = true) (fate : Fate) :
    SameRecord w (World.act collate find c fate w).2 := by
  have hamong : SameRecord w (w.among fate.others) := ⟨rfl, rfl, rfl, rfl⟩
  cases c with
  | commit => cases hc
  | countUpdate => cases hc
  | setCommitCompleted => cases hc
  | activeRows =>
    simp only [World.act]
    split <;> exact ⟨rfl, rfl, rfl, rfl⟩
  | update id old target =>
    simp only [World.act]
    split
    · split_ifs
      · exact hamong.trans (sameRecord_updateRow id old target)
      · exact hamong
    · exact hamong.trans (sameRecord_updateRow id old target)
  | getLock name =>
    simp only [World.act]
    split <;> exact ⟨rfl, rfl, rfl, rfl⟩
  | rollback => exact ⟨rfl, rfl, rfl, rfl⟩
  | lookup accountingUserId => exact hamong
  | getBind => exact hamong
  | connect => exact hamong
  | executionOptions => exact hamong
  | databaseName => exact hamong
  | releaseLock name => exact ⟨rfl, rfl, rfl, rfl⟩
  | invalidate => exact ⟨rfl, rfl, rfl, rfl⟩
  | close => exact hamong
  | locals => exact .refl w

/-- A program of such calls keeps what depends on the record. -/
theorem keeps_of_silent {α : Type} {p : Run α} {I : World → Prop} (hp : p.Calls fun c => silent c = true)
    (hI : ∀ w w', I w → SameRecord w w' → I w') : Keeps (database collate find).handler I p := by
  refine hp.keeps fun c s x t hc hs hstep => ⟨trivial, ?_⟩
  obtain ⟨fate, hact⟩ := hstep
  have hsame := @sameRecord_act collate find s c hc fate
  have ht : (World.act collate find c fate s).2 = t := congrArg Prod.snd hact
  exact hI s t hs (ht ▸ hsame)

/-- The calls that leave the session's transaction alone too. -/
def outside : Step → Bool
  | .lookup _ => true
  | .getBind => true
  | .connect => true
  | .executionOptions => true
  | .databaseName => true
  | .getLock _ => true
  | .releaseLock _ => true
  | .invalidate => true
  | .close => true
  | _ => false

/-- Neither the record nor the transaction changes. -/
structure SameSession (w w' : World) : Prop extends SameRecord w w' where
  seen : w'.seen = w.seen
  pending : w'.pending = w.pending

theorem SameSession.refl (w : World) : SameSession w w := ⟨.refl w, rfl, rfl⟩

theorem SameSession.trans {w w' w'' : World} (h : SameSession w w') (h' : SameSession w' w'') : SameSession w w'' :=
  ⟨h.toSameRecord.trans h'.toSameRecord, h'.seen.trans h.seen, h'.pending.trans h.pending⟩

theorem Idle.same {w' : World} (h : Idle w) (hsame : SameSession w w') : Idle w' :=
  ⟨h.toFresh.same hsame.toSameRecord, hsame.pending.trans h.pending, hsame.seen.trans h.seen,
    by rw [hsame.locals, h.updated]⟩

theorem sameSession_act {c : Step} (hc : outside c = true) (fate : Fate) :
    SameSession w (World.act collate find c fate w).2 := by
  have hamong : SameSession w (w.among fate.others) := ⟨⟨rfl, rfl, rfl, rfl⟩, rfl, rfl⟩
  cases c with
  | getLock name =>
    simp only [World.act]
    split <;> exact ⟨⟨rfl, rfl, rfl, rfl⟩, rfl, rfl⟩
  | releaseLock name => exact ⟨⟨rfl, rfl, rfl, rfl⟩, rfl, rfl⟩
  | invalidate => exact ⟨⟨rfl, rfl, rfl, rfl⟩, rfl, rfl⟩
  | lookup accountingUserId => exact hamong
  | getBind => exact hamong
  | connect => exact hamong
  | executionOptions => exact hamong
  | databaseName => exact hamong
  | close => exact hamong
  | _ => cases hc

theorem keeps_idle {α : Type} {p : Run α} (hp : p.Calls fun c => outside c = true) :
    Keeps (database collate find).handler Idle p := by
  refine hp.keeps fun c s x t hc hs hstep => ⟨trivial, ?_⟩
  obtain ⟨fate, hact⟩ := hstep
  have hsame := @sameSession_act collate find s c hc fate
  have ht : (World.act collate find c fate s).2 = t := congrArg Prod.snd hact
  exact hs.same (ht ▸ hsame)

end Calls

section Lock

variable {collate : String → String} {find : String → Except Exn (Option String)} {w : World}

/-- How the locked section may end. -/
def Settled (find : String → Except Exn (Option String)) (r : Except Exn Unit) (w : World) : Prop :=
  Truth find w ∧ ∀ a, r = .ok a → w.locals.commitCompleted = true

theorem Settled.of_error {e : Exn} (h : Truth find w) : Settled find (.error e) w :=
  ⟨h, fun a ha => by cases ha⟩

theorem Idle.settled (h : Idle w) (e : Exn) : Settled find (.error e) w := .of_error h.toFresh.truth

/-- What is done at the end leaves a section settled. -/
theorem settled_tryFinally {p cleanup : Run Unit} (hcleanup : cleanup.Calls fun c => silent c = true)
    (hp : p.wp (database collate find).handler (Settled find) w) :
    (p.tryFinally cleanup).wp (database collate find).handler (Settled find) w := by
  rw [wp_tryFinally]
  refine wp_mono _ _ (fun r w' hr => ?_) hp
  have hkeeps : Keeps (database collate find).handler (Settled find r) cleanup :=
    keeps_of_silent hcleanup fun w w' h hsame =>
      ⟨h.1.same hsame, fun a ha => by rw [hsame.locals, h.2 a ha]⟩
  refine wp_mono _ _ (fun x w'' hx => ?_) (hkeeps w' hr)
  cases x with
  | ok a => exact hx
  | error e => exact .of_error hx.1

theorem wp_getLockOrFail (name : String) (hw : Idle w) :
    (getLockOrFail name).wp (database collate find).handler
      (fun r w' => Idle w' ∧ ∀ a, r = .ok a → w'.locked = true) w := by
  rw [getLockOrFail, wp_bind]
  refine (wp_step (.getLock name)).mpr fun fate => ?_
  have hidle := hw.same (@sameSession_act collate find w (.getLock name) rfl fate)
  cases hfault : fate.fault with
  | some e =>
    simp only [World.act, hfault] at hidle ⊢
    exact ⟨hidle, fun a ha => by cases ha⟩
  | none =>
    simp only [World.act, hfault] at hidle ⊢
    refine (wp_ite _ _ _ _ _ _).mpr ⟨fun _ => ⟨hidle, fun a ha => by cases ha⟩, fun hgranted => ⟨hidle, fun _ _ => ?_⟩⟩
    simpa using hgranted

theorem wp_acquire (name : String) (hw : Idle w) :
    (acquire name).wp (database collate find).handler
      (fun r w' => Idle w' ∧ ∀ a, r = .ok a → w'.locked = true) w := by
  rw [acquire, wp_tryCatch]
  refine wp_mono _ _ (fun r w' hr => ?_) (wp_getLockOrFail name hw)
  cases r with
  | ok a => exact hr
  | error e =>
    rw [catchPost_error, wp_ite]
    refine ⟨fun _ => hr, fun _ => ?_⟩
    rw [wp_bind]
    refine (wp_step .invalidate).mpr fun fate => ?_
    have hidle := hr.1.same (@sameSession_act collate find w' .invalidate rfl fate)
    cases hx : (World.act collate find .invalidate fate w').1 with
    | ok a => exact ⟨hidle, fun a ha => by cases ha⟩
    | error e => exact ⟨hidle, fun a ha => by cases ha⟩

theorem calls_silent_release (name : String) : (release name).Calls fun c => silent c = true := by
  refine Calls.bind (Calls.attempt (Calls.perform rfl)) ?_
  rintro (e | result)
  · exact Calls.bind (Calls.perform rfl) fun _ => Calls.raise e
  · exact Calls.ite (Calls.perform rfl) (Calls.ret ())

theorem calls_outside_deriveName : deriveName.Calls fun c => outside c = true := by
  refine Calls.tryCatch (Calls.bind (Calls.perform rfl) fun _ => Calls.ofExcept _) fun e => ?_
  exact Calls.ite (Calls.raise e) (Calls.raise _)

theorem calls_outside_configure : configure.Calls fun c => outside c = true :=
  Calls.tryCatch (Calls.perform rfl) fun _ => Calls.bind (Calls.perform rfl) fun _ => Calls.raise _

/-- A body that is settled under the lock leaves the whole section settled. -/
theorem wp_underLock {body : Run Unit} (hbody : ∀ w, Idle w → w.locked = true →
    body.wp (database collate find).handler (Settled find) w) (hw : Idle w) :
    (underLock body).wp (database collate find).handler (Settled find) w := by
  refine (keeps_idle calls_outside_deriveName).wp_bind (fun e t ht => ht.settled e) (fun name t ht => ?_) hw
  rw [wp_bind]
  refine wp_mono _ _ (fun r t' hr => ?_) (wp_acquire name ht)
  cases r with
  | error e => exact hr.1.settled e
  | ok a => exact settled_tryFinally (calls_silent_release name) (hbody t' hr.1 (hr.2 a rfl))

theorem wp_gatewayRouteBindingWrite {body : Run Unit} (hbody : ∀ w, Idle w → w.locked = true →
    body.wp (database collate find).handler (Settled find) w) (hw : Idle w) :
    (gatewayRouteBindingWrite body).wp (database collate find).handler (Settled find) w := by
  have hresolve : resolveEngine.Calls fun c => outside c = true :=
    Calls.tryCatch (Calls.perform rfl) fun _ => Calls.raise _
  have hopen : openConnection.Calls fun c => outside c = true :=
    Calls.tryCatch (Calls.perform rfl) fun _ => Calls.raise _
  refine (keeps_idle hresolve).wp_bind (fun e t ht => ht.settled e) (fun _ t ht => ?_) hw
  refine (keeps_idle hopen).wp_bind (fun e t ht => ht.settled e) (fun _ t ht => ?_) ht
  refine (keeps_idle calls_outside_configure).wp_bind (fun e t ht => ht.settled e) (fun _ t ht => ?_) ht
  exact settled_tryFinally (Calls.perform rfl) (wp_underLock hbody ht)

end Lock

section PhaseA

variable {collate : String → String} {find : String → Except Exn (Option String)} {w : World}

/-- A read leaves the transaction with what it has seen. -/
structure ReadBy (w w' : World) (view : Store) : Prop extends SameRecord w w' where
  pending : w'.pending = w.pending
  locked : w'.locked = w.locked
  seen : w'.seen = some view
  first : w.seen = none → w'.store = view

/-- A read of the active rows fails, or it reads those that the transaction sees. -/
theorem wp_activeSnapshot {Q : Except Exn (List BindingSnapshot) → World → Prop}
    (hfail : ∀ e w', SameRecord w w' → Q (.error e) w')
    (hread : ∀ w' view snapshots, ReadBy w w' view →
      (joinedRows ⟨renamed w.pending view.bindings, view.accountingUserIds⟩).mapM snapshotOf = .ok snapshots →
      Q (.ok snapshots) w') :
    activeSnapshot.wp (database collate find).handler Q w := by
  rw [activeSnapshot, wp_bind]
  refine (wp_step .activeRows).mpr fun fate => ?_
  cases hfault : fate.fault with
  | some e =>
    simp only [World.act, hfault]
    exact hfail e _ ⟨rfl, rfl, rfl, rfl⟩
  | none =>
    simp only [World.act, hfault]
    refine iff_of_eq (wp_ofExcept _ _ _ _) |>.mpr ?_
    have hseen : ReadBy w { w.among fate.others with seen := some (w.seen.getD (w.among fate.others).store) }
        (w.seen.getD (w.among fate.others).store) :=
      ⟨⟨rfl, rfl, rfl, rfl⟩, rfl, rfl, rfl, fun hnone => by rw [hnone, Option.getD_none]⟩
    generalize hrows : (joinedRows ⟨renamed w.pending (w.seen.getD (w.among fate.others).store).bindings,
      (w.seen.getD (w.among fate.others).store).accountingUserIds⟩).mapM snapshotOf = rows
    cases rows with
    | error e => exact hrows ▸ hfail e _ ⟨rfl, rfl, rfl, rfl⟩
    | ok snapshots => exact hrows ▸ hread _ _ snapshots hseen hrows

theorem wp_rollback {Q : Except Exn Unit → World → Prop} (hfail : ∀ e w', SameRecord w w' → Q (.error e) w')
    (hdone : ∀ w', SameRecord w w' → w'.seen = none → w'.pending = [] → Q (.ok ()) w') :
    rollback.wp (database collate find).handler Q w := by
  refine (wp_step .rollback).mpr fun fate => ?_
  simp only [World.act]
  cases fate.fault with
  | some e => exact hfail e _ ⟨rfl, rfl, rfl, rfl⟩
  | none => exact hdone _ ⟨rfl, rfl, rfl, rfl⟩ rfl rfl

/-- The target of a row is the one looked up for it. -/
def Looked (find : String → Except Exn (Option String)) (row : BindingSnapshot) (u : ℕ × String) : Prop :=
  row.id = u.1 ∧ find row.accountingUserId = .ok (some u.2)

theorem routingPrincipal_ok {answer : Option String} {target : String} (h : routingPrincipal answer = .ok target) :
    answer = some target := by
  unfold routingPrincipal at h
  cases hfilter : answer.filter fun target => Text.strip target ≠ "" with
  | none =>
    rw [hfilter] at h
    cases h
  | some found =>
    rw [hfilter] at h
    dsimp only at h
    split_ifs at h
    cases h
    exact (Option.filter_eq_some_iff.mp hfilter).1

/-- Where no lookup has failed, every row has a target. -/
theorem wp_lookupTargets (rows : List BindingSnapshot) :
    (lookupTargets rows).wp (database collate find).handler (fun r w' => SameSession w w' ∧
      ∀ targets, r = .ok (targets, 0) → List.Forall₂ (Looked find) rows targets) w := by
  induction rows generalizing w with
  | nil =>
    refine ⟨.refl w, fun targets htargets => ?_⟩
    cases htargets
    exact .nil
  | cons row rows ih =>
    rw [lookupTargets, wp_bind, wp_attempt]
    refine (wp_step (.lookup row.accountingUserId)).mpr fun fate => ?_
    have hsame := @sameSession_act collate find w (.lookup row.accountingUserId) rfl fate
    simp only [World.act] at hsame ⊢
    cases hanswer : find row.accountingUserId with
    | error e =>
      rw [bindPost_ok]
      dsimp only
      rw [wp_bind]
      refine wp_mono _ _ (fun r w' hr => ?_) ih
      cases r with
      | error e => exact ⟨hsame.trans hr.1, fun targets h => by cases h⟩
      | ok x => exact ⟨hsame.trans hr.1, fun targets h => by cases h⟩
    | ok answer =>
      rw [bindPost_ok]
      dsimp only
      rw [wp_bind, wp_ofExcept]
      cases htarget : routingPrincipal answer with
      | error e => exact ⟨hsame, fun targets h => by cases h⟩
      | ok target =>
        rw [bindPost_ok, wp_bind]
        refine wp_mono _ _ (fun r w' hr => ?_) ih
        cases r with
        | error e => exact ⟨hsame.trans hr.1, fun targets h => by cases h⟩
        | ok x =>
          obtain ⟨targets, failures⟩ := x
          refine ⟨hsame.trans hr.1, fun all hall => ?_⟩
          cases hall
          exact .cons ⟨rfl, by rw [hanswer, routingPrincipal_ok htarget]⟩ (hr.2 targets rfl)

/-- What phase A hands over. -/
structure Prepared (find : String → Except Exn (Option String)) (snapshots : List BindingSnapshot)
    (targets : List (ℕ × String)) : Prop where
  looked : List.Forall₂ (Looked find) snapshots targets
  checked : checkTargets snapshots targets 0 = .ok ()

theorem wp_phaseA : phaseA.wp (database collate find).handler (fun r w' => SameRecord w w' ∧
    ∀ x, r = .ok x → w'.seen = none ∧ w'.pending = [] ∧ Prepared find x.1 x.2) w := by
  rw [phaseA, wp_bind]
  refine wp_activeSnapshot (fun e w' hsame => ⟨hsame, fun x h => by cases h⟩) fun t seen snapshots hread _ => ?_
  rw [bindPost_ok, wp_bind, wp_ofExcept]
  cases hidentities : checkIdentities snapshots with
  | error e => exact ⟨hread.toSameRecord, fun x h => by cases h⟩
  | ok _ =>
    rw [bindPost_ok, wp_bind]
    refine wp_rollback (fun e w' hsame => ⟨hread.toSameRecord.trans hsame, fun x h => by cases h⟩) ?_
    intro w' hrolled hseen hpending
    rw [bindPost_ok, wp_bind]
    refine wp_mono _ _ (fun r w'' hr => ?_) (wp_lookupTargets snapshots)
    obtain ⟨hsame, htargets⟩ := hr
    have hrecord : SameRecord w w'' := (hread.toSameRecord.trans hrolled).trans hsame.toSameRecord
    cases r with
    | error e => exact ⟨hrecord, fun x h => by cases h⟩
    | ok found =>
      obtain ⟨targets, failures⟩ := found
      rw [bindPost_ok]
      dsimp only
      rw [wp_bind, wp_ofExcept]
      cases hchecked : checkTargets snapshots targets failures with
      | error e => exact ⟨hrecord, fun x h => by cases h⟩
      | ok a =>
        have hnone : failures = 0 := by
          by_contra hsome
          rw [checkTargets, if_pos hsome] at hchecked
          cases hchecked
        subst hnone
        refine ⟨hrecord, fun x h => ?_⟩
        cases h
        exact ⟨hsame.seen.trans hseen, hsame.pending.trans hpending, htargets targets rfl, hchecked⟩

theorem Prepared.ids {snapshots : List BindingSnapshot} {targets : List (ℕ × String)}
    (h : Prepared find snapshots targets) : targets.map Prod.fst = snapshots.map BindingSnapshot.id := by
  have heq : List.Forall₂ Eq (snapshots.map BindingSnapshot.id) (targets.map Prod.fst) := by
    rw [List.forall₂_map_left_iff, List.forall₂_map_right_iff]
    exact h.looked.imp fun _ _ hlooked => hlooked.1
  exact (List.forall₂_eq_eq_eq ▸ heq : snapshots.map BindingSnapshot.id = targets.map Prod.fst).symm

end PhaseA

section PhaseB

variable {collate : String → String} {find : String → Except Exn (Option String)} {w : World} {view : Store}
  {pending : List (ℕ × String)} {updated : ℕ} {targets : List (ℕ × String)}

/-- In the transaction of phase B: the routes are as they were read, but for its own updates. -/
structure Writing (view : Store) (pending : List (ℕ × String)) (updated : ℕ) (w : World) : Prop extends Fresh w where
  locked : w.locked = true
  seen : w.seen = some view
  same : w.store.bindings = view.bindings
  pending : w.pending = pending
  updated : w.locals.updated = updated

theorem Writing.among (h : Writing view pending updated w) (others : Store) :
    Writing view pending updated (w.among others) :=
  ⟨⟨h.changed, h.lost, h.completed⟩, h.locked, h.seen, by simp [World.among, h.locked, h.same], h.pending, h.updated⟩

/-- An update raises, matches no row or is pending. -/
theorem wp_update {Q : Except Exn ℕ → World → Prop} {id : ℕ} {old target : String} (hw : Writing view pending updated w)
    (hfail : ∀ e w', Fresh w' → Q (.error e) w') (hmissed : ∀ w', Fresh w' → Q (.ok 0) w')
    (hdone : ∀ w', Writing view (pending ++ [(id, target)]) updated w' → Q (.ok 1) w') :
    (update id old target).wp (database collate find).handler Q w := by
  refine (wp_step (.update id old target)).mpr fun fate => ?_
  have hamong := hw.among fate.others
  have hsame := @sameRecord_updateRow collate (w.among fate.others) id old target
  cases hfault : fate.fault with
  | some e =>
    simp only [World.act, hfault]
    split_ifs
    · exact hfail e _ (hamong.toFresh.same hsame)
    · exact hfail e _ hamong.toFresh
  | none =>
    simp only [World.act, hfault, World.updateRow]
    split
    · exact hmissed _ hamong.toFresh
    · split_ifs
      · exact hfail _ _ hamong.toFresh
      · exact hdone _ ⟨⟨hamong.changed, hamong.lost, hamong.completed⟩, hamong.locked, hamong.seen, hamong.same,
          by rw [hamong.pending], hamong.updated⟩
      · exact hmissed _ hamong.toFresh

theorem wp_countUpdate {Q : Except Exn Unit → World → Prop} (hw : Writing view pending updated w)
    (hdone : ∀ w', Writing view pending (updated + 1) w' → Q (.ok ()) w') :
    countUpdate.wp (database collate find).handler Q w := by
  refine (wp_step .countUpdate).mpr fun fate => ?_
  exact hdone _ ⟨⟨hw.changed, hw.lost, hw.completed⟩, hw.locked, hw.seen, hw.same, hw.pending,
    congrArg (· + 1) hw.updated⟩

/-- An update that is done is the next of the changes. -/
theorem changes_cons {row : BindingSnapshot} {rows : List BindingSnapshot} :
    changes targets (row :: rows) = if targetOf targets row.id = row.gatewayPrincipal then changes targets rows
      else (row.id, targetOf targets row.id) :: changes targets rows := by
  by_cases hsame : targetOf targets row.id = row.gatewayPrincipal <;> simp [changes, hsame]

theorem wp_updateRows (rows : List BindingSnapshot) (hw : Writing view pending pending.length w) :
    (updateRows targets rows).wp (database collate find).handler (fun r w' => Fresh w' ∧ ∀ a, r = .ok a →
      Writing view (pending ++ changes targets rows) (pending ++ changes targets rows).length w') w := by
  induction rows generalizing w pending with
  | nil =>
    refine ⟨hw.toFresh, fun a _ => ?_⟩
    rw [changes, List.filter_nil, List.map_nil, List.append_nil]
    exact hw
  | cons row rows ih =>
    rw [updateRows, wp_ite, changes_cons]
    refine ⟨fun hsame => ?_, fun hne => ?_⟩
    · rw [if_pos hsame]
      exact ih hw
    · rw [if_neg hne, wp_bind]
      refine wp_update hw (fun e w' h => ⟨h, fun a ha => by cases ha⟩) (fun w' h => ?_) fun w' h => ?_
      · rw [bindPost_ok, if_pos Nat.zero_ne_one]
        exact ⟨h, fun a ha => by cases ha⟩
      · rw [bindPost_ok, if_neg (not_not.mpr rfl), wp_bind]
        refine wp_countUpdate h fun w'' h' => ?_
        have hlength : (pending ++ [(row.id, targetOf targets row.id)]).length = pending.length + 1 := by simp
        have hrest := ih (hlength ▸ h')
        rw [List.append_assoc, List.singleton_append] at hrest
        exact hrest

/-- What a commit that returns has done. -/
structure CommittedBy (view : Store) (pending : List (ℕ × String)) (updated : ℕ) (w : World) : Prop where
  changed : w.changed = changedRows view.bindings (renamed pending view.bindings)
  landed : ∃ accountingUserIds, w.landed = some (view, ⟨renamed pending view.bindings, accountingUserIds⟩)
  lost : w.lost = false
  updated : w.locals.updated = updated

theorem Writing.committed (h : Writing view pending updated w) : CommittedBy view pending updated w.committed where
  changed := by
    rw [World.committed, h.changed, List.nil_append, h.pending, h.same]
  landed := ⟨w.store.accountingUserIds, by rw [World.committed, h.seen, h.pending, h.same, Option.getD_some]⟩
  lost := h.lost
  updated := h.updated

/-- A commit that raises has changed a row unseen, or none. -/
theorem wp_commit {Q : Except Exn Unit → World → Prop} (hw : Writing view pending updated w)
    (hfail : ∀ e w', Truth find w' → Q (.error e) w') (hdone : ∀ w', CommittedBy view pending updated w' → Q (.ok ()) w') :
    commit.wp (database collate find).handler Q w := by
  refine (wp_step .commit).mpr fun fate => ?_
  have hamong := hw.among fate.others
  cases hfault : fate.fault with
  | none =>
    simp only [World.act, hfault]
    exact hdone _ hamong.committed
  | some e =>
    simp only [World.act, hfault]
    split_ifs
    · refine hfail e _ ⟨fun _ => ?_, fun hcompleted => ?_⟩
      · simp [World.committedUnseen, hamong.lost, hamong.changed]
      · have hnot : (w.among fate.others).locals.commitCompleted = true := hcompleted
        rw [hamong.completed] at hnot
        cases hnot
    · exact hfail e _ hamong.toFresh.truth

variable {snapshots : List BindingSnapshot}

theorem CommittedBy.atTargets (h : CommittedBy view (changes targets snapshots) updated w)
    (hread : (joinedRows view).mapM snapshotOf = .ok snapshots) (hfound : Found find snapshots targets) :
    AtTargets find w := by
  obtain ⟨accountingUserIds, hlanded⟩ := h.landed
  exact ⟨view, _, hlanded, fun id row hget hactive => reconciled hread hfound hget hactive⟩

theorem targetOf_of_mem {targets : List (ℕ × String)} (hnodup : (targets.map Prod.fst).Nodup) {u : ℕ × String}
    (h : u ∈ targets) : targetOf targets u.1 = u.2 := by
  induction targets with
  | nil => cases h
  | cons v rest ih =>
    rw [List.map_cons, List.nodup_cons] at hnodup
    obtain rfl | h := List.mem_cons.mp h
    · simp [targetOf, List.lookup]
    · have hne : (u.1 == v.1) = false := by
        rw [beq_eq_false_iff_ne]
        exact fun heq => hnodup.1 (heq ▸ List.mem_map_of_mem h)
      have hrest := ih hnodup.2 h
      rw [targetOf] at hrest ⊢
      rw [List.lookup_cons, hne]
      exact hrest

theorem looked_of_mem {snapshots : List BindingSnapshot} {targets : List (ℕ × String)}
    (h : List.Forall₂ (Looked find) snapshots targets) {row : BindingSnapshot} (hrow : row ∈ snapshots) :
    ∃ u ∈ targets, Looked find row u := by
  induction h with
  | nil => cases hrow
  | cons hlooked _ ih =>
    obtain rfl | hrow := List.mem_cons.mp hrow
    · exact ⟨_, List.mem_cons_self, hlooked⟩
    · obtain ⟨u, hu, hlooked⟩ := ih hrow
      exact ⟨u, List.mem_cons_of_mem _ hu, hlooked⟩

/-- The target of a row, as the targets have it. -/
theorem Prepared.mem (h : Prepared find snapshots targets) (hids : (snapshots.map BindingSnapshot.id).Nodup)
    {row : BindingSnapshot} (hrow : row ∈ snapshots) :
    (row.id, targetOf targets row.id) ∈ targets ∧ find row.accountingUserId = .ok (some (targetOf targets row.id)) := by
  obtain ⟨u, hu, hid, hfind⟩ := looked_of_mem h.looked hrow
  have htarget : targetOf targets row.id = u.2 := by
    rw [hid]
    exact targetOf_of_mem (h.ids ▸ hids) hu
  rw [htarget, hid]
  exact ⟨hu, hfind⟩

theorem Prepared.found (h : Prepared find snapshots targets) (hids : (snapshots.map BindingSnapshot.id).Nodup) :
    Found find snapshots targets := fun _ hrow => (h.mem hids hrow).2

/-- Phase B under the lock ends in what the run knows. -/
theorem wp_phaseB (hw : Idle w) (hlocked : w.locked = true) (hprepared : Prepared find snapshots targets) :
    (phaseB snapshots targets).wp (database collate find).handler (Settled find) w := by
  rw [phaseB, wp_bind]
  refine wp_activeSnapshot (fun e w' hsame => .of_error (hw.toFresh.same hsame).truth) ?_
  intro w' view observed hby hread
  have hfresh := hw.toFresh.same hby.toSameRecord
  rw [bindPost_ok, wp_bind, wp_ofExcept, assertSameSnapshot]
  split_ifs with hsame
  · rw [hw.pending] at hread
    have hwriting : Writing view [] 0 w' := ⟨hfresh, hby.locked.trans hlocked, hby.seen,
      by rw [hby.first hw.seen], hby.pending.trans hw.pending, by rw [hby.locals, hw.updated]⟩
    have hsnapshots : (joinedRows view).mapM snapshotOf = .ok snapshots := hsame ▸ hread
    rw [bindPost_ok, wp_bind]
    refine wp_mono _ _ (fun r t hr => ?_) (wp_updateRows snapshots hwriting)
    cases r with
    | error e => exact .of_error hr.1.truth
    | ok a =>
      rw [bindPost_ok, wp_bind]
      refine wp_commit (hr.2 a rfl) (fun e t' htruth => .of_error htruth) fun t' hcommitted => ?_
      rw [bindPost_ok]
      refine (wp_step .setCommitCompleted).mpr fun fate => ?_
      have htargets := hcommitted.atTargets hsnapshots (hprepared.found (ids_of_snapshots hsnapshots))
      refine ⟨⟨fun hnot => (by cases hnot), fun _ => ⟨hcommitted.lost, htargets, ?_⟩⟩, fun _ _ => rfl⟩
      exact (congrArg List.length hcommitted.changed).trans
        ((length_changedRows hsnapshots).trans hcommitted.updated.symm)
  · exact .of_error hfresh.truth

end PhaseB

section Reconcile

variable {collate : String → String} {find : String → Except Exn (Option String)} {w : World}
  {snapshots : List BindingSnapshot} {targets : List (ℕ × String)}

/-- A result is true exactly if no commit was lost. -/
def Judged (find : String → Except Exn (Option String)) (r : Except Exn ReconciliationResult) (w : World) : Prop :=
  ∀ result, r = .ok result → (Reported find result w ↔ w.lost = false)

theorem judged_error (e : Exn) : Judged find (.error e) w := by
  intro result h
  cases h

theorem wp_locals {Q : Except Exn Locals → World → Prop} (h : Q (.ok w.locals) w) :
    locals.wp (database collate find).handler Q w :=
  (wp_step .locals).mpr fun _ => h

/-- What is said when nothing has been committed knowingly. -/
theorem judged_aborted (hw : Truth find w) (hcompleted : w.locals.commitCompleted = false) (mode : Mode)
    (snapshotRows targets : ℕ) (e : Exn) :
    (aborted mode snapshotRows targets e).wp (database collate find).handler (Judged find) w := by
  rw [aborted, wp_bind]
  refine wp_rollback (fun e w' _ => judged_error e) fun w' hsame _ _ => ?_
  intro result hresult
  cases hresult
  rw [← (hw.same hsame).untold (hsame.locals ▸ hcompleted)]
  exact ⟨fun h => h.untouched (.inl rfl), fun h => ⟨fun _ => h, fun _ hstatus => by simp at hstatus⟩⟩

theorem judged_confirmed (hw : Truth find w) (hcompleted : w.locals.commitCompleted = true) {status : ResultStatus}
    (hstatus : status ≠ .aborted) (reasonCode : String) :
    Judged find (.ok (preflightResult .confirmed snapshots targets w.locals.updated status reasonCode)) w := by
  intro result hresult
  cases hresult
  obtain ⟨hlost, htargets, hlength⟩ := hw.told hcompleted
  refine ⟨fun _ => hlost, fun _ => ⟨fun h => ?_, fun _ _ => ⟨htargets, hlength⟩⟩⟩
  obtain h | h := h
  · exact absurd h hstatus
  · cases h

/-- The handlers of phase B judge, or they leave it to the outer ones. -/
def Passed (find : String → Except Exn (Option String)) (r : Except Exn ReconciliationResult) (w : World) : Prop :=
  match r with
  | .ok result => Judged find (.ok result) w
  | .error _ => Truth find w ∧ w.locals.commitCompleted = false

theorem wp_writeFailed (hw : Truth find w) (e : Exn) :
    (writeFailed snapshots targets e).wp (database collate find).handler (Passed find) w := by
  rw [writeFailed, wp_bind]
  refine wp_locals ?_
  rw [bindPost_ok, wp_ite]
  refine ⟨fun hcompleted => judged_confirmed hw hcompleted (by decide) _, fun hnot => ?_⟩
  have hcompleted : w.locals.commitCompleted = false := by simpa using hnot
  rw [wp_bind]
  refine wp_rollback (fun e w' hsame => ?_) fun w' hsame _ _ => ?_
  · exact ⟨hw.same hsame, hsame.locals ▸ hcompleted⟩
  · exact ⟨hw.same hsame, hsame.locals ▸ hcompleted⟩

theorem wp_confirmedRun (hw : Idle w) (hprepared : Prepared find snapshots targets) :
    (confirmedRun snapshots targets).wp (database collate find).handler (Passed find) w := by
  rw [confirmedRun, wp_bind, wp_attempt]
  refine wp_mono _ _ (fun r w' hr => ?_)
    (wp_gatewayRouteBindingWrite (fun w' hidle hlocked => wp_phaseB hidle hlocked hprepared) hw)
  rw [bindPost_ok]
  cases r with
  | error e => exact wp_writeFailed hr.1 e
  | ok a =>
    dsimp only
    rw [wp_bind]
    exact wp_locals (judged_confirmed hr.1 (hr.2 a rfl) (by decide) _)

theorem wp_afterPhaseA (confirm : Bool) (hw : Idle w) (hprepared : Prepared find snapshots targets) :
    (afterPhaseA confirm snapshots targets).wp (database collate find).handler (Passed find) w := by
  rw [afterPhaseA, wp_ite]
  refine ⟨fun _ => wp_confirmedRun hw hprepared, fun _ result hresult => ?_⟩
  cases hresult
  exact ⟨fun _ => hw.lost, fun _ => ⟨fun _ => hw.changed, fun hmode => by cases hmode⟩⟩

theorem wp_reconcileGatewayPrincipals (xrayFile confirm : Bool) (hw : Idle w) :
    (reconcileGatewayPrincipals xrayFile confirm).wp (database collate find).handler (Judged find) w := by
  rw [reconcileGatewayPrincipals, wp_ite]
  refine ⟨fun _ => judged_error _, fun _ => ?_⟩
  rw [wp_bind, wp_attempt]
  refine wp_mono _ _ (fun r w' hr => ?_) wp_phaseA
  obtain ⟨hsame, hprepared⟩ := hr
  have hfresh := hw.toFresh.same hsame
  rw [bindPost_ok]
  cases r with
  | error e => exact judged_aborted hfresh.truth hfresh.completed _ _ _ e
  | ok x =>
    obtain ⟨snapshots, targets⟩ := x
    obtain ⟨hseen, hpending, hprepared⟩ := hprepared _ rfl
    dsimp only
    rw [wp_tryCatch]
    have hidle : Idle w' := ⟨hfresh, hpending, hseen, by rw [hsame.locals, hw.updated]⟩
    refine wp_mono _ _ (fun r w'' hr => ?_) (wp_afterPhaseA confirm hidle hprepared)
    cases r with
    | ok result => exact hr
    | error e => exact judged_aborted hr.1 hr.2 _ _ _ e

end Reconcile

section Order

variable {collate : String → String} {find : String → Except Exn (Option String)} {bindings : Table GatewayRouteBinding}
  {store : Store} {snapshots : List BindingSnapshot} {targets : List (ℕ × String)}

/-- The value of a row in the unique key. -/
def activeKey (collate : String → String) (bindings : Table GatewayRouteBinding) (id : ℕ) : Option String :=
  ((bindings.get id).filter GatewayRouteBinding.active).map fun row => collate row.gatewayPrincipal

theorem activeKey_eq_some {id : ℕ} {k : String} : activeKey collate bindings id = some k ↔
    ∃ row, bindings.get id = some row ∧ row.active = true ∧ collate row.gatewayPrincipal = k := by
  simp only [activeKey, Option.map_eq_some_iff, Option.filter_eq_some_iff, and_assoc]

/-- An update as the unique key sees it. -/
def collated (collate : String → String) (u : ℕ × String) : ℕ × String := (u.1, collate u.2)

theorem conflicts_eq_false_iff (u : ℕ × String) : conflicts collate bindings u.1 u.2 = false ↔
    Renaming.Free (activeKey collate bindings) (collated collate u) := by
  simp only [conflicts, List.any_eq_false, mem_activeBindings, Renaming.Free, collated, Bool.and_eq_true,
    decide_eq_true_eq, not_and, ne_eq, activeKey_eq_some, not_exists]
  constructor
  · intro h id hid row hget hactive
    exact h ⟨id, row⟩ ⟨hget, hactive⟩ hid
  · rintro h ⟨id, row⟩ ⟨hget, hactive⟩ hid
    exact h id hid row hget hactive

theorem activeKey_modify {u : ℕ × String} (hactive : ∃ row, bindings.get u.1 = some row ∧ row.active = true) :
    activeKey collate (bindings.modify u.1 (setPrincipal u.2)) =
      Renaming.rename (activeKey collate bindings) (collated collate u) := by
  obtain ⟨row, hget, hactive⟩ := hactive
  funext id
  by_cases hid : id = u.1
  · have hset : (setPrincipal u.2 row).active = true := hactive
    rw [Renaming.rename, collated, hid, Function.update_self, activeKey, Table.get_modify, if_pos rfl, hget,
      Option.map_some, Option.filter_some, if_pos hset]
    rfl
  · rw [Renaming.rename, collated, Function.update_of_ne hid, activeKey, Table.get_modify, if_neg hid]
    rfl

/-- Updates of active rows meet no conflict when the renamings are not refused. -/
theorem noConflict_iff {us : List (ℕ × String)}
    (hactive : ∀ u ∈ us, ∃ row, bindings.get u.1 = some row ∧ row.active = true) :
    NoConflict collate bindings us ↔ Renaming.Clear (activeKey collate bindings) (us.map (collated collate)) := by
  induction us generalizing bindings with
  | nil => exact Iff.rfl
  | cons u rest ih =>
    have hrest : ∀ v ∈ rest, ∃ row, (bindings.modify u.1 (setPrincipal u.2)).get v.1 = some row ∧ row.active = true := by
      intro v hv
      obtain ⟨row, hget, hrow⟩ := hactive v (List.mem_cons_of_mem _ hv)
      rw [Table.get_modify, hget]
      split_ifs
      · exact ⟨_, rfl, hrow⟩
      · exact ⟨row, rfl, hrow⟩
    rw [NoConflict, List.map_cons, Renaming.Clear, conflicts_eq_false_iff, ih hrest,
      activeKey_modify (hactive u List.mem_cons_self)]

theorem noConflict_any_order_iff {us : List (ℕ × String)}
    (hactive : ∀ u ∈ us, ∃ row, bindings.get u.1 = some row ∧ row.active = true) :
    (∀ order : List (ℕ × String), order.Perm us → NoConflict collate bindings order) ↔
      Renaming.Separated (activeKey collate bindings) (us.map (collated collate)) := by
  rw [← Renaming.clear_iff_separated]
  constructor
  · intro h order horder
    have hmap : List.Forall₂ (fun v u => v = collated collate u) (us.map (collated collate)) us := by
      rw [List.forall₂_map_left_iff]
      exact List.forall₂_same.mpr fun _ _ => rfl
    obtain ⟨original, heq, hperm⟩ := List.perm_comp_forall₂ horder hmap
    have hcollated : order = original.map (collated collate) := by
      rw [← List.forall₂_eq_eq_eq, List.forall₂_map_right_iff]
      exact heq
    rw [hcollated, ← noConflict_iff fun u hu => hactive u (hperm.mem_iff.mp hu)]
    exact h original hperm
  · intro h order horder
    rw [noConflict_iff fun u hu => hactive u (horder.mem_iff.mp hu)]
    exact h _ (horder.map _)

/-- Different rows have different targets. -/
theorem Prepared.targets_ne (h : Prepared find snapshots targets) (hids : (snapshots.map BindingSnapshot.id).Nodup)
    {row other : BindingSnapshot} (hrow : row ∈ snapshots) (hother : other ∈ snapshots) (hne : other.id ≠ row.id) :
    targetOf targets row.id ≠ targetOf targets other.id := by
  have hnodup : (targets.map Prod.snd).Nodup := by
    by_contra hrepeated
    have hchecked := h.checked
    rw [checkTargets, if_neg (not_not.mpr rfl), if_pos hrepeated] at hchecked
    cases hchecked
  intro heq
  have hpair := List.inj_on_of_nodup_map hnodup (h.mem hids hrow).1 (h.mem hids hother).1 heq
  exact hne (Prod.mk.inj hpair).1.symm

/-- A new principal is the old one of no other row. -/
theorem Prepared.target_ne (h : Prepared find snapshots targets) (hids : (snapshots.map BindingSnapshot.id).Nodup)
    {row other : BindingSnapshot} (hrow : row ∈ snapshots) (hchanges : targetOf targets row.id ≠ row.gatewayPrincipal)
    (hother : other ∈ snapshots) : targetOf targets row.id ≠ other.gatewayPrincipal := by
  intro heq
  have hchecked := h.checked
  rw [checkTargets, if_neg (not_not.mpr rfl)] at hchecked
  split_ifs at hchecked with hrepeated howner
  rw [Bool.not_eq_true, List.any_eq_false] at howner
  have hfound : (snapshots.reverse.find? fun s => s.gatewayPrincipal = targetOf targets row.id).isSome = true := by
    rw [List.find?_isSome]
    exact ⟨other, List.mem_reverse.mpr hother, by simp [heq]⟩
  obtain ⟨owner, howner'⟩ := Option.isSome_iff_exists.mp hfound
  have hid : owner.id = row.id := by
    have hsame := howner row hrow
    rw [oldPrincipalOwner, howner'] at hsame
    simpa using hsame
  have hmem : owner ∈ snapshots := List.mem_reverse.mp (List.mem_of_find?_eq_some howner')
  have hprincipal : owner.gatewayPrincipal = targetOf targets row.id := by simpa using List.find?_some howner'
  rw [List.inj_on_of_nodup_map hids hmem hrow hid] at hprincipal
  exact hchanges hprincipal.symm

theorem mem_collated_changes {u : ℕ × String} : u ∈ (changes targets snapshots).map (collated collate) ↔
    ∃ row ∈ snapshots, targetOf targets row.id ≠ row.gatewayPrincipal ∧ u = (row.id, collate (targetOf targets row.id)) := by
  constructor
  · intro hu
    obtain ⟨v, hv, rfl⟩ := List.mem_map.mp hu
    obtain ⟨row, hrow, hne, rfl⟩ := mem_changes.mp hv
    exact ⟨row, hrow, hne, rfl⟩
  · rintro ⟨row, hrow, hne, rfl⟩
    exact List.mem_map.mpr ⟨_, mem_changes.mpr ⟨row, hrow, hne, rfl⟩, rfl⟩

/-- The keys are separated if the unique key tells apart what phase A has. -/
theorem separated_iff_tellsApart (hread : (joinedRows store).mapM snapshotOf = .ok snapshots)
    (h : Prepared find snapshots targets) :
    Renaming.Separated (activeKey collate store.bindings) ((changes targets snapshots).map (collated collate)) ↔
      TellsApart collate snapshots targets := by
  have hids := ids_of_snapshots hread
  constructor
  · intro hseparated row hrow hne other hother hid p hp hsame
    have hold : ∀ other ∈ snapshots, other.id ≠ row.id →
        collate (targetOf targets row.id) ≠ collate other.gatewayPrincipal := by
      intro other hother hid hsame
      obtain ⟨r, hget, hactive, hprincipal⟩ := row_of_snapshot hread hother
      refine hseparated.free _ (mem_collated_changes.mpr ⟨row, hrow, hne, rfl⟩) other.id hid ?_
      exact activeKey_eq_some.mpr ⟨r, hget, hactive, by rw [hprincipal, hsame]⟩
    exfalso
    obtain rfl | rfl := hp
    · exact hold other hother hid hsame
    · by_cases hunchanged : targetOf targets other.id = other.gatewayPrincipal
      · exact hold other hother hid (hunchanged ▸ hsame)
      · exact hseparated.distinct _ (mem_collated_changes.mpr ⟨row, hrow, hne, rfl⟩) _
          (mem_collated_changes.mpr ⟨other, hother, hunchanged, rfl⟩) (Ne.symm hid) hsame
  · intro hapart
    constructor
    · intro u hu id hid hkey
      obtain ⟨row, hrow, hne, rfl⟩ := mem_collated_changes.mp hu
      obtain ⟨r, hget, hactive, hsame⟩ := activeKey_eq_some.mp hkey
      obtain ⟨other, hother, rfl, hprincipal, -⟩ := snapshot_of_row hread hget hactive
      rw [← hprincipal] at hsame
      exact h.target_ne hids hrow hne hother (hapart row hrow hne other hother hid _ (.inl rfl) hsame.symm)
    · intro u hu v hv hid hsame
      obtain ⟨row, hrow, hne, rfl⟩ := mem_collated_changes.mp hu
      obtain ⟨other, hother, -, rfl⟩ := mem_collated_changes.mp hv
      exact h.targets_ne hids hrow hother (Ne.symm hid) (hapart row hrow hne other hother (Ne.symm hid) _ (.inr rfl) hsame)

end Order

section Claim

variable {collate : String → String} {find : String → Except Exn (Option String)} {w w' : World}

theorem prepared_of_phaseA {snapshots : List BindingSnapshot} {targets : List (ℕ × String)}
    (h : phaseA.Exec (database collate find).handler w (.ok (snapshots, targets)) w') :
    Prepared find snapshots targets := by
  have hpost := exec_of_wp wp_phaseA h
  exact (hpost.2 _ rfl).2.2

/-- A reported result is true of the committed rows if and only if no commit has changed a row
and raised. The updates meet no unique conflict in any order if and only if the unique key
tells the new principals apart. -/
theorem reconciliation_reports_truth (collate : String → String) (find : String → Except Exn (Option String))
    (xrayFile confirm : Bool) :
    (∀ w w' result, Idle w →
      (reconcileGatewayPrincipals xrayFile confirm).Exec (database collate find).handler w (.ok result) w' →
        (Reported find result w' ↔ w'.lost = false)) ∧
    ∀ w w' store snapshots targets,
      phaseA.Exec (database collate find).handler w (.ok (snapshots, targets)) w' →
      (joinedRows store).mapM snapshotOf = .ok snapshots →
        ((∀ order : List (ℕ × String), order.Perm (changes targets snapshots) →
          NoConflict collate store.bindings order) ↔ TellsApart collate snapshots targets) := by
  constructor
  · intro w w' result hw hexec
    exact exec_of_wp (wp_reconcileGatewayPrincipals xrayFile confirm hw) hexec result rfl
  · intro w w' store snapshots targets hphase hread
    have hactive : ∀ u ∈ changes targets snapshots, ∃ row, store.bindings.get u.1 = some row ∧ row.active = true := by
      intro u hu
      obtain ⟨row, hrow, -, rfl⟩ := mem_changes.mp hu
      obtain ⟨r, hget, hr, -⟩ := row_of_snapshot hread hrow
      exact ⟨r, hget, hr⟩
    rw [noConflict_any_order_iff hactive, separated_iff_tellsApart hread (prepared_of_phaseA hphase)]

/-- One route, of the user `alice`. -/
def sampleStore : Store where
  bindings := Table.empty.insert 1 ⟨1, 1, "principal-a", "egress-1", true, none⟩
  accountingUserIds := fun id => if id = 1 then some (some "alice") else none

def sampleWorld : World := ⟨sampleStore, none, [], false, ⟨0, false⟩, [], none, false⟩

def sampleFind (_ : String) : Except Exn (Option String) := .ok (some "principal-new")

/-- All goes well, but the acknowledgement of the commit may be lost. -/
def sampleScript (lost : Bool) : (c : Step) → World → (database id sampleFind).Choice c
  | .commit, w => (⟨w.store, if lost then some ⟨.other "OperationalError", "connection lost"⟩ else none, lost, none, none⟩ : Fate)
  | .releaseLock _, w => (⟨w.store, none, false, some 1, none⟩ : Fate)
  | .getLock _, w => (⟨w.store, none, false, some 1, none⟩ : Fate)
  | _, w => (⟨w.store, none, false, none, some "lingsway"⟩ : Fate)

def sampleRun (lost : Bool) : Except Exn ReconciliationResult × World :=
  (database id sampleFind).run (sampleScript lost) (reconcileGatewayPrincipals false true) sampleWorld

theorem idle_sampleWorld : Idle sampleWorld := ⟨⟨rfl, rfl, rfl⟩, rfl, rfl, rfl⟩

theorem reconciliation_reports_truth_sample :
    (Reported sampleFind ⟨.confirmed, 1, 0, 1, 1, .success, "committed"⟩ (sampleRun false).2 ↔
      (sampleRun false).2.lost = false) ∧
    ((∀ order : List (ℕ × String), order.Perm [(1, "principal-new")] → NoConflict id sampleStore.bindings order) ↔
      TellsApart id [⟨1, 1, true, none, "principal-a", "alice"⟩] [(1, "principal-new")]) := by
  have hresult : (sampleRun false).1 = .ok ⟨.confirmed, 1, 0, 1, 1, .success, "committed"⟩ := by decide +kernel
  have hexec := (database id sampleFind).exec_run (sampleScript false) (reconcileGatewayPrincipals false true) sampleWorld
  have hphase := (database id sampleFind).exec_run (sampleScript false) phaseA sampleWorld
  have hprepared : ((database id sampleFind).run (sampleScript false) phaseA sampleWorld).1 =
      .ok ([⟨1, 1, true, none, "principal-a", "alice"⟩], [(1, "principal-new")]) := by decide +kernel
  rw [hprepared] at hphase
  refine ⟨?_, ?_⟩
  · exact (reconciliation_reports_truth id sampleFind false true).1 _ _ _ idle_sampleWorld (hresult ▸ hexec)
  · exact (reconciliation_reports_truth id sampleFind false true).2 _ _ sampleStore _ _ hphase (by decide +kernel)

/-- A commit that lands and raises is reported as aborted. -/
theorem reconciliation_misreported : ¬∀ (collate : String → String) (find : String → Except Exn (Option String))
    (w w' : World) (result : ReconciliationResult), Idle w →
      (reconcileGatewayPrincipals false true).Exec (database collate find).handler w (.ok result) w' →
        Reported find result w' := by
  intro h
  have hresult : (sampleRun true).1 = .ok ⟨.confirmed, 1, 0, 1, 0, .aborted, "db_write_failed"⟩ := by decide +kernel
  have hchanged : (sampleRun true).2.changed = [1] := by decide +kernel
  have hexec := (database id sampleFind).exec_run (sampleScript true) (reconcileGatewayPrincipals false true) sampleWorld
  have hreported := h id sampleFind sampleWorld _ _ idle_sampleWorld (hresult ▸ hexec)
  have hnone : (sampleRun true).2.changed = [] := hreported.untouched (.inl rfl)
  rw [hchanged] at hnone
  cases hnone

end Claim

end Lingsway.Ops.Principals
