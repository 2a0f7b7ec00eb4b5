import Lingsway.Api.Orders

/-!
# One order for one client request id

The unique key keeps the orders of a client request id to one. A request is
answered with it when it looks again after a conflict, as a purchase does.
-/
namespace Lingsway.Api.Orders

open Library Program

/-- What a request that has ended may have been answered: the one order of its client request
id, which is what it asked for, or an exception that is not that of the unique key. -/
def Answered (customerId : ℕ) (r : Except Exn (Entity OrderRow)) (w : State) : Prop :=
  match r with
  | .ok order => ∃ request wish, w.2.request = some request ∧ w.2.wish = some wish ∧
      w.1.orders.get order.id = some order.row ∧ order.row.customerId = customerId ∧
      order.row.clientRequestId = request.clientRequestId ∧ order.row.wish = wish
  | .error e => e ≠ uniqueViolation

section Store

variable {customerId : ℕ} {s t : Store} {w : State}

/-- Orders and requests are not forgotten. -/
structure Grows (s t : Store) : Prop where
  orders : ∀ id row, s.orders.get id = some row → t.orders.get id = some row
  asked : ∀ a ∈ s.asked, a ∈ t.asked

theorem Grows.refl (s : Store) : Grows s s := ⟨fun _ _ h => h, fun _ h => h⟩

/-- The orders are unique and as they were asked for, and the requests agree. -/
structure Invariant (customerId : ℕ) (s : Store) : Prop where
  unique : Unique s.orders
  recorded : ∀ id row, s.orders.get id = some row → row.customerId = customerId →
    (row.clientRequestId, row.wish) ∈ s.asked
  agreed : ∀ id wish wish', (id, wish) ∈ s.asked → (id, wish') ∈ s.asked → wish = wish'

/-- A transaction sees only what is committed. -/
def Sees (w : State) : Prop := ∀ seen, w.2.seen = some seen → ∀ id row, seen.get id = some row → w.1.orders.get id = some row

theorem Sees.view (h : Sees w) {id : ℕ} {row : OrderRow} (hget : (viewOf w).get id = some row) :
    w.1.orders.get id = some row := by
  unfold viewOf at hget
  cases hseen : w.2.seen with
  | none => rwa [hseen] at hget
  | some seen => exact h seen hseen id row (by rwa [hseen] at hget)

theorem Sees.grows {l : Handling} (h : Sees (s, l)) (hgrows : Grows s t) : Sees (t, l) :=
  fun seen hseen id row hget => hgrows.orders id row (h seen hseen id row hget)

theorem isOf_iff {id : String} {row : OrderRow} :
    isOf customerId id row = true ↔ row.customerId = customerId ∧ row.clientRequestId = id := by
  simp [isOf]

theorem ask_some (id : String) (wish : Wish) : s.ask id (some wish) = { s with asked := (id, wish) :: s.asked } := rfl

theorem grows_ask (id : String) (wish : Option Wish) : Grows s (s.ask id wish) where
  orders _ _ h := h
  asked _ h := List.mem_append_right _ h

/-- A request that agrees with those before it may be counted in. -/
theorem Invariant.ask (h : Invariant customerId s) {id : String} {l : Handling} (hagrees : Agrees id (s, l)) :
    Invariant customerId (s.ask id l.wish) := by
  cases hwish : l.wish with
  | none => exact h
  | some wish =>
    have hsame : ∀ wish', (id, wish') ∈ s.asked → wish' = wish := fun wish' hmem => hagrees wish wish' hwish hmem
    refine ⟨h.unique, fun i row hget hcustomer => List.mem_cons_of_mem _ (h.recorded i row hget hcustomer), ?_⟩
    intro k a b ha hb
    rw [ask_some] at ha hb
    obtain ha | ha := List.mem_cons.mp ha
    · obtain hb | hb := List.mem_cons.mp hb
      · rw [(Prod.mk.inj ha).2, (Prod.mk.inj hb).2]
      · rw [(Prod.mk.inj ha).2, hsame b ((Prod.mk.inj ha).1 ▸ hb)]
    · obtain hb | hb := List.mem_cons.mp hb
      · rw [(Prod.mk.inj hb).2, hsame a ((Prod.mk.inj hb).1 ▸ ha)]
      · exact h.agreed k a b ha hb

theorem grows_insert (row : OrderRow) : Grows s { s with orders := s.orders.insert s.orders.next row } where
  orders id r hget := by
    have hne : id ≠ s.orders.next := (Table.lt_next_of_get hget).ne
    rw [Table.get_insert, if_neg hne, hget]
  asked _ h := h

/-- An order that no other one precedes under its key keeps the key unique. -/
theorem unique_insert {orders : Table OrderRow} {row : OrderRow} (h : Unique orders)
    (hnone : orders.find (isOf row.customerId row.clientRequestId) = none) :
    Unique (orders.insert orders.next row) := by
  have hclear : ∀ id r, id ≠ orders.next → orders.get id = some r → (fun _ : OrderRow => true) r = true →
      (r.customerId, r.clientRequestId) ≠ (row.customerId, row.clientRequestId) := by
    intro id r _ hget _ heq
    have hfalse := Table.find_eq_none.mp hnone id r hget
    rw [isOf_iff.mpr (Prod.mk.inj heq)] at hfalse
    cases hfalse
  have hkey : Table.UniqueKey (Table.replaced orders.get orders.next row) (fun _ => true) fun row =>
      (row.customerId, row.clientRequestId) := (Table.uniqueKey_replaced h rfl).mpr hclear
  exact hkey

/-- The order of a key is the one that is found by it. -/
theorem find_order (h : Unique s.orders) {id : ℕ} {row : OrderRow} (hget : s.orders.get id = some row) :
    s.orders.find (isOf row.customerId row.clientRequestId) = some ⟨id, row⟩ := by
  refine Table.find_unique hget (isOf_iff.mpr ⟨rfl, rfl⟩) fun j r hr hof => ?_
  obtain ⟨hcustomer, hid⟩ := isOf_iff.mp hof
  exact h j id r row hr hget rfl rfl (by exact Prod.ext hcustomer hid)

end Store

section Contract

variable {customerId : ℕ} {i : ℕ} {s t : Store} {l : Handling} {w w' : State}

def contract (customerId : ℕ) : Contract calls Exn Store Handling where
  guarantee _ s t := Grows s t
  invariant := Invariant customerId
  absent _ _ := True
  kept _ := Sees
  safe _ _ _ _ _ := True

abbrev among (customerId i : ℕ) : Handler calls Exn State :=
  (contract customerId).handler (sessions customerId) repeated i

/-- What is known of the session, and what only grows, is not changed by the others. -/
theorem stable_of_grows {P : State → Prop} (h : ∀ s t l, Grows s t → P (s, l) → P (t, l)) :
    (contract customerId).Stable i P := fun _ s t l _ hgrows _ hP => h s t l hgrows hP

/-- A call that leaves the store alone. -/
theorem fine_same {c : Call} {x : Except Exn c.Answer} {l l' : Handling} (hinvariant : Invariant customerId s)
    (hsees : Sees (s, l')) : (contract customerId).Fine i c (s, l) x (s, l') :=
  ⟨Grows.refl s, hinvariant, hsees, trivial⟩

theorem Failure.exn_ne (failure : Failure) : failure.exn ≠ uniqueViolation := by
  cases failure <;> simp [Failure.exn, uniqueViolation, httpException]

/-- A call that reads what is not in the tables of the model. -/
theorem read_wp {c : Call} {R : Handling → Prop} {Q : Except Exn c.Answer → State → Prop}
    (hcall : ∀ choice s l, (act customerId i c choice (s, l)).2 = (s, l)) (hR : R w.2)
    (hnext : ∀ choice s l, R l → Q (act customerId i c choice (s, l)).1 (s, l)) :
    (perform c).wp (among customerId i) Q w := by
  refine Contract.perform_wp (Contract.stable_own R) (fun s l choice x w' hinvariant hkept hl hact _ => ?_) hR
  have hsame : (s, l) = w' := (hcall choice s l).symm.trans (congrArg Prod.snd hact)
  have hx : (act customerId i c choice (s, l)).1 = x := congrArg Prod.fst hact
  subst hsame
  exact ⟨fine_same hinvariant hkept, hx ▸ hnext choice s l hl⟩

end Contract

section Steps

variable {customerId i : ℕ} {request : Request} {wish : Wish} {w : State}

/-- The session of a request that asks for the wish. -/
structure Handled (request : Request) (wish : Wish) (l : Handling) : Prop where
  request : l.request = some request
  wish : l.wish = some wish

theorem handled_stable : (contract customerId).Stable i fun w => Handled request wish w.2 :=
  Contract.stable_own (Handled request wish)

/-- A look-up finds none, or the order that answers the request. -/
theorem findOrder_wp {Q : Except Exn (Option (Entity OrderRow)) → State → Prop} {P : State → Prop}
    (hP : (contract customerId).Stable i P) (hw : P w) (hhandled : Handled request wish w.2)
    (hfail : ∀ e w, e ≠ uniqueViolation → Q (.error e) w)
    (hfound : ∀ order w, Answered customerId (.ok order) w → Q (.ok (some order)) w)
    (hnone : ∀ s l, P (s, l) → Handled request wish l → (viewOf (s, l)).find (isOf customerId request.clientRequestId) = none →
      Q (.ok none) (s, { l with seen := some (viewOf (s, l)) })) :
    (perform (.findOrder request.clientRequestId)).wp (among customerId i) Q w := by
  refine Contract.perform_wp (hP.and handled_stable) ?_ ⟨hw, hhandled⟩
  rintro s l choice x w' hinvariant hkept ⟨hPl, hl⟩ hact hallowed
  simp only [sessions, act] at hact
  cases choice with
  | some failure =>
    cases hact
    exact ⟨fine_same hinvariant hkept, hfail _ _ failure.exn_ne⟩
  | none =>
    have hsees : Sees (s, { l with seen := some (viewOf (s, l)) }) := by
      intro seen hseen id row hget
      cases hseen
      exact Sees.view hkept hget
    simp only [Option.elim, findOrder] at hact
    cases hfind : (viewOf (s, l)).find (isOf customerId request.clientRequestId) with
    | none =>
      rw [hfind] at hact
      cases hact
      exact ⟨fine_same hinvariant hsees, hnone s l hPl hl hfind⟩
    | some order =>
      rw [hfind] at hact
      cases hact
      have hagrees : Agrees request.clientRequestId (s, l) := hallowed ⟨order, rfl⟩
      have hgrows := @grows_ask s request.clientRequestId l.wish
      obtain ⟨hget, hof⟩ := Table.find_some hfind
      obtain ⟨hcustomer, hid⟩ := isOf_iff.mp hof
      have hstored := Sees.view hkept hget
      have hrecorded := hinvariant.recorded _ _ hstored hcustomer
      rw [hid] at hrecorded
      refine ⟨⟨hgrows, hinvariant.ask hagrees, hsees.grows hgrows, trivial⟩, hfound _ _ ?_⟩
      exact ⟨request, wish, hl.request, hl.wish, hstored, hcustomer, hid, hagrees _ _ hl.wish hrecorded⟩

/-- The order that the request inserts. -/
structure Wanted (customerId : ℕ) (request : Request) (wish : Wish) (row : OrderRow) : Prop where
  customer : row.customerId = customerId
  id : row.clientRequestId = request.clientRequestId
  wish : row.wish = wish

/-- There is an order of the request's key. -/
def Taken (customerId : ℕ) (request : Request) (s : Store) : Prop :=
  ∃ id row, s.orders.get id = some row ∧ isOf customerId request.clientRequestId row = true

/-- The order is stored, and the session has no transaction. -/
structure Stored (row : OrderRow) (id : ℕ) (w : State) : Prop where
  stored : w.1.orders.get id = some row
  seen : w.2.seen = none

theorem stored_stable {row : OrderRow} {id : ℕ} : (contract customerId).Stable i (Stored row id) :=
  stable_of_grows fun _ _ _ hgrows h => ⟨hgrows.orders id row h.stored, h.seen⟩

/-- An insert stores the order, meets one of its key, which no renewal does, or fails otherwise. -/
theorem insertOrder_wp {row : OrderRow} {Q : Except Exn ℕ → State → Prop} (hrow : Wanted customerId request wish row)
    (hhandled : Handled request wish w.2)
    (hdone : ∀ id w, Stored row id w → Handled request wish w.2 → Q (.ok id) w)
    (hfail : ∀ e w, e ≠ uniqueViolation → Handled request wish w.2 → Q (.error e) w)
    (hconflict : ∀ w, request.isRenewal = false → Taken customerId request w.1 → Handled request wish w.2 →
      Q (.error uniqueViolation) w) :
    (perform (.insertOrder row)).wp (among customerId i) Q w := by
  refine Contract.perform_wp handled_stable ?_ hhandled
  rintro s l choice x w' hinvariant hkept hl hact ⟨hagrees, hrenewal⟩
  have hasked := hinvariant.ask hagrees
  have hgrows := @grows_ask s row.clientRequestId l.wish
  have hrefused : (contract customerId).Fine i (.insertOrder row) (s, l) x
      ({ s.ask row.clientRequestId l.wish with orders := s.orders.reserve }, l) :=
    ⟨⟨fun _ _ h => h, hgrows.asked⟩, ⟨hasked.unique, hasked.recorded, hasked.agreed⟩, hkept, trivial⟩
  simp only [sessions, act, insertOrder] at hact
  cases hfind : s.orders.find (isOf row.customerId row.clientRequestId) with
  | some order =>
    rw [if_pos (by exact Option.isSome_iff_exists.mpr ⟨order, hfind⟩)] at hact
    cases hact
    have hpurchase : request.isRenewal = false := by
      by_contra hne
      have hnone := hrenewal request hl.request (by simpa using hne)
      dsimp only at hnone
      rw [hfind] at hnone
      cases hnone
    obtain ⟨hget, hof⟩ := Table.find_some hfind
    refine ⟨hrefused, hconflict _ hpurchase ⟨order.id, order.row, hget, ?_⟩ hl⟩
    rw [hrow.customer, hrow.id] at hof
    exact hof
  | none =>
    rw [if_neg (by simp [Store.ask, hfind])] at hact
    split_ifs at hact with hnumber
    · cases hact
      exact ⟨hrefused, hfail _ _ (by decide) hl⟩
    · have hinsert : (contract customerId).guarantee i s
          { s.ask row.clientRequestId l.wish with orders := s.orders.insert s.orders.next row } :=
        ⟨(grows_insert row).orders, hgrows.asked⟩
      have hstored : Invariant customerId
          { s.ask row.clientRequestId l.wish with orders := s.orders.insert s.orders.next row } := by
        refine ⟨unique_insert hinvariant.unique hfind, fun id r hget hcustomer => ?_, hasked.agreed⟩
        rw [Table.get_insert] at hget
        split_ifs at hget with hnew
        · cases hget
          rw [hrow.wish, hl.wish]
          exact List.mem_cons_self
        · exact hasked.recorded id r hget hcustomer
      have hget : (s.orders.insert s.orders.next row).get s.orders.next = some row := if_pos rfl
      cases choice with
      | done =>
        cases hact
        refine ⟨⟨hinsert, hstored, ?_, trivial⟩, hdone _ _ ⟨hget, rfl⟩ ⟨hl.request, hl.wish⟩⟩
        intro seen hseen
        cases hseen
      | lost message =>
        cases hact
        exact ⟨⟨hinsert, hstored, Sees.grows hkept hinsert, trivial⟩, hfail _ _ (Failure.operational message).exn_ne hl⟩
      | failed message =>
        cases hact
        exact ⟨hrefused, hfail _ _ (Failure.operational message).exn_ne hl⟩

/-- What is read again is the order that was stored. -/
theorem refresh_wp {row : OrderRow} {id : ℕ} (hrow : Wanted customerId request wish row) (hstored : Stored row id w)
    (hhandled : Handled request wish w.2) :
    (perform (.refresh id)).wp (among customerId i) (Answered customerId) w := by
  refine Contract.perform_wp (stored_stable.and handled_stable) ?_ ⟨hstored, hhandled⟩
  rintro s l choice x w' hinvariant hkept ⟨hs, hl⟩ hact -
  simp only [sessions, act] at hact
  cases choice with
  | some failure =>
    cases hact
    exact ⟨fine_same hinvariant hkept, failure.exn_ne⟩
  | none =>
    have hview : viewOf (s, l) = s.orders := by
      rw [viewOf, hs.seen]
      rfl
    have hget : s.orders.get id = some row := hs.stored
    simp only [Option.elim, refresh, hview, hget] at hact
    cases hact
    refine ⟨fine_same hinvariant ?_, ⟨request, wish, hl.request, hl.wish, hs.stored, hrow.customer, hrow.id, hrow.wish⟩⟩
    intro seen hseen id' row' hget
    cases hseen
    exact hget

/-- After a conflict the request is answered with the order that was there. -/
theorem recoverOrder_wp {exc : Exn} (hexc : exc = uniqueViolation → Taken customerId request w.1)
    (hhandled : Handled request wish w.2) :
    (recoverOrder request.clientRequestId exc).wp (among customerId i) (Answered customerId) w := by
  have htaken : (contract customerId).Stable i fun w => exc = uniqueViolation → Taken customerId request w.1 := by
    refine stable_of_grows fun s t l hgrows h heq => ?_
    obtain ⟨id, row, hget, hof⟩ := h heq
    exact ⟨id, row, hgrows.orders id row hget, hof⟩
  rw [recoverOrder, wp_bind]
  refine Contract.perform_wp (htaken.and handled_stable) ?_ ⟨hexc, hhandled⟩
  rintro s l choice x w' hinvariant hkept ⟨hs, hl⟩ hact -
  have hfresh : Sees (s, { l with seen := none }) := by
    intro seen hseen
    cases hseen
  cases hact
  refine ⟨fine_same hinvariant hfresh, ?_⟩
  cases choice with
  | some failure => exact failure.exn_ne
  | none =>
    have hunseen : (contract customerId).Stable i fun w => (exc = uniqueViolation → Taken customerId request w.1) ∧
        w.2.seen = none := htaken.and (Contract.stable_own fun l : Handling => l.seen = none)
    refine (iff_of_eq (wp_bind _ _ _ _ _)).mpr ?_
    refine findOrder_wp hunseen ⟨hs, rfl⟩ ⟨hl.request, hl.wish⟩ (fun e w h => h) (fun order w h => h) ?_
    rintro s' l' ⟨hs', hseen⟩ hl' hnone
    intro heq
    obtain ⟨id, row, hget, hof⟩ := hs' heq
    have hview : viewOf (s', l') = s'.orders := by
      rw [viewOf, hseen]
      rfl
    rw [hview] at hnone
    rw [Table.find_eq_none.mp hnone id row hget] at hof
    cases hof

end Steps

section Endpoints

variable {customerId i : ℕ} {request : Request} {wish : Wish} {w : State}

/-- What a purchase, or a renewal, says when it is turned down. -/
def Rejects {α : Type} (x : Except Exn α) : Prop := ∀ e, x = .error e → e ≠ uniqueViolation

theorem rejects_guardCapacity (capacity : CapacityDTO) (plan : PlanRow) : Rejects (guardCapacity capacity plan) := by
  intro e h
  unfold guardCapacity at h
  cases hensure : Domain.ensureCapacity capacity (Domain.planQuotaGb plan.trafficLimitBytes) with
  | ok a =>
    rw [hensure] at h
    cases h
  | error exc =>
    rw [hensure] at h
    cases h
    obtain rfl | ⟨hcls, -⟩ := Domain.ensureCapacity_error hensure
    · simp [Domain.capacityExceeded, httpException, uniqueViolation]
    · split_ifs with hcapacity
      · rw [hcls] at hcapacity
        cases hcapacity
      · intro heq
        rw [heq] at hcls
        cases hcls

theorem rejects_availablePlan (plan : Option PlanRow) : Rejects (availablePlan plan) := by
  intro e h
  unfold availablePlan at h
  split at h
  · cases h
    simp [httpException, uniqueViolation]
  · cases h

theorem rejects_sellablePlan (plan : Option PlanRow) : Rejects (sellablePlan plan) := by
  intro e h
  unfold sellablePlan at h
  split at h
  · cases h
    simp [httpException, uniqueViolation]
  · split_ifs at h
    cases h
    simp [httpException, uniqueViolation]

theorem availablePlan_ok {plan : Option PlanRow} {p : PlanRow} (h : availablePlan plan = .ok p) : plan = some p := by
  unfold availablePlan at h
  split at h
  · cases h
  · rename_i found hfilter
    cases h
    exact (Option.filter_eq_some_iff.mp hfilter).1

theorem sellablePlan_ok {plan : Option PlanRow} {p : PlanRow} (h : sellablePlan plan = .ok p) : plan = some p := by
  unfold sellablePlan at h
  split at h
  · cases h
  · split_ifs at h
    cases h
    rfl

/-- A plan is read under the identifier it is asked for. -/
theorem getPlan_wp {id : ℤ} {R : Handling → Prop} {Q : Except Exn (Option PlanRow) → State → Prop} (hR : R w.2)
    (hfail : ∀ e w, e ≠ uniqueViolation → Q (.error e) w)
    (hread : ∀ plan w, (∀ p, plan = some p → p.id = id) → R w.2 → Q (.ok plan) w) :
    (perform (.getPlan id)).wp (among customerId i) Q w := by
  refine read_wp (R := R) (fun _ _ _ => rfl) hR fun choice s l hl => ?_
  cases choice with
  | error failure => exact hfail _ _ failure.exn_ne
  | ok plan =>
    refine hread _ _ (fun p hp => ?_) hl
    obtain ⟨found, -, rfl⟩ := Option.map_eq_some_iff.mp hp
    rfl

theorem checkPurchase_wp {planId : ℤ} {R : Handling → Prop} {Q : Except Exn PlanRow → State → Prop} (hR : R w.2)
    (hfail : ∀ e w, e ≠ uniqueViolation → Q (.error e) w)
    (hchecked : ∀ plan w, plan.id = planId → R w.2 → Q (.ok plan) w) :
    (checkPurchase planId).wp (among customerId i) Q w := by
  rw [checkPurchase, wp_bind]
  refine getPlan_wp hR hfail fun found w hid hR => ?_
  rw [bindPost_ok, wp_bind, wp_ofExcept]
  cases havailable : availablePlan found with
  | error e => exact hfail e w (rejects_availablePlan found e havailable)
  | ok plan =>
    have hplan := hid plan (availablePlan_ok havailable)
    rw [bindPost_ok, wp_bind]
    refine read_wp (R := R) (fun _ _ _ => rfl) hR fun choice s l hl => ?_
    cases choice with
    | error failure => exact hfail _ _ failure.exn_ne
    | ok capacity =>
      refine (iff_of_eq (wp_bind _ _ _ _ _)).mpr ?_
      rw [wp_ofExcept]
      cases hguard : guardCapacity capacity plan with
      | error e => exact hfail e _ (rejects_guardCapacity capacity plan e hguard)
      | ok _ =>
        rw [bindPost_ok, wp_bind]
        refine read_wp (R := R) (fun _ _ _ => rfl) hl fun choice s l hl => ?_
        cases choice with
        | error failure => exact hfail _ _ failure.exn_ne
        | ok count =>
          refine (wp_ite _ _ _ _ _ _).mpr ⟨fun _ => ?_, fun _ => hchecked plan _ hplan hl⟩
          exact hfail _ _ (by simp [httpException, uniqueViolation])

theorem placeOrder_wp {planId : ℤ} {id : String} (hw : Handled (.purchase planId id) ⟨"PURCHASE", planId, none⟩ w.2) :
    (placeOrder customerId planId id).wp (among customerId i) (Answered customerId) w := by
  rw [placeOrder, wp_bind]
  refine findOrder_wp (P := fun _ => True) (fun _ _ _ _ _ _ _ h => h) trivial hw (fun e w h => h) (fun order w h => h) ?_
  intro s l _ hl _
  rw [bindPost_ok]
  dsimp only
  rw [wp_bind]
  refine checkPurchase_wp (R := Handled (.purchase planId id) ⟨"PURCHASE", planId, none⟩) ⟨hl.request, hl.wish⟩
    (fun e w h => h) fun plan w hplan hl => ?_
  rw [bindPost_ok, wp_bind]
  refine read_wp (R := Handled (.purchase planId id) ⟨"PURCHASE", planId, none⟩) (fun _ _ _ => rfl) hl ?_
  intro orderNo s l hl
  refine (iff_of_eq (wp_bind _ _ _ _ _)).mpr ?_
  rw [wp_attempt]
  have hrow : Wanted customerId (.purchase planId id) ⟨"PURCHASE", planId, none⟩
      (newOrder orderNo customerId plan none id "PURCHASE") := ⟨rfl, rfl, by rw [← hplan]; rfl⟩
  refine insertOrder_wp hrow hl (fun id w hstored hl => refresh_wp hrow hstored hl) (fun e w hne hl => ?_) ?_
  · refine (wp_ite _ _ _ _ _ _).mpr ⟨fun _ => ?_, fun _ => hne⟩
    exact @recoverOrder_wp customerId _ (.purchase planId id) _ w e (fun heq => absurd heq hne) hl
  · intro w _ htaken hl
    refine (wp_ite _ _ _ _ _ _).mpr ⟨fun _ => ?_, fun hnot => absurd rfl hnot⟩
    exact @recoverOrder_wp customerId _ (.purchase planId id) _ w uniqueViolation (fun _ => htaken) hl

theorem createRenewalOrderFor_wp {subscriptionId : ℤ} {subscription : SubscriptionRow} {planId : Option ℤ} {id : String}
    (hw : Handled (.renewal subscriptionId planId id)
      ⟨"RENEWAL", chosenPlan planId subscription, some subscriptionId⟩ w.2) :
    (createRenewalOrderFor customerId subscriptionId subscription planId id).wp (among customerId i)
      (Answered customerId) w := by
  rw [createRenewalOrderFor, wp_bind]
  refine findOrder_wp (P := fun _ => True) (fun _ _ _ _ _ _ _ h => h) trivial hw (fun e w h => h) (fun order w h => h) ?_
  intro s l _ hl _
  rw [bindPost_ok]
  dsimp only
  rw [wp_bind]
  refine getPlan_wp (R := Handled (.renewal subscriptionId planId id)
    ⟨"RENEWAL", chosenPlan planId subscription, some subscriptionId⟩) ⟨hl.request, hl.wish⟩ (fun e w h => h) ?_
  intro found w hid hl
  rw [bindPost_ok, wp_bind, wp_ofExcept]
  cases hsellable : sellablePlan found with
  | error e => exact rejects_sellablePlan found e hsellable
  | ok plan =>
    have hplan := hid plan (sellablePlan_ok hsellable)
    rw [bindPost_ok, wp_bind]
    refine read_wp (R := Handled (.renewal subscriptionId planId id)
      ⟨"RENEWAL", chosenPlan planId subscription, some subscriptionId⟩) (fun _ _ _ => rfl) hl ?_
    intro orderNo s l hl
    refine (iff_of_eq (wp_bind _ _ _ _ _)).mpr ?_
    have hrow : Wanted customerId (.renewal subscriptionId planId id)
        ⟨"RENEWAL", chosenPlan planId subscription, some subscriptionId⟩
        (newOrder orderNo customerId plan (some subscriptionId) id "RENEWAL") := ⟨rfl, rfl, by rw [← hplan]; rfl⟩
    refine insertOrder_wp hrow hl (fun id w hstored hl => refresh_wp hrow hstored hl) (fun e w hne _ => hne) ?_
    intro w hpurchase
    cases hpurchase

theorem createRenewalOrder_wp {subscriptionId : ℤ} {planId : Option ℤ} {id : String}
    (hw : w.2.request = some (.renewal subscriptionId planId id)) :
    (createRenewalOrder customerId subscriptionId planId id).wp (among customerId i) (Answered customerId) w := by
  rw [createRenewalOrder, wp_bind, ownedSubscription, wp_bind]
  refine Contract.perform_wp
    (Contract.stable_own fun l : Handling => l.request = some (.renewal subscriptionId planId id)) ?_ hw
  rintro s l choice x w' hinvariant hkept hl hact -
  cases hact
  refine ⟨fine_same hinvariant hkept, ?_⟩
  cases choice with
  | error failure => exact failure.exn_ne
  | ok found =>
    dsimp only [endedBy]
    rw [bindPost_ok]
    cases howned : found.filter fun subscription => subscription.customerId = customerId with
    | none =>
      dsimp only
      exact (by simp [httpException, uniqueViolation] : httpException 404 "Subscription not found" ≠ uniqueViolation)
    | some subscription =>
      obtain rfl := (Option.filter_eq_some_iff.mp howned).1
      exact createRenewalOrderFor_wp ⟨hl, by rw [Handling.wish, hl]; rfl⟩

theorem handle_wp (s : Store) : (handle customerId).wp (among customerId i) (Answered customerId) (s, Handling.begin) := by
  rw [handle, wp_bind]
  refine Contract.perform_wp (Contract.stable_own fun l : Handling => l = Handling.begin) ?_ rfl
  rintro s l request x w' hinvariant hkept hl hact -
  cases hact
  refine ⟨fine_same hinvariant hkept, ?_⟩
  refine (iff_of_eq (wp_bind _ _ _ _ _)).mpr ?_
  refine Contract.perform_wp (Contract.stable_own fun l : Handling => l.request = some request) ?_ rfl
  rintro s l choice x w' hinvariant hkept hl hact -
  cases hact
  have hsees : Sees (s, { l with seen := some (viewOf (s, l)) }) := by
    intro seen hseen id row hget
    cases hseen
    exact Sees.view hkept hget
  refine ⟨fine_same hinvariant hsees, ?_⟩
  cases choice with
  | some failure => exact failure.exn_ne
  | none =>
    cases request with
    | purchase planId id => exact placeOrder_wp ⟨hl, by rw [Handling.wish, hl]⟩
    | renewal subscriptionId planId id => exact createRenewalOrder_wp hl

end Endpoints

section Runs

variable {customerId : ℕ} {K : Conduct calls Exn Store Handling} {g : Requests}

theorem answered_stable (i : ℕ) (r : Except Exn (Entity OrderRow)) :
    (contract customerId).Stable i (Answered customerId r) := by
  refine stable_of_grows fun s t l hgrows h => ?_
  cases r with
  | error e => exact h
  | ok order =>
    obtain ⟨request, wish, hrequest, hwish, hget, hrest⟩ := h
    exact ⟨request, wish, hrequest, hwish, hgrows.orders _ _ hget, hrest⟩

theorem sound : (contract customerId).Sound (sessions customerId) repeated (handle customerId) Handling.begin
    fun _ => Answered customerId where
  kept_stable _ := stable_of_grows fun _ _ _ hgrows h => Sees.grows h hgrows
  ended_stable := answered_stable
  absent_stable _ _ _ _ _ _ _ _ := trivial
  begin_kept _ _ _ _ seen hseen := by cases hseen
  verified _ s _ _ := handle_wp s
  crash_leaves _ s _ hinvariant hkept _ := ⟨Grows.refl s, hinvariant, hkept⟩
  ended_leaves _ _ s _ hinvariant hkept h := ⟨Grows.refl s, hinvariant, hkept, h⟩

theorem Start.invariant {s : Store} (h : Start customerId s) : Invariant customerId s where
  unique := h.1
  recorded id row hget hcustomer := by
    rw [h.2]
    exact List.mem_map.mpr ⟨⟨id, row⟩, List.mem_filter.mpr ⟨Table.mem_entities.mpr hget, by simpa using hcustomer⟩, rfl⟩
  agreed id wish wish' hwish hwish' := by
    rw [h.2] at hwish hwish'
    obtain ⟨e, he, heq⟩ := List.mem_map.mp hwish
    obtain ⟨e', he', heq'⟩ := List.mem_map.mp hwish'
    rw [List.mem_filter, Table.mem_entities, decide_eq_true_eq] at he he'
    obtain ⟨hid, rfl⟩ := Prod.mk.inj heq
    obtain ⟨hid', rfl⟩ := Prod.mk.inj heq'
    have hsame : e.id = e'.id := h.1 _ _ _ _ he.1 he'.1 rfl rfl
      (Prod.ext (he.2.trans he'.2.symm) (hid.trans hid'.symm))
    have hget := he.1
    rw [hsame, he'.1] at hget
    rw [Option.some.inj hget]

theorem unique_insertOrder {row : OrderRow} {commit : CommitEnd} {w : State} (h : Unique w.1.orders) :
    Unique (insertOrder row commit w).2.1.orders := by
  unfold insertOrder
  dsimp only
  split_ifs with hconflict hnumber
  · exact h
  · exact h
  · rw [Bool.not_eq_true, Option.isSome_eq_false_iff, Option.isNone_iff_eq_none] at hconflict
    cases commit with
    | done => exact unique_insert h hconflict
    | lost message => exact unique_insert h hconflict
    | failed message => exact h

/-- No call makes a second order of a key. -/
theorem unique_act {i : ℕ} {c : Call} {choice : c.Choice} {w : State} (h : Unique w.1.orders) :
    Unique (act customerId i c choice w).2.1.orders := by
  cases c with
  | insertOrder row => exact unique_insertOrder h
  | findOrder id =>
    simp only [act]
    cases choice with
    | some failure => exact h
    | none =>
      simp only [Option.elim, findOrder]
      split <;> exact h
  | refresh id =>
    simp only [act]
    cases choice with
    | some failure => exact h
    | none =>
      simp only [Option.elim, refresh]
      split <;> exact h
  | _ => exact h

theorem unique_of_act {i : ℕ} {c : Call} {choice : c.Choice} {s : Store} {l : Handling} {x : Except Exn c.Answer}
    {w' : State} (hact : (sessions customerId).act i c choice (s, l) = (x, w')) (h : Unique s.orders) :
    Unique w'.1.orders := by
  have hw' : (act customerId i c choice (s, l)).2 = w' := congrArg Prod.snd hact
  exact hw' ▸ unique_act (w := (s, l)) h

theorem unique_of_reachable (h : ReachableBy K customerId g) : Unique g.shared.orders := by
  induction h with
  | start h => exact h.1
  | step _ hstep ih =>
    cases hstep with
    | spawn i hnone => exact ih
    | call choice hprocess hact hallowed =>
      exact unique_of_act hact ih
    | ret hprocess => exact ih
    | raise hprocess => exact ih
    | crash hprocess hallowed => exact ih

/-- There is at most one order of a client request id in every run. Where requests of one id
that get past validation agree, and no renewal inserts where an order of its id has come
meanwhile, every request is answered with that order, and with what it asked for. -/
theorem orders_idempotent (customerId : ℕ) :
    (∀ K g, ReachableBy K customerId g → Unique g.shared.orders) ∧
    ∀ g, ReachableBy repeated customerId g → ∀ i q r, g.process i = some q → q.phase = .ended r →
      Answered customerId r (g.shared, q.own) := by
  refine ⟨fun K g h => unique_of_reachable h, fun g h i q r hprocess hended => ?_⟩
  have hgood := Contract.good_of_reachable sound (fun s hs => ⟨hs.invariant, fun _ => trivial⟩)
    (fun _ s _ => Grows.refl s) h
  have hstanding := hgood.standing i q hprocess
  rw [hended] at hstanding
  exact hstanding

def samplePlan : PlanRow := ⟨5, "PLAN_50GB", true, 53687091200, .ofInt 30, "CNY"⟩

/-- Nothing fails. Where the order is not to be inserted yet, the request waits. -/
def sampleScript (request : Request) (orderNo : String) (insert : Bool) : (c : Call) → Option c.Choice
  | .receive => some request
  | .authenticate => some none
  | .getSubscription _ => some (.ok (some ⟨1, 5⟩))
  | .findOrder _ => some none
  | .getPlan _ => some (.ok (some samplePlan))
  | .capacity => some (.ok ⟨.ofInt 1000, .ofInt 0, .ofInt 0⟩)
  | .availableIpCount => some (.ok 1)
  | .publicNumber => some orderNo
  | .insertOrder _ => if insert then some .done else none
  | .rollback => some none
  | .refresh _ => some none

def sampleStore : Store := ⟨Table.empty, []⟩

theorem start_sampleStore : Start 1 sampleStore := by
  refine ⟨fun i j r t hr => ?_, rfl⟩
  cases hr

/-- The order that the purchase of the sample makes. -/
def sampleOrder : Entity OrderRow := ⟨0, newOrder "ORD-1" 1 samplePlan none "request-1" "PURCHASE"⟩

def samplePurchase : Work (Entity OrderRow) × State :=
  (sessions 1).play 0 (sampleScript (.purchase 5 "request-1") "ORD-1" true) 20 (handle 1) (sampleStore, Handling.begin)

theorem playAllowed_samplePurchase : (sessions 1).PlayAllowed repeated 0
    (sampleScript (.purchase 5 "request-1") "ORD-1" true) 20 (handle 1) (sampleStore, Handling.begin) := by
  refine ⟨trivial, trivial, ?_, trivial, trivial, trivial, trivial, ⟨?_, ?_⟩, trivial, trivial⟩
  · rintro ⟨existing, hfound⟩
    cases hfound
  · intro wish wish' _ hasked
    cases hasked
  · intro request hrequest hrenewal
    cases hrequest
    cases hrenewal

theorem orders_idempotent_sample : Unique samplePurchase.2.1.orders ∧
    Answered 1 (.ok sampleOrder) samplePurchase.2 := by
  have hstart : ReachableBy repeated 1 (.start sampleStore) := .start start_sampleStore
  have hbegun := hstart.begun 0 rfl
  have hplayed := hbegun.played (sampleScript (.purchase 5 "request-1") "ORD-1" true)
    (Configuration.process_update_self _ 0 _ _) 20 playAllowed_samplePurchase
  have hret : samplePurchase.1 = .ret sampleOrder := by rfl
  have hended := hplayed.step (.ret (i := 0) (a := sampleOrder) (l := samplePurchase.2.2) ?_)
  · exact ⟨(orders_idempotent 1).1 repeated _ hplayed,
      (orders_idempotent 1).2 _ hended 0 _ (.ok sampleOrder) (Configuration.process_update_self _ 0 _ _) rfl⟩
  · rw [← hret]
    exact Configuration.process_update_self _ 0 _ _

/-- Two renewals of one client request id look before either has inserted. -/
theorem renewal_refused : ¬∀ g, ReachableBy unrestricted 1 g → ∀ i q r, g.process i = some q → q.phase = .ended r →
    Answered 1 r (g.shared, q.own) := by
  intro h
  have hstart : ReachableBy unrestricted 1 (.start sampleStore) := .start start_sampleStore
  have hbegun := hstart.begun 0 rfl
  have hwaiting := hbegun.played (sampleScript (.renewal 3 none "request-1") "ORD-1" false)
    (Configuration.process_update_self _ 0 _ _) 20
    (Agents.playAllowed_of_all (fun _ _ _ _ _ _ _ => trivial) _ _ _)
  have hsecond := hwaiting.begun 1 rfl
  have hother := hsecond.played (sampleScript (.renewal 3 none "request-1") "ORD-2" true)
    (Configuration.process_update_self _ 1 _ _) 20
    (Agents.playAllowed_of_all (fun _ _ _ _ _ _ _ => trivial) _ _ _)
  have hfirst := hother.played (i := 0) (sampleScript (.renewal 3 none "request-1") "ORD-1" true) rfl 20
    (Agents.playAllowed_of_all (fun _ _ _ _ _ _ _ => trivial) _ _ _)
  have hended := hfirst.step (.raise (i := 0) (e := uniqueViolation) rfl)
  exact h _ hended 0 _ _ (Configuration.process_update_self _ 0 _ _) rfl rfl

end Runs

end Lingsway.Api.Orders
