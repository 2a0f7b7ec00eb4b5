import Lingsway.Library.Reading
import Lingsway.Scripts.AutomergeGate

/-!
# Soundness of the gate

A merge needs every condition, in whatever order the reviews and the check runs are
listed, exactly when the latest verdicts agree and the document does not lift the
list of required workflows.
-/
namespace Lingsway.AutomergeGate

open Library

section Latest

variable {verdicts : List ScopedReview} {a b r : ScopedReview}

/-- No verdict is later. -/
def Newest (verdicts : List ScopedReview) (a : ScopedReview) : Prop := ∀ v ∈ verdicts, v.submittedAt ≤ a.submittedAt

/-- The latest verdicts say the same. -/
def Agreed (verdicts : List ScopedReview) : Prop :=
  ∀ a ∈ verdicts, ∀ b ∈ verdicts, Newest verdicts a → Newest verdicts b → a.verdict = b.verdict

theorem foldl_laterOf (h : verdicts.foldl laterOf (some b) = some r) :
    (r = b ∨ r ∈ verdicts) ∧ b.submittedAt ≤ r.submittedAt ∧ Newest verdicts r := by
  induction verdicts generalizing b with
  | nil =>
    cases h
    exact ⟨.inl rfl, le_rfl, fun v hv => by cases hv⟩
  | cons v verdicts ih =>
    rw [List.foldl_cons, laterOf] at h
    split_ifs at h with hlt
    · obtain ⟨hmem, hle, hnewest⟩ := ih h
      refine ⟨.inr ?_, hlt.le.trans hle, ?_⟩
      · obtain rfl | hmem := hmem
        · exact List.mem_cons_self
        · exact List.mem_cons_of_mem _ hmem
      · intro w hw
        obtain rfl | hw := List.mem_cons.mp hw
        · exact hle
        · exact hnewest w hw
    · obtain ⟨hmem, hle, hnewest⟩ := ih h
      refine ⟨?_, hle, ?_⟩
      · obtain rfl | hmem := hmem
        · exact .inl rfl
        · exact .inr (List.mem_cons_of_mem _ hmem)
      · intro w hw
        obtain rfl | hw := List.mem_cons.mp hw
        · exact (not_lt.mp hlt).trans hle
        · exact hnewest w hw

theorem latest_some (h : latest verdicts = some r) : r ∈ verdicts ∧ Newest verdicts r := by
  cases verdicts with
  | nil => cases h
  | cons v verdicts =>
    obtain ⟨hmem, hle, hnewest⟩ := foldl_laterOf (b := v) h
    refine ⟨List.mem_cons.mpr hmem, ?_⟩
    intro w hw
    obtain rfl | hw := List.mem_cons.mp hw
    · exact hle
    · exact hnewest w hw

theorem foldl_laterOf_isSome : ∃ r, verdicts.foldl laterOf (some b) = some r := by
  induction verdicts generalizing b with
  | nil => exact ⟨b, rfl⟩
  | cons v verdicts ih =>
    rw [List.foldl_cons, laterOf]
    split_ifs
    · exact ih
    · exact ih

theorem latest_isSome (h : verdicts ≠ []) : ∃ r, latest verdicts = some r := by
  cases verdicts with
  | nil => exact absurd rfl h
  | cons v verdicts => exact foldl_laterOf_isSome (b := v)

/-- A newest verdict that is listed first is the one that counts. -/
theorem latest_first (h : Newest (a :: verdicts) a) : latest (a :: verdicts) = some a := by
  have hkeep : ∀ vs : List ScopedReview, Newest vs a → vs.foldl laterOf (some a) = some a := by
    intro vs hvs
    induction vs with
    | nil => rfl
    | cons v vs ih =>
      have hle := hvs v List.mem_cons_self
      rw [List.foldl_cons, laterOf, if_neg (not_lt.mpr hle)]
      exact ih fun w hw => hvs w (List.mem_cons_of_mem _ hw)
  exact hkeep verdicts fun w hw => h w (List.mem_cons_of_mem _ hw)

theorem Newest.perm {verdicts' : List ScopedReview} (hperm : verdicts.Perm verdicts') (h : Newest verdicts a) :
    Newest verdicts' a := fun v hv => h v (hperm.mem_iff.mpr hv)

theorem Agreed.perm {verdicts' : List ScopedReview} (hperm : verdicts.Perm verdicts') (h : Agreed verdicts) :
    Agreed verdicts' := by
  intro a ha b hb hna hnb
  exact h a (hperm.mem_iff.mpr ha) b (hperm.mem_iff.mpr hb) (hna.perm hperm.symm) (hnb.perm hperm.symm)

end Latest

section Gate

variable (u : Unicode) (f : Facts) (d : Reading)

theorem foldl_iff {α : Type} (P : Gate → Prop) (Q : α → Prop) (step : Gate → α → Gate)
    (h : ∀ g a, P (step g a) ↔ P g ∧ Q a) (xs : List α) (g : Gate) : P (xs.foldl step g) ↔ P g ∧ ∀ x ∈ xs, Q x := by
  induction xs generalizing g with
  | nil => simp
  | cons x xs ih =>
    rw [List.foldl_cons, ih, h]
    simp [and_assoc]

theorem blocks_evaluateRun (g : Gate) (run : CheckRun) : (evaluateRun g run).blocks = [] ↔
    g.blocks = [] ∧ (run.status = "completed" → run.conclusion ∈ passingConclusions) := by
  unfold evaluateRun
  by_cases hstatus : run.status = "completed"
  · by_cases hconclusion : run.conclusion ∈ passingConclusions
    · simp [hstatus, hconclusion]
    · simp [hstatus, hconclusion]
  · simp [hstatus]

theorem waits_evaluateRun (g : Gate) (run : CheckRun) : (evaluateRun g run).waits = [] ↔
    g.waits = [] ∧ run.status = "completed" := by
  unfold evaluateRun
  by_cases hstatus : run.status = "completed"
  · by_cases hconclusion : run.conclusion ∈ passingConclusions
    · simp [hstatus, hconclusion]
    · simp [hstatus, hconclusion]
  · simp [hstatus]

theorem blocks_evaluateWorkflow (runs : List CheckRun) (g : Gate) (workflow : Json) :
    (evaluateWorkflow u runs g workflow).blocks = g.blocks := by
  unfold evaluateWorkflow
  split_ifs
  · rfl
  · rfl

theorem waits_evaluateWorkflow (runs : List CheckRun) (g : Gate) (workflow : Json) :
    (evaluateWorkflow u runs g workflow).waits = [] ↔
      g.waits = [] ∧ workflow ∈ runs.map fun run => Json.str run.workflow := by
  unfold evaluateWorkflow
  by_cases hmem : workflow ∈ runs.map fun run => Json.str run.workflow
  · rw [if_pos hmem]
    exact ⟨fun h => ⟨h, hmem⟩, fun h => h.1⟩
  · rw [if_neg hmem]
    exact ⟨fun h => absurd h (Gate.waits_wait g _ _), fun h => absurd h.2 hmem⟩

theorem blocks_evaluateChecks (g : Gate) (workflows : List Json) (runs : List CheckRun) :
    (evaluateChecks u g workflows runs).blocks = [] ↔
      g.blocks = [] ∧ ∀ run ∈ runs, run.status = "completed" → run.conclusion ∈ passingConclusions := by
  have hruns := foldl_iff (fun g => g.blocks = []) _ evaluateRun blocks_evaluateRun runs
    (workflows.foldl (evaluateWorkflow u runs) g)
  have hworkflows := foldl_iff (fun g => g.blocks = []) (fun _ => True) (evaluateWorkflow u runs)
    (fun g w => by simp only [blocks_evaluateWorkflow, and_true]) workflows g
  simp only [implies_true, and_true] at hworkflows
  rw [hworkflows] at hruns
  exact hruns

theorem waits_evaluateChecks (g : Gate) (workflows : List Json) (runs : List CheckRun) :
    (evaluateChecks u g workflows runs).waits = [] ↔
      (g.waits = [] ∧ ∀ w ∈ workflows, w ∈ runs.map fun run => Json.str run.workflow) ∧
        ∀ run ∈ runs, run.status = "completed" := by
  have hruns := foldl_iff (fun g => g.waits = []) _ evaluateRun waits_evaluateRun runs
    (workflows.foldl (evaluateWorkflow u runs) g)
  rw [foldl_iff (fun g => g.waits = []) _ (evaluateWorkflow u runs) (waits_evaluateWorkflow u runs)] at hruns
  exact hruns

/-- The switch file reads true. -/
def SwitchedOn : Prop := f.automergeSwitch ≠ .null ∧ Text.strip (f.automergeSwitch.text u.quote) = "true"

theorem blocks_evaluateSwitch (g : Gate) : (evaluateSwitch u g f).blocks = [] ↔ g.blocks = [] ∧ SwitchedOn u f := by
  unfold evaluateSwitch SwitchedOn
  by_cases habsent : f.automergeSwitch = .null
  · simp [habsent]
  · by_cases htrue : Text.strip (f.automergeSwitch.text u.quote) = "true"
    · simp [habsent, htrue]
    · simp [habsent, htrue]

theorem waits_evaluateSwitch (g : Gate) : (evaluateSwitch u g f).waits = g.waits := by
  unfold evaluateSwitch
  by_cases habsent : f.automergeSwitch = .null
  · simp [habsent]
  · by_cases htrue : Text.strip (f.automergeSwitch.text u.quote) = "true"
    · simp [habsent, htrue]
    · simp [habsent, htrue]

theorem blocks_evaluateMergeable (g : Gate) (mergeable : Json) :
    (evaluateMergeable g mergeable).blocks = [] ↔ g.blocks = [] ∧ mergeable ≠ .bool false := by
  unfold evaluateMergeable
  split
  · simp
  · simp
  · simp_all

theorem waits_evaluateMergeable (g : Gate) (mergeable : Json) :
    (evaluateMergeable g mergeable).waits = [] ↔
      g.waits = [] ∧ (mergeable = .bool true ∨ mergeable = .bool false) := by
  unfold evaluateMergeable
  split
  · simp
  · simp
  · simp_all

theorem blocks_evaluateReview (g : Gate) (verdicts : List ScopedReview) (headSha : String) :
    (evaluateReview g verdicts headSha).blocks = [] ↔
      g.blocks = [] ∧ ∀ r, latest verdicts = some r → r.verdict = .pass := by
  unfold evaluateReview
  cases hlatest : latest verdicts with
  | none => simp
  | some r =>
    by_cases hpass : r.verdict = .pass
    · simp [hpass]
    · simp [hpass]

theorem waits_evaluateReview (g : Gate) (verdicts : List ScopedReview) (headSha : String) :
    (evaluateReview g verdicts headSha).waits = [] ↔ g.waits = [] ∧ verdicts ≠ [] := by
  unfold evaluateReview
  cases hlatest : latest verdicts with
  | none =>
    have hnil : verdicts = [] := by
      by_contra hne
      obtain ⟨r, hr⟩ := latest_isSome hne
      rw [hlatest] at hr
      cases hr
    simp [hnil]
  | some r =>
    have hne : verdicts ≠ [] := List.ne_nil_of_mem (latest_some hlatest).1
    by_cases hpass : r.verdict = .pass
    · simp [hpass, hne]
    · simp [hpass, hne]

theorem protectedPaths_isEmpty (changed : List String) : (protectedPaths changed).isEmpty = true ↔
    ∀ path ∈ changed, protectedPathPrefix.toList.isPrefixOf path.toList = false := by
  have hlength : (protectedPaths changed).length =
      (changed.filter fun path => protectedPathPrefix.toList.isPrefixOf path.toList).length :=
    (List.perm_insertionSort _ _).length_eq
  rw [List.isEmpty_iff, ← List.length_eq_zero_iff, hlength, List.length_eq_zero_iff, List.filter_eq_nil_iff]
  simp only [Bool.not_eq_true]

/-- The conditions that block, but for the review. -/
structure Unblocked : Prop where
  state : said u f.state = "open"
  draft : f.draft.truthy = false
  merged : f.merged.truthy = false
  switch : SwitchedOn u f
  label : blockingLabel ∉ d.labels.map Text.lower
  audit : isAuditBranch (said u f.headRef) = false
  paths : ∀ path ∈ d.changed, protectedPathPrefix.toList.isPrefixOf path.toList = false
  mergeable : f.mergeable ≠ .bool false
  checks : ∀ run ∈ d.runs, run.status = "completed" → run.conclusion ∈ passingConclusions

/-- Nothing is waited for. -/
structure Complete : Prop where
  mergeable : f.mergeable = .bool true ∨ f.mergeable = .bool false
  required : ∀ w ∈ d.required, w ∈ d.runs.map fun run => Json.str run.workflow
  completed : ∀ run ∈ d.runs, run.status = "completed"
  reviewed : d.verdicts ≠ []

theorem blocks_gateOf : (gateOf u f d).blocks = [] ↔
    Unblocked u f d ∧ ∀ r, latest d.verdicts = some r → r.verdict = .pass := by
  simp only [gateOf, blocks_evaluateReview, blocks_evaluateChecks, blocks_evaluateMergeable, Gate.blocks_check,
    blocks_evaluateSwitch, protectedPaths_isEmpty, Bool.not_eq_true', decide_eq_true_eq]
  constructor
  · rintro ⟨⟨⟨⟨⟨⟨⟨⟨⟨⟨-, hstate⟩, hdraft⟩, hmerged⟩, hswitch⟩, hlabel⟩, haudit⟩, hpaths⟩, hmergeable⟩, hchecks⟩, hreview⟩
    exact ⟨⟨hstate, hdraft, hmerged, hswitch, hlabel, haudit, hpaths, hmergeable, hchecks⟩, hreview⟩
  · rintro ⟨h, hreview⟩
    exact ⟨⟨⟨⟨⟨⟨⟨⟨⟨⟨rfl, h.state⟩, h.draft⟩, h.merged⟩, h.switch⟩, h.label⟩, h.audit⟩, h.paths⟩, h.mergeable⟩,
      h.checks⟩, hreview⟩

theorem waits_gateOf : (gateOf u f d).waits = [] ↔ Complete f d := by
  simp only [gateOf, waits_evaluateReview, waits_evaluateChecks, waits_evaluateMergeable, Gate.waits_check,
    waits_evaluateSwitch]
  constructor
  · rintro ⟨⟨⟨⟨-, hmergeable⟩, hrequired⟩, hcompleted⟩, hreviewed⟩
    exact ⟨hmergeable, hrequired, hcompleted, hreviewed⟩
  · intro h
    exact ⟨⟨⟨⟨rfl, h.mergeable⟩, h.required⟩, h.completed⟩, h.reviewed⟩

end Gate

/-- A list in another order, or the same value. -/
inductive Reordered : Json → Json → Prop
  | same (x : Json) : Reordered x x
  | perm {xs ys : List Json} (h : xs.Perm ys) : Reordered (.arr xs) (.arr ys)

/-- The document with its reviews and its check runs in another order. -/
structure Shuffled (f g : Facts) : Prop where
  reviews : Reordered f.reviews g.reviews
  runs : Reordered f.checkRuns g.checkRuns
  same : g = { f with reviews := g.reviews, checkRuns := g.checkRuns }

section Reading

variable {u : Unicode} {f g : Facts} {d : Reading}

theorem Reordered.symm {x y : Json} (h : Reordered x y) : Reordered y x := by
  cases h with
  | same => exact .same _
  | perm h => exact .perm h.symm

theorem Shuffled.symm (h : Shuffled f g) : Shuffled g f := by
  refine ⟨h.reviews.symm, h.runs.symm, ?_⟩
  rw [h.same]

theorem items_arr (xs : List Json) : items (.arr xs) = .ok xs := by
  cases xs with
  | nil => rfl
  | cons x xs => rfl

theorem Reordered.items {x y : Json} (h : Reordered x y) {xs : List Json} (hx : items x = .ok xs) :
    ∃ ys, AutomergeGate.items y = .ok ys ∧ xs.Perm ys := by
  cases h with
  | same => exact ⟨xs, hx, .refl _⟩
  | perm hperm =>
    rw [items_arr] at hx
    cases hx
    exact ⟨_, items_arr _, hperm⟩

/-- The parts of a reading of the document. -/
structure Reads (u : Unicode) (f : Facts) (d : Reading) : Prop where
  labels : texts u f.labels = .ok d.labels
  changed : texts u f.changedFiles = .ok d.changed
  required : required f.requiredWorkflows = .ok d.required
  runs : ∃ xs, items f.checkRuns = .ok xs ∧ xs.mapM (checkRun u) = .ok d.runs
  verdicts : ∃ xs, items f.reviews = .ok xs ∧ scopedReviews u (said u f.headSha) xs = .ok d.verdicts

theorem read_ok_iff : read u f = .ok d ↔ Reads u f d := by
  constructor
  · intro h
    obtain ⟨labels, hlabels, h⟩ := Reading.bind_ok h
    obtain ⟨changed, hchanged, h⟩ := Reading.bind_ok h
    obtain ⟨workflows, hworkflows, h⟩ := Reading.bind_ok h
    obtain ⟨runs, hruns, h⟩ := Reading.bind_ok h
    obtain ⟨found, hfound, h⟩ := Reading.bind_ok h
    obtain ⟨reviews, hreviews, h⟩ := Reading.bind_ok h
    obtain ⟨verdicts, hverdicts, h⟩ := Reading.bind_ok h
    cases h
    exact ⟨hlabels, hchanged, hworkflows, ⟨runs, hruns, hfound⟩, ⟨reviews, hreviews, hverdicts⟩⟩
  · intro h
    obtain ⟨runs, hruns, hfound⟩ := h.runs
    obtain ⟨reviews, hreviews, hverdicts⟩ := h.verdicts
    unfold read
    rw [h.labels, h.changed, h.required, hruns]
    simp only [bind, Except.bind]
    rw [hfound]
    simp only
    rw [hreviews]
    simp only
    rw [hverdicts]

theorem scopedReviews_ok {headSha : String} {xs : List Json} {verdicts : List ScopedReview}
    (h : scopedReviews u headSha xs = .ok verdicts) :
    ∃ found, xs.mapM (scopedReview u headSha) = .ok found ∧ verdicts = found.filterMap id := by
  unfold scopedReviews at h
  cases hfound : xs.mapM (scopedReview u headSha) with
  | error e =>
    rw [hfound] at h
    cases h
  | ok found =>
    rw [hfound] at h
    cases h
    exact ⟨found, rfl, rfl⟩

/-- Another order of the document reads as another order of what is read. -/
theorem Reads.shuffled (h : Reads u f d) (hshuffled : Shuffled f g) :
    ∃ runs verdicts, Reads u g { d with runs := runs, verdicts := verdicts } ∧ d.runs.Perm runs ∧
      d.verdicts.Perm verdicts := by
  obtain ⟨xs, hxs, hruns⟩ := h.runs
  obtain ⟨xs', hxs', hperm⟩ := hshuffled.runs.items hxs
  obtain ⟨runs, hruns', hrunsPerm⟩ := Reading.mapM_perm hruns hperm
  obtain ⟨ys, hys, hverdicts⟩ := h.verdicts
  obtain ⟨ys', hys', hperm'⟩ := hshuffled.reviews.items hys
  obtain ⟨found, hfound, heq⟩ := scopedReviews_ok hverdicts
  obtain ⟨found', hfound', hfoundPerm⟩ := Reading.mapM_perm hfound hperm'
  have hrest := hshuffled.same
  have hverdicts' : scopedReviews u (said u f.headSha) ys' = .ok (found'.filterMap id) := by
    rw [scopedReviews, hfound']
    rfl
  refine ⟨runs, found'.filterMap id, ⟨?_, ?_, ?_, ⟨xs', hxs', hruns'⟩, ⟨ys', hys', ?_⟩⟩, hrunsPerm, ?_⟩
  · rw [hrest]
    exact h.labels
  · rw [hrest]
    exact h.changed
  · rw [hrest]
    exact h.required
  · rw [hrest]
    exact hverdicts'
  · rw [heq]
    exact hfoundPerm.filterMap id

/-- Only the members of a list are read as verdicts. -/
theorem iterate_of_object {x : Json} {xs : List Json} (h : items x = .ok xs) {m : Members} (hmem : Json.obj m ∈ xs) :
    x = .arr xs := by
  cases x with
  | arr ys =>
    rw [items_arr] at h
    cases h
    rfl
  | str s =>
    simp only [items, Json.orElse] at h
    split_ifs at h
    · simp only [Json.iterate, Except.ok.injEq] at h
      subst h
      simp at hmem
    · cases h
      cases hmem
  | obj ms =>
    simp only [items, Json.orElse] at h
    split_ifs at h
    · simp only [Json.iterate, Except.ok.injEq] at h
      subst h
      simp at hmem
    · cases h
      cases hmem
  | null =>
    cases h
    cases hmem
  | bool b =>
    cases b with
    | false =>
      cases h
      cases hmem
    | true => cases h
  | int n =>
    simp only [items, Json.orElse] at h
    split_ifs at h
    · cases h
    · cases h
      cases hmem
  | float r =>
    simp only [items, Json.orElse] at h
    split_ifs at h
    · cases h
    · cases h
      cases hmem

/-- Any verdict can be the first one. -/
theorem Reads.first (h : Reads u f d) {a : ScopedReview} (ha : a ∈ d.verdicts) :
    ∃ g verdicts, Shuffled f g ∧ g.checkRuns = f.checkRuns ∧ Reads u g { d with verdicts := a :: verdicts } ∧
      d.verdicts.Perm (a :: verdicts) := by
  obtain ⟨xs, hxs, hverdicts⟩ := h.verdicts
  obtain ⟨found, hfound, heq⟩ := scopedReviews_ok hverdicts
  rw [heq] at ha
  obtain ⟨found_a, hmem, hid⟩ := List.mem_filterMap.mp ha
  have hsome : found_a = some a := hid
  subst hsome
  obtain ⟨review, hreview, hscoped⟩ := Reading.exists_of_mem hfound hmem
  obtain ⟨found', hfirst, hperm⟩ := Reading.mapM_first hfound hreview hscoped
  have hobject : ∃ m, review = .obj m := by
    cases review with
    | obj m => exact ⟨m, rfl⟩
    | _ => cases hscoped
  obtain ⟨m, rfl⟩ := hobject
  have harr := iterate_of_object hxs hreview
  have hread : scopedReviews u (said u f.headSha) (.obj m :: xs.erase (.obj m)) = .ok (a :: found'.filterMap id) := by
    rw [scopedReviews, hfirst]
    rfl
  refine ⟨{ f with reviews := .arr (.obj m :: xs.erase (.obj m)) }, found'.filterMap id,
    ⟨?_, .same _, rfl⟩, rfl, ⟨h.labels, h.changed, h.required, h.runs, ⟨_, items_arr _, hread⟩⟩, ?_⟩
  · rw [harr]
    exact .perm (List.perm_cons_erase hreview)
  · rw [heq]
    exact hperm.filterMap id

end Reading

/-- The decision, when the document can be read. -/
def decisionOf (u : Unicode) (f : Facts) : Option Decision := (evaluate u f).toOption.map fun r => r.decision

/-- What a merge takes, of the document and of what it is read as. -/
structure Cleared (u : Unicode) (f : Facts) (d : Reading) : Prop where
  head : fullSha (said u f.headSha) = true
  state : said u f.state = "open"
  draft : f.draft.truthy = false
  merged : f.merged.truthy = false
  switch : SwitchedOn u f
  label : blockingLabel ∉ d.labels.map Text.lower
  audit : isAuditBranch (said u f.headRef) = false
  paths : ∀ path ∈ d.changed, protectedPathPrefix.toList.isPrefixOf path.toList = false
  mergeable : f.mergeable = .bool true
  reported : ∀ w ∈ requiredWorkflows, ∃ run ∈ d.runs, run.workflow = w
  checks : ∀ run ∈ d.runs, run.status = "completed" ∧ run.conclusion ∈ passingConclusions
  review : ∃ p ∈ d.verdicts, p.verdict = .pass ∧
    ∀ n ∈ d.verdicts, n.verdict = .needsChanges → n.submittedAt < p.submittedAt

/-- The verdicts that count agree unless another condition blocks, and workflows of the
document's own choice leave none out on which alone the merge depends. -/
structure Unswayed (u : Unicode) (f : Facts) : Prop where
  agreed : ∀ d, read u f = .ok d → fullSha (said u f.headSha) = true → Unblocked u f d → Agreed d.verdicts
  required : f.requiredWorkflows.truthy = true → ∀ d, read u f = .ok d → fullSha (said u f.headSha) = true →
    Unblocked u f d → Complete f d → (∀ r, latest d.verdicts = some r → r.verdict = .pass) →
    ∀ w ∈ requiredWorkflows, ∃ run ∈ d.runs, run.workflow = w

section Soundness

variable {u : Unicode} {f g : Facts} {d : Reading}

theorem decisionOf_short (h : fullSha (said u f.headSha) = false) : decisionOf u f = some .block := by
  unfold decisionOf evaluate
  simp only [h, if_true]
  rfl

theorem decisionOf_read (h : fullSha (said u f.headSha) = true) :
    decisionOf u f = (read u f).toOption.map fun d => (gateOf u f d).decision := by
  unfold decisionOf evaluate
  simp only [h, Bool.true_eq_false, if_false]
  cases read u f with
  | error e => rfl
  | ok d => rfl

theorem decisionOf_ok (h : fullSha (said u f.headSha) = true) (hread : read u f = .ok d) :
    decisionOf u f = some (gateOf u f d).decision := by
  rw [decisionOf_read h, hread]
  rfl

theorem merge_iff (h : fullSha (said u f.headSha) = true) (hread : read u f = .ok d) : decisionOf u f = some .merge ↔
    (Unblocked u f d ∧ ∀ r, latest d.verdicts = some r → r.verdict = .pass) ∧ Complete f d := by
  rw [decisionOf_ok h hread, Option.some.injEq, Gate.decision_eq_merge, blocks_gateOf, waits_gateOf]

theorem block_iff (h : fullSha (said u f.headSha) = true) (hread : read u f = .ok d) : decisionOf u f = some .block ↔
    ¬ (Unblocked u f d ∧ ∀ r, latest d.verdicts = some r → r.verdict = .pass) := by
  rw [decisionOf_ok h hread, Option.some.injEq, Gate.decision_eq_block, Ne, blocks_gateOf]

/-- Without workflows of its own a document waits for the required ones. -/
theorem required_of_falsy {x : Json} (h : x.truthy = false) : required x = .ok (requiredWorkflows.map Json.str) := by
  have hlist : x.orElse (.arr (requiredWorkflows.map Json.str)) = .arr (requiredWorkflows.map Json.str) := by
    simp [Json.orElse, h]
  rw [required, hlist]
  rfl

theorem reported_of_complete (hcomplete : Complete f d) (hrequired : d.required = requiredWorkflows.map Json.str) :
    ∀ w ∈ requiredWorkflows, ∃ run ∈ d.runs, run.workflow = w := by
  intro w hw
  have hmem : Json.str w ∈ d.required := by
    rw [hrequired]
    exact List.mem_map_of_mem hw
  obtain ⟨run, hrun, heq⟩ := List.mem_map.mp (hcomplete.required _ hmem)
  exact ⟨run, hrun, Json.str.inj heq⟩

theorem Unblocked.shuffled {runs : List CheckRun} {verdicts : List ScopedReview} (h : Unblocked u f d)
    (hshuffled : Shuffled f g) (hruns : d.runs.Perm runs) :
    Unblocked u g { d with runs := runs, verdicts := verdicts } := by
  have hchecks : ∀ run ∈ runs, run.status = "completed" → run.conclusion ∈ passingConclusions :=
    fun run hrun => h.checks run (hruns.mem_iff.mpr hrun)
  rw [hshuffled.same]
  exact ⟨h.state, h.draft, h.merged, h.switch, h.label, h.audit, h.paths, h.mergeable, hchecks⟩

theorem Complete.shuffled {runs : List CheckRun} {verdicts : List ScopedReview} (h : Complete f d)
    (hshuffled : Shuffled f g) (hruns : d.runs.Perm runs) (hverdicts : d.verdicts.Perm verdicts) :
    Complete g { d with runs := runs, verdicts := verdicts } := by
  have hrequired : ∀ w ∈ d.required, w ∈ runs.map fun run => Json.str run.workflow :=
    fun w hw => (hruns.map _).mem_iff.mp (h.required w hw)
  have hreviewed : verdicts ≠ [] := by
    intro hnil
    rw [hnil] at hverdicts
    exact h.reviewed hverdicts.eq_nil
  rw [hshuffled.same]
  exact ⟨h.mergeable, hrequired, fun run hrun => h.completed run (hruns.mem_iff.mpr hrun), hreviewed⟩

/-- When the latest verdicts agree their order does not matter. -/
theorem latest_perm {verdicts verdicts' : List ScopedReview} (hagreed : Agreed verdicts)
    (hperm : verdicts.Perm verdicts') (h : ∀ r, latest verdicts = some r → r.verdict = .pass) :
    ∀ r, latest verdicts' = some r → r.verdict = .pass := by
  intro r hr
  obtain ⟨hmem, hnewest⟩ := latest_some hr
  have hmem' := hperm.mem_iff.mpr hmem
  obtain ⟨a, ha⟩ := latest_isSome (List.ne_nil_of_mem hmem')
  obtain ⟨hamem, hanewest⟩ := latest_some ha
  rw [← hagreed a hamem r hmem' hanewest (hnewest.perm hperm.symm)]
  exact h a ha

/-- A merge under these conditions has everything it takes. -/
theorem cleared_of_merge (h : Unswayed u f) (hmerge : decisionOf u f = some .merge) :
    ∃ d, read u f = .ok d ∧ Cleared u f d := by
  by_cases hfull : fullSha (said u f.headSha) = true
  · cases hread : read u f with
    | error e =>
      rw [decisionOf_read hfull, hread] at hmerge
      cases hmerge
    | ok d =>
      obtain ⟨⟨hopen, hlatest⟩, hcomplete⟩ := (merge_iff hfull hread).mp hmerge
      have hagreed := h.agreed d hread hfull hopen
      obtain ⟨p, hp⟩ := latest_isSome hcomplete.reviewed
      obtain ⟨hpmem, hpnewest⟩ := latest_some hp
      have hpass := hlatest p hp
      have hmergeable : f.mergeable = .bool true := hcomplete.mergeable.resolve_right hopen.mergeable
      have hreported : ∀ w ∈ requiredWorkflows, ∃ run ∈ d.runs, run.workflow = w := by
        cases howned : f.requiredWorkflows.truthy with
        | true => exact h.required howned d hread hfull hopen hcomplete hlatest
        | false =>
          have hrequired := (read_ok_iff.mp hread).required
          rw [required_of_falsy howned] at hrequired
          exact reported_of_complete hcomplete (Except.ok.inj hrequired).symm
      have hearlier : ∀ n ∈ d.verdicts, n.verdict = .needsChanges → n.submittedAt < p.submittedAt := by
        intro n hn hneeds
        by_contra hlate
        have hnnewest : Newest d.verdicts n := fun v hv => (hpnewest v hv).trans (not_lt.mp hlate)
        have hsame := hagreed p hpmem n hn hpnewest hnnewest
        rw [hpass, hneeds] at hsame
        cases hsame
      exact ⟨d, rfl, hfull, hopen.state, hopen.draft, hopen.merged, hopen.switch, hopen.label, hopen.audit,
        hopen.paths, hmergeable, hreported,
        fun run hrun => ⟨hcomplete.completed run hrun, hopen.checks run hrun (hcomplete.completed run hrun)⟩,
        p, hpmem, hpass, hearlier⟩
  · rw [decisionOf_short (Bool.not_eq_true _ ▸ hfull)] at hmerge
    cases hmerge

theorem Shuffled.headSha (h : Shuffled f g) : g.headSha = f.headSha := by rw [h.same]

theorem decision_of_gates {g g' : Gate} (hblocks : g.blocks = [] ↔ g'.blocks = []) (hwaits : g.waits = [] ↔ g'.waits = []) :
    g.decision = g'.decision := by
  unfold Gate.decision
  by_cases hb : g.blocks = []
  · by_cases hw : g.waits = []
    · simp [hb, hblocks.mp hb, hw, hwaits.mp hw]
    · have hw' : ¬ g'.waits = [] := fun h => hw (hwaits.mpr h)
      simp [hb, hblocks.mp hb, hw, hw']
  · have hb' : ¬ g'.blocks = [] := fun h => hb (hblocks.mpr h)
    simp [hb, hb']

/-- Another order of the reviews and of the check runs leaves the decision. -/
theorem decisionOf_shuffled (h : Unswayed u f) (hshuffled : Shuffled f g) : decisionOf u g = decisionOf u f := by
  cases hfull : fullSha (said u f.headSha) with
  | false =>
    have hfull' : fullSha (said u g.headSha) = false := by rw [hshuffled.headSha, hfull]
    rw [decisionOf_short hfull, decisionOf_short hfull']
  | true =>
    have hfull' : fullSha (said u g.headSha) = true := by rw [hshuffled.headSha, hfull]
    cases hread : read u f with
    | error e =>
      rw [decisionOf_read hfull, decisionOf_read hfull', hread]
      cases hread' : read u g with
      | error e' => rfl
      | ok d =>
        obtain ⟨_, _, hback, _, _⟩ := (read_ok_iff.mp hread').shuffled hshuffled.symm
        rw [read_ok_iff.mpr hback] at hread
        cases hread
    | ok d =>
      obtain ⟨runs, verdicts, hreads, hruns, hverdicts⟩ := (read_ok_iff.mp hread).shuffled hshuffled
      rw [decisionOf_ok hfull hread, decisionOf_ok hfull' (read_ok_iff.mpr hreads), Option.some.injEq]
      have hopenIff : Unblocked u g { d with runs := runs, verdicts := verdicts } ↔ Unblocked u f d :=
        ⟨fun hopen => hopen.shuffled hshuffled.symm hruns.symm, fun hopen => hopen.shuffled hshuffled hruns⟩
      have hcompleteIff : Complete g { d with runs := runs, verdicts := verdicts } ↔ Complete f d :=
        ⟨fun hcomplete => hcomplete.shuffled hshuffled.symm hruns.symm hverdicts.symm,
          fun hcomplete => hcomplete.shuffled hshuffled hruns hverdicts⟩
      apply decision_of_gates
      · rw [blocks_gateOf, blocks_gateOf]
        constructor
        · rintro ⟨hopen, hlatest⟩
          have hagreed := h.agreed d hread hfull (hopenIff.mp hopen)
          exact ⟨hopenIff.mp hopen, latest_perm (hagreed.perm hverdicts) hverdicts.symm hlatest⟩
        · rintro ⟨hopen, hlatest⟩
          exact ⟨hopenIff.mpr hopen, latest_perm (h.agreed d hread hfull hopen) hverdicts hlatest⟩
      · rw [waits_gateOf, waits_gateOf, hcompleteIff]

/-- The verdict that is listed first among the latest ones decides whether the review blocks. -/
theorem agreed_of_shuffled (hshuffled : ∀ g, Shuffled f g → decisionOf u g = decisionOf u f)
    (hfull : fullSha (said u f.headSha) = true) (hread : read u f = .ok d) (hopen : Unblocked u f d) :
    Agreed d.verdicts := by
  have hfirst : ∀ a ∈ d.verdicts, Newest d.verdicts a → (decisionOf u f = some .block ↔ a.verdict ≠ .pass) := by
    intro a ha hnewest
    obtain ⟨g, verdicts, hgshuffled, _, hreads, hperm⟩ := (read_ok_iff.mp hread).first ha
    have hfull' : fullSha (said u g.headSha) = true := by rw [hgshuffled.headSha, hfull]
    have hopen' : Unblocked u g { d with verdicts := a :: verdicts } :=
      hopen.shuffled hgshuffled (.refl d.runs)
    rw [← hshuffled g hgshuffled, block_iff hfull' (read_ok_iff.mpr hreads)]
    simp only [hopen', true_and, latest_first (hnewest.perm hperm), Option.some.injEq, forall_eq', ne_eq]
  intro a ha b hb hanewest hbnewest
  have hiff := (hfirst a ha hanewest).symm.trans (hfirst b hb hbnewest)
  cases hav : a.verdict <;> cases hbv : b.verdict
  · rfl
  · simp [hav, hbv] at hiff
  · simp [hav, hbv] at hiff
  · rfl

end Soundness

/-- The gate is sound and does not depend on the order of the document's lists exactly for
the documents that sway it neither by equally late verdicts nor by workflows of their own. -/
theorem gate_sound_iff (u : Unicode) (f : Facts) :
    ((decisionOf u f = some .merge → ∃ d, read u f = .ok d ∧ Cleared u f d) ∧
      ∀ g, Shuffled f g → decisionOf u g = decisionOf u f) ↔ Unswayed u f := by
  constructor
  · rintro ⟨hsound, hshuffled⟩
    refine ⟨fun d hread hfull hopen => agreed_of_shuffled hshuffled hfull hread hopen, ?_⟩
    intro _ d hread hfull hopen hcomplete hlatest
    obtain ⟨d', hread', hcleared⟩ := hsound ((merge_iff hfull hread).mpr ⟨⟨hopen, hlatest⟩, hcomplete⟩)
    rw [hread] at hread'
    cases hread'
    exact hcleared.reported
  · intro h
    exact ⟨cleared_of_merge h, fun g hg => decisionOf_shuffled h hg⟩

def ascii : Unicode where
  quote := fun s => String.join ["'", s, "'"]
  isAlnum := Char.isAlphanum

def headSha : String := "0123456789abcdef0123456789abcdef01234567"

def review (verdict : String) : Json :=
  .obj [("author", .str "owner"), ("author_association", .str "OWNER"),
    ("submitted_at", .str "2026-09-18T10:00:00Z"),
    ("body", .str (String.join ["Verdict: ", verdict, " at ", headSha]))]

def greenRun (workflow : String) : Json :=
  .obj [("name", .str workflow), ("workflow", .str workflow), ("status", .str "completed"),
    ("conclusion", .str "success")]

/-- A pull request on which everything is in order. -/
def inOrder : Facts where
  prNumber := .int 140
  headSha := .str headSha
  headRef := .str "task"
  state := .str "open"
  draft := .bool false
  merged := .bool false
  mergeable := .bool true
  labels := .arr []
  changedFiles := .arr [.str "backend/app/services.py"]
  automergeSwitch := .str "true"
  checkRuns := .arr (requiredWorkflows.map greenRun)
  requiredWorkflows := .null
  reviews := .arr [review "PASS"]

/-- Only a workflow that the document names itself has reported. -/
def lifted : Facts := { inOrder with
  checkRuns := .arr [greenRun "Lint"]
  requiredWorkflows := .arr [.str "Lint"] }

/-- Two verdicts of the same second. -/
def tied (verdicts : List String) : Facts := { inOrder with reviews := .arr (verdicts.map review) }

theorem gate_swayed :
    (decisionOf ascii lifted = some .merge ∧ ¬ ∃ d, read ascii lifted = .ok d ∧ Cleared ascii lifted d) ∧
    Shuffled (tied ["PASS", "NEEDS_CHANGES"]) (tied ["NEEDS_CHANGES", "PASS"]) ∧
    decisionOf ascii (tied ["PASS", "NEEDS_CHANGES"]) = some .merge ∧
    decisionOf ascii (tied ["NEEDS_CHANGES", "PASS"]) = some .block := by
  refine ⟨⟨by decide +kernel, ?_⟩, ⟨.perm (.swap ..), .same _, rfl⟩, by decide +kernel, by decide +kernel⟩
  rintro ⟨d, hread, hcleared⟩
  have hruns : (read ascii lifted).toOption.map (fun d => d.runs.map fun run => run.workflow) = some ["Lint"] := by
    decide +kernel
  rw [hread] at hruns
  have hworkflows : d.runs.map (fun run => run.workflow) = ["Lint"] := Option.some.inj hruns
  obtain ⟨run, hrun, hworkflow⟩ := hcleared.reported "CI" (by decide)
  have hmem : "CI" ∈ d.runs.map (fun run => run.workflow) := List.mem_map.mpr ⟨run, hrun, hworkflow⟩
  rw [hworkflows] at hmem
  simp at hmem

end Lingsway.AutomergeGate
