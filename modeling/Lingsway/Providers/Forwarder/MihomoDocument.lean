import Lingsway.Providers.Forwarder.Mihomo

/-!
# What Mihomo reads of a composed document

The fields of the rules, the names that rules, groups, listeners and egress
proxies refer to, and the sockets that are bound.
-/
namespace Lingsway.Forwarder.MihomoDocument

open Library

/-- An IP address, by its version and its value. -/
structure Address where
  version : ℕ
  value : ℕ
  deriving Repr, DecidableEq

/-- An unspecified address overlaps every address of its family. -/
def Address.overlaps (a b : Address) : Bool :=
  a.version = b.version && (a.value = b.value || a.value = 0 || b.value = 0)

def member (entry : Json) (key : String) : Json :=
  match entry with
  | .obj members => Members.item members key
  | _ => .null

def entries (document : Members) (key : String) : List Json :=
  match Members.item document key with
  | .arr items => items
  | _ => []

/-- The fields of a rule, as Mihomo splits it. -/
def fieldsOf (rule : Json) : List (List Char) :=
  match rule with
  | .str text => text.toList.splitOn ','
  | _ => []

def ruleFields (document : Members) : List (List (List Char)) := (entries document "rules").map fieldsOf

/-- The names of the proxies and of the groups. -/
def names (document : Members) : List Json :=
  (entries document "proxies" ++ entries document "proxy-groups").map fun entry => member entry "name"

def groupMembers (document : Members) : List Json :=
  (entries document "proxy-groups").flatMap fun group =>
    match member group "proxies" with
    | .arr items => items
    | _ => []

def listenerTargets (document : Members) : List Json :=
  (entries document "listeners").map fun listener => member listener "proxy"

/-- The targets of the rules are their last fields. -/
def ruleTargets (document : Members) : List Json :=
  (ruleFields document).filterMap fun fields => fields.getLast?.map fun target => .str (String.ofList target)

def dialerOf (entry : Json) : Option Json :=
  match entry with
  | .obj members => List.lookup "dialer-proxy" members
  | _ => none

/-- The dialers of the proxies that are named like an egress proxy. -/
def dialers (desired : DesiredForwarderState) (document : Members) : List Json :=
  ((entries document "proxies").filter fun entry =>
    (desired.egressProxies.map fun proxy => Json.str proxy.name).contains (member entry "name")).filterMap
      dialerOf

/-- Every target of a document but those of the dialers. -/
def targets (document : Members) : List Json :=
  ruleTargets document ++ groupMembers document ++ listenerTargets document

/-- The target is REJECT, or exactly one proxy or group has its name. -/
def Resolves (document : Members) (target : Json) : Prop :=
  target = .str "REJECT" ∨ (names document).count target = 1

/-- The mixed port and the listeners, each by what it listens on and its port. -/
def sockets (document : Members) : List (Json × Json) :=
  (Members.item document "bind-address", Members.item document "mixed-port") ::
    (entries document "listeners").map fun listener => (member listener "listen", member listener "port")

section Reading

variable (x : Externals) (bound : String → Option Address)

def addressOf (listen : Json) : Option Address :=
  match listen with
  | .str text => bound text
  | _ => none

/-- The sockets bind one port on addresses that overlap. -/
def clash (s t : Json × Json) : Bool :=
  s.2 = t.2 && ((addressOf bound s.1).any fun a => (addressOf bound t.1).any fun b => a.overlaps b)

/-- BLOCK is rendered as REJECT. -/
def runtimeTarget (target : String) : String := if target = "BLOCK" then "REJECT" else target

/-- The fields that a rule of the desired state is to have. -/
def Intended (rule : Json) (fields : List (List Char)) : Prop :=
  ∃ kind target, member rule "match" = .str kind ∧ member rule "target" = .str target ∧
    ((x.upper kind = "MATCH" ∧ fields = ["MATCH".toList, (runtimeTarget target).toList]) ∨
      (x.upper kind ≠ "MATCH" ∧ ∃ value canonical, member rule "value" = .str value ∧
        canonicalRuleValue x (x.upper kind) value = .ok canonical ∧
        fields = [(x.upper kind).toList, canonical.toList, (runtimeTarget target).toList]))

/-- A document of the desired state that is well formed and fails closed. -/
structure WellFormed (desired : DesiredForwarderState) (document : Members) : Prop where
  rules : List.Forall₂ (Intended x) desired.rules (ruleFields document)
  fallback : ((ruleFields document).map List.head?).count (some "MATCH".toList) = 1
  terminal : (ruleFields document).getLast? = some ["MATCH".toList, "REJECT".toList]
  direct : Json.str "DIRECT" ∉ targets document ++ dialers desired document
  resolved : ∀ target ∈ targets document ++ dialers desired document, Resolves document target
  distinct : (names document).Nodup
  apart : (sockets document).Pairwise fun s t => clash bound s t = false

end Reading

/-- The names that a desired state declares. -/
def declared (desired : DesiredForwarderState) : List Json :=
  (desired.proxies ++ desired.transportMaterializations.flatMap fun item =>
    entries item.content "proxies").map (fun entry => member entry "name") ++
    desired.egressProxies.map (fun proxy => .str proxy.name) ++
    desired.proxyGroups.map fun group => member group "name"

def mixedSocket (desired : DesiredForwarderState) : Json × Json :=
  (.str canonicalBindAddress, constant desired.deploymentConstants "mixed-port" (.int 7890))

def socketOf (listener : ForwarderListenerDTO) : Json × Json := (.str listener.listen, .int listener.port)

/-- Every dialer is declared, and no two texts name overlapping addresses of one port. -/
structure Sound (bound : String → Option Address) (desired : DesiredForwarderState) : Prop where
  dialers : ∀ proxy ∈ desired.egressProxies, ∀ name, proxy.transportProxyName = some name →
    name = "REJECT" ∨ Json.str name ∈ declared desired
  mixed : ∀ listener ∈ desired.listenerSpecs, Text.strip listener.listen ≠ canonicalBindAddress →
    clash bound (mixedSocket desired) (socketOf listener) = false
  listeners : desired.listenerSpecs.Pairwise fun a b => Text.strip a.listen ≠ Text.strip b.listen →
    clash bound (socketOf a) (socketOf b) = false

section Sections

variable {x : Externals} {desired : DesiredForwarderState} {proxies : List Json}

/-- What the sections of an accepted desired state have passed. -/
structure Sections (x : Externals) (desired : DesiredForwarderState) (proxies : List Json) (mixedPort : ℤ)
    (proxyNames groupNames kinds : List String) : Prop where
  constants : ∃ controller,
    validateDeploymentConstants x desired.deploymentConstants = .ok (mixedPort, controller)
  listeners : ∃ listening,
    desired.listenerSpecs.foldlM (validateListener x mixedPort) ([], []) = .ok listening
  proxies : proxies.mapM (validateProxy x) = .ok proxyNames
  proxies_nodup : proxyNames.Nodup
  groups : desired.proxyGroups.mapM (validateGroup x proxyNames) = .ok groupNames
  groups_nodup : groupNames.Nodup
  disjoint : ∀ name ∈ proxyNames, name ∉ groupNames
  targets : ∀ listener ∈ desired.listenerSpecs, listener.proxy ∈ proxyNames ++ groupNames ++ ["BLOCK"]
  rules : desired.rules.mapM (validateRule x) = .ok kinds
  one : kinds.count "MATCH" = 1
  block : ((desired.rules.zip kinds).find? fun entry => entry.2 = "MATCH").map
    (fun entry => ruleTarget entry.1) = some (.str "BLOCK")
  last : kinds.getLast? = some "MATCH"
  known : ∀ rule ∈ desired.rules, validateRuleTarget x (proxyNames ++ groupNames ++ ["BLOCK"]) rule = .ok ()

theorem sections_ok (h : validateSections x desired proxies = .ok ()) :
    ∃ mixedPort proxyNames groupNames kinds,
      Sections x desired proxies mixedPort proxyNames groupNames kinds := by
  obtain ⟨⟨mixedPort, controller⟩, hconstants, h⟩ := Reading.bind_ok h
  obtain ⟨_, -, h⟩ := Reading.bind_ok h
  obtain ⟨_, -, h⟩ := Reading.bind_ok h
  obtain ⟨_, -, h⟩ := Reading.bind_ok h
  obtain ⟨listening, hlisteners, h⟩ := Reading.bind_ok h
  obtain ⟨proxyNames, hproxies, h⟩ := Reading.bind_ok h
  obtain ⟨_, hproxiesNodup, h⟩ := Reading.bind_ok h
  obtain ⟨groupNames, hgroups, h⟩ := Reading.bind_ok h
  obtain ⟨_, hgroupsNodup, h⟩ := Reading.bind_ok h
  obtain ⟨_, hdisjoint, h⟩ := Reading.bind_ok h
  obtain ⟨_, htargets, h⟩ := Reading.bind_ok h
  obtain ⟨kinds, hrules, h⟩ := Reading.bind_ok h
  obtain ⟨_, hone, h⟩ := Reading.bind_ok h
  obtain ⟨_, hblock, h⟩ := Reading.bind_ok h
  obtain ⟨_, hlast, h⟩ := Reading.bind_ok h
  obtain ⟨_, hknown, -⟩ := Reading.bind_ok h
  refine ⟨mixedPort, proxyNames, groupNames, kinds, ⟨⟨controller, hconstants⟩, ⟨listening, hlisteners⟩,
    hproxies, by simpa using require_ok hproxiesNodup, hgroups, by simpa using require_ok hgroupsNodup,
    by simpa using require_ok hdisjoint, by simpa using require_ok htargets, hrules,
    by simpa using require_ok hone, by simpa using require_ok hblock, by simpa using require_ok hlast,
    fun rule hrule => ?_⟩⟩
  obtain ⟨_, -, hok⟩ := Reading.exists_of_element hknown hrule
  exact hok

/-- A name that is accepted is the one of its entry, and no reserved one. -/
theorem validateName_ok {members : Members} {code name : String} (h : validateName x members code = .ok name) :
    members.item "name" = .str name ∧ name ∉ reservedIdentities := by
  obtain ⟨read, hread, h⟩ := Reading.bind_ok h
  obtain ⟨_, -, h⟩ := Reading.bind_ok h
  obtain ⟨_, -, h⟩ := Reading.bind_ok h
  obtain ⟨_, hreserved, h⟩ := Reading.bind_ok h
  cases h
  refine ⟨string_ok hread, fun hmem => ?_⟩
  have hnot := require_ok hreserved
  rw [Bool.not_eq_true', ← Bool.not_eq_true, List.contains_iff_mem] at hnot
  exact hnot (List.mem_map_of_mem hmem)

theorem validateProxy_name {proxy : Json} {name : String} (h : validateProxy x proxy = .ok name) :
    member proxy "name" = .str name ∧ name ∉ reservedIdentities := by
  obtain ⟨members, hmembers, h⟩ := Reading.bind_ok h
  rw [mapping_ok hmembers]
  exact validateName_ok h

/-- The members of an accepted group are names of proxies. -/
theorem validateGroup_ok {proxyNames : List String} {group : Json} {name : String}
    (h : validateGroup x proxyNames group = .ok name) :
    member group "name" = .str name ∧ name ∉ reservedIdentities ∧
      ∃ refs, member group "proxies" = .arr refs ∧ ∀ ref ∈ refs, ref ∈ proxyNames.map Json.str := by
  obtain ⟨members, hmembers, h⟩ := Reading.bind_ok h
  obtain ⟨read, hname, h⟩ := Reading.bind_ok h
  obtain ⟨_, hrefs, h⟩ := Reading.bind_ok h
  cases h
  have hfound := require_ok hrefs
  obtain ⟨hitem, hreserved⟩ := validateName_ok hname
  rw [mapping_ok hmembers]
  refine ⟨hitem, hreserved, ?_⟩
  simp only [member]
  cases hproxies : members.item "proxies" with
  | arr refs =>
    simp only [hproxies, List.all_eq_true, List.contains_iff_mem] at hfound
    exact ⟨refs, rfl, hfound⟩
  | _ =>
    rw [hproxies] at hfound
    cases hfound

/-- No listener that is accepted spells the socket of the mixed port or of an earlier one. -/
theorem validateListener_ok {mixedPort : ℤ} {earlier later : Listening} {listener : ForwarderListenerDTO}
    (h : validateListener x mixedPort earlier listener = .ok later) :
    later.2 = (Text.strip listener.listen, listener.port) :: earlier.2 ∧
      ¬(Text.strip listener.listen = canonicalBindAddress ∧ listener.port = mixedPort) ∧
      (Text.strip listener.listen, listener.port) ∉ earlier.2 := by
  obtain ⟨_, -, h⟩ := Reading.bind_ok h
  obtain ⟨_, -, h⟩ := Reading.bind_ok h
  obtain ⟨_, -, h⟩ := Reading.bind_ok h
  obtain ⟨_, -, h⟩ := Reading.bind_ok h
  obtain ⟨_, hmixed, h⟩ := Reading.bind_ok h
  obtain ⟨_, hnew, h⟩ := Reading.bind_ok h
  cases h
  have hfresh := require_ok hnew
  simp only [Bool.not_eq_true', Bool.or_eq_false_iff] at hfresh
  refine ⟨rfl, by simpa [or_iff_not_imp_left] using require_ok hmixed, fun hmem => ?_⟩
  rw [List.contains_iff_mem.mpr hmem] at hfresh
  cases hfresh.2

theorem listeners_ok {mixedPort : ℤ} {listeners : List ForwarderListenerDTO} {earlier later : Listening}
    (h : listeners.foldlM (validateListener x mixedPort) earlier = .ok later) :
    (∀ listener ∈ listeners,
      ¬(Text.strip listener.listen = canonicalBindAddress ∧ listener.port = mixedPort) ∧
      (Text.strip listener.listen, listener.port) ∉ earlier.2) ∧
    listeners.Pairwise fun a b => (Text.strip a.listen, a.port) ≠ (Text.strip b.listen, b.port) := by
  induction listeners generalizing earlier with
  | nil => exact ⟨fun _ h => (List.not_mem_nil h).elim, .nil⟩
  | cons first rest ih =>
    rw [List.foldlM_cons] at h
    obtain ⟨middle, hfirst, hrest⟩ := Reading.bind_ok h
    obtain ⟨hsockets, hmixed, hnew⟩ := validateListener_ok hfirst
    obtain ⟨hall, hpairwise⟩ := ih hrest
    rw [hsockets] at hall
    refine ⟨fun listener hmem => ?_, List.pairwise_cons.mpr ⟨fun listener hmem heq => ?_, hpairwise⟩⟩
    · obtain rfl | hmem := List.mem_cons.mp hmem
      · exact ⟨hmixed, hnew⟩
      · exact ⟨(hall listener hmem).1, fun h => (hall listener hmem).2 (List.mem_cons_of_mem _ h)⟩
    · exact (hall listener hmem).2 (heq ▸ List.mem_cons_self)

end Sections

section Rules

variable {x : Externals} {desired : DesiredForwarderState} {proxies : List Json} {mixedPort : ℤ}
  {proxyNames groupNames kinds : List String}

theorem mem_splitOnChar {sep c : Char} {cs : List Char} (hc : c ∈ cs) (hne : c ≠ sep) :
    ∃ part ∈ Text.splitOnChar sep cs, c ∈ part := by
  induction cs with
  | nil => cases hc
  | cons d ds ih =>
    rw [Text.splitOnChar]
    split_ifs with hd
    · obtain rfl | hc := List.mem_cons.mp hc
      · exact (hne hd).elim
      · obtain ⟨part, hpart, hmem⟩ := ih hc
        exact ⟨part, List.mem_cons_of_mem _ hpart, hmem⟩
    · cases hparts : Text.splitOnChar sep ds with
      | nil =>
        obtain rfl | hc := List.mem_cons.mp hc
        · exact ⟨[c], List.mem_cons_self, List.mem_cons_self⟩
        · obtain ⟨part, hpart, -⟩ := ih hc
          rw [hparts] at hpart
          cases hpart
      | cons first rest =>
        obtain rfl | hc := List.mem_cons.mp hc
        · exact ⟨c :: first, List.mem_cons_self, List.mem_cons_self⟩
        · obtain ⟨part, hpart, hmem⟩ := ih hc
          rw [hparts] at hpart
          obtain rfl | hpart := List.mem_cons.mp hpart
          · exact ⟨d :: part, List.mem_cons_self, List.mem_cons_of_mem _ hmem⟩
          · exact ⟨part, List.mem_cons_of_mem _ hpart, hmem⟩

/-- The text of a network has no comma that the text it is read from has not. -/
def NetworkText (x : Externals) : Prop :=
  ∀ text network, x.ipNetwork text = some network → ',' ∉ text.toList → ',' ∉ network.toList

theorem unsafeComponent_comma {value : String} (h : unsafeComponent value = false) : ',' ∉ value.toList := by
  intro hmem
  have hnone := List.any_eq_false.mp h _ hmem
  simp at hnone

theorem validateTarget_ok {value code target : String} (h : validateTarget x value code = .ok target) :
    target = value ∧ ',' ∉ value.toList := by
  obtain ⟨_, -, h⟩ := Reading.bind_ok h
  obtain ⟨_, hsafe, h⟩ := Reading.bind_ok h
  cases h
  have hall := require_ok hsafe
  simp only [Bool.and_eq_true, Bool.not_eq_true'] at hall
  exact ⟨rfl, unsafeComponent_comma hall.2⟩

theorem mem_strip_of_mem {value : String} {c : Char} (h : c ∈ (Text.strip value).toList) : c ∈ value.toList := by
  rw [Text.strip, String.toList_ofList, Text.rstripBy, List.mem_reverse] at h
  have hleft := List.mem_reverse.mp ((List.dropWhile_sublist _).subset h)
  exact (List.dropWhile_sublist _).subset hleft

theorem validateRuleComponent_ok {value code component : String}
    (h : validateRuleComponent value code = .ok component) : ',' ∉ component.toList := by
  obtain ⟨_, hsafe, h⟩ := Reading.bind_ok h
  cases h
  have hall := require_ok hsafe
  simp only [Bool.and_eq_true, Bool.not_eq_true'] at hall
  exact fun hmem => unsafeComponent_comma hall.2 (mem_strip_of_mem hmem)

theorem canonicalDomain_ok {value domain : String} (h : canonicalDomain x value = .ok domain) :
    ',' ∉ domain.toList := by
  obtain ⟨_, -, h⟩ := Reading.bind_ok h
  obtain ⟨_, -, h⟩ := Reading.bind_ok h
  obtain ⟨_, -, h⟩ := Reading.bind_ok h
  obtain ⟨_, -, h⟩ := Reading.bind_ok h
  obtain ⟨_, hlabels, h⟩ := Reading.bind_ok h
  cases h
  intro hmem
  have hdot : ',' ≠ '.' := by decide
  obtain ⟨label, hlabel, hcomma⟩ := mem_splitOnChar hmem hdot
  have hvalid := List.all_eq_true.mp (require_ok hlabels) label hlabel
  simp only [validLabel, Bool.and_eq_true] at hvalid
  exact absurd (List.all_eq_true.mp hvalid.2 _ hcomma) (by decide)

theorem canonicalRuleValue_ok (hnetwork : NetworkText x) {kind value canonical : String}
    (h : canonicalRuleValue x kind value = .ok canonical) :
    kind ∈ ["DOMAIN", "DOMAIN-SUFFIX", "IP-CIDR"] ∧ ',' ∉ canonical.toList := by
  unfold canonicalRuleValue at h
  split_ifs at h with hdomain hnet
  · refine ⟨?_, canonicalDomain_ok h⟩
    obtain rfl | rfl := hdomain <;> decide
  · obtain ⟨component, hcomponent, h⟩ := Reading.bind_ok h
    cases hread : x.ipNetwork component with
    | none =>
      rw [hread] at h
      cases h
    | some network =>
      rw [hread] at h
      cases h
      exact ⟨by rw [hnet]; decide, hnetwork _ _ hread (validateRuleComponent_ok hcomponent)⟩

theorem runtimeTarget_comma {target : String} (h : ',' ∉ target.toList) :
    ',' ∉ (runtimeTarget target).toList := by
  unfold runtimeTarget
  split_ifs
  · decide
  · exact h

/-- Fields without a comma are what a text is split into that joins them by commas. -/
theorem splitOn_joined {fields : List (List Char)} (h : ∀ field ∈ fields, ',' ∉ field) (hne : fields ≠ []) :
    ([','].intercalate fields).splitOn ',' = fields :=
  List.splitOn_intercalate ',' h hne

theorem serializeRule_ok (hnetwork : NetworkText x) {rule text : Json} (h : serializeRule x rule = .ok text) :
    Intended x rule (fieldsOf text) := by
  obtain ⟨members, hmembers, h⟩ := Reading.bind_ok h
  obtain ⟨kind, hkind, h⟩ := Reading.bind_ok h
  obtain ⟨target, htarget, h⟩ := Reading.bind_ok h
  obtain ⟨targetValue, hvalid, hrest⟩ := Reading.bind_ok h
  obtain ⟨rfl, hcomma⟩ := validateTarget_ok hvalid
  have hruntime := runtimeTarget_comma hcomma
  rw [mapping_ok hmembers]
  refine ⟨kind, targetValue, string_ok hkind, string_ok htarget, ?_⟩
  change (if x.upper kind = "MATCH" then .ok (.str (String.join ["MATCH,", runtimeTarget targetValue]))
    else _) = Except.ok text at hrest
  by_cases hmatch : x.upper kind = "MATCH"
  · rw [if_pos hmatch] at hrest
    cases hrest
    refine .inl ⟨hmatch, ?_⟩
    have htext : (String.join ["MATCH,", runtimeTarget targetValue]).toList =
        [','].intercalate ["MATCH".toList, (runtimeTarget targetValue).toList] := by
      simp [String.join, List.intercalate]
    rw [fieldsOf, htext]
    refine splitOn_joined (fun field hfield => ?_) (by simp)
    obtain rfl | rfl := List.mem_pair.mp hfield
    · decide
    · exact hruntime
  · rw [if_neg hmatch] at hrest
    obtain ⟨value, hvalue, hrest⟩ := Reading.bind_ok hrest
    obtain ⟨_, -, hrest⟩ := Reading.bind_ok hrest
    obtain ⟨canonical, hcanonical, hrest⟩ := Reading.bind_ok hrest
    cases hrest
    obtain ⟨hsupported, hclean⟩ := canonicalRuleValue_ok hnetwork hcanonical
    refine .inr ⟨hmatch, value, canonical, string_ok hvalue, hcanonical, ?_⟩
    have htext : (String.join [x.upper kind, ",", canonical, ",", runtimeTarget targetValue]).toList =
        [','].intercalate [(x.upper kind).toList, canonical.toList, (runtimeTarget targetValue).toList] := by
      simp [String.join, List.intercalate]
    change (String.join [x.upper kind, ",", canonical, ",", runtimeTarget targetValue]).toList.splitOn ',' = _
    rw [htext]
    refine splitOn_joined (fun field hfield => ?_) (by simp)
    simp only [List.mem_cons, List.not_mem_nil, or_false] at hfield hsupported
    obtain rfl | rfl | rfl := hfield
    · obtain h | h | h := hsupported <;> rw [h] <;> decide
    · exact hclean
    · exact hruntime

theorem validateRule_ok {rule : Json} {kind : String} (h : validateRule x rule = .ok kind) :
    ∃ text, member rule "match" = .str text ∧ x.upper text = kind := by
  obtain ⟨members, hmembers, h⟩ := Reading.bind_ok h
  obtain ⟨text, htext, h⟩ := Reading.bind_ok h
  obtain ⟨target, -, h⟩ := Reading.bind_ok h
  obtain ⟨_, -, h⟩ := Reading.bind_ok h
  rw [mapping_ok hmembers]
  refine ⟨text, string_ok htext, ?_⟩
  change (if x.upper text = "MATCH" then _ else _) = Except.ok kind at h
  by_cases hmatch : x.upper text = "MATCH"
  · rw [if_pos hmatch] at h
    obtain ⟨_, -, h⟩ := Reading.bind_ok h
    obtain ⟨_, -, h⟩ := Reading.bind_ok h
    cases h
    rfl
  · rw [if_neg hmatch] at h
    split at h
    · obtain ⟨_, -, h⟩ := Reading.bind_ok h
      obtain ⟨_, -, h⟩ := Reading.bind_ok h
      cases h
      rfl
    · cases h

theorem validateRuleTarget_ok {allowed : List String} {rule : Json} (h : validateRuleTarget x allowed rule = .ok ()) :
    ∃ text target, member rule "match" = .str text ∧ member rule "target" = .str target ∧
      (x.upper text = "MATCH" ∨ target ∈ allowed) := by
  obtain ⟨members, hmembers, h⟩ := Reading.bind_ok h
  obtain ⟨text, htext, h⟩ := Reading.bind_ok h
  obtain ⟨target, htarget, h⟩ := Reading.bind_ok h
  obtain ⟨read, hread, h⟩ := Reading.bind_ok h
  rw [mapping_ok hmembers]
  refine ⟨text, target, string_ok htext, string_ok htarget, ?_⟩
  rw [← (validateTarget_ok hread).1]
  simpa using require_ok h

/-- The one rule of kind MATCH is the last one, and it blocks. -/
theorem Sections.fallback (h : Sections x desired proxies mixedPort proxyNames groupNames kinds) :
    ∃ earlier last, desired.rules = earlier ++ [last] ∧
      (∀ rule ∈ earlier, ∀ text, member rule "match" = .str text → x.upper text ≠ "MATCH") ∧
      (∃ text, member last "match" = .str text ∧ x.upper text = "MATCH") ∧
      member last "target" = .str "BLOCK" := by
  obtain ⟨kinit, rfl⟩ := List.getLast?_eq_some_iff.mp h.last
  have hnone : "MATCH" ∉ kinit := by
    have hone := h.one
    rw [List.count_append, List.count_singleton_self, Nat.add_eq_right, List.count_eq_zero] at hone
    exact hone
  have hread := Reading.mapM_ok_iff.mp h.rules
  have hearlier := List.forall₂_take_append _ _ _ hread
  obtain ⟨last, _, hvalid, hnil, hlast⟩ :=
    List.forall₂_cons_right_iff.mp (List.forall₂_drop_append _ _ _ hread)
  rw [List.forall₂_nil_right_iff] at hnil
  have hrules : desired.rules = desired.rules.take kinit.length ++ [last] := by
    rw [← hnil, ← hlast, List.take_append_drop]
  generalize desired.rules.take kinit.length = earlier at hearlier hrules
  refine ⟨earlier, last, hrules, fun rule hrule text htext hmatch => ?_, validateRule_ok hvalid, ?_⟩
  · obtain ⟨kind, hkind, hvalid⟩ := Reading.exists_of_element (Reading.mapM_ok_iff.mpr hearlier) hrule
    obtain ⟨read, hreadText, hupper⟩ := validateRule_ok hvalid
    rw [htext] at hreadText
    cases hreadText
    rw [hmatch] at hupper
    exact hnone (hupper ▸ hkind)
  · have hblock := h.block
    rw [hrules, List.zip_append hearlier.length_eq, List.find?_append] at hblock
    have hfirst : (earlier.zip kinit).find? (fun entry => decide (entry.2 = "MATCH")) = none := by
      refine List.find?_eq_none.mpr fun entry hentry => ?_
      have hkind := (List.of_mem_zip hentry).2
      simpa using fun heq : entry.2 = "MATCH" => hnone (heq ▸ hkind)
    rw [hfirst] at hblock
    have htarget : ruleTarget last = .str "BLOCK" := by simpa using hblock
    cases last <;> exact htarget

/-- The target of a rule is declared, or the rule blocks. -/
theorem Sections.rule_target (h : Sections x desired proxies mixedPort proxyNames groupNames kinds)
    {rule : Json} (hrule : rule ∈ desired.rules) {target : String} (htarget : member rule "target" = .str target) :
    target ∈ proxyNames ++ groupNames ++ ["BLOCK"] := by
  obtain ⟨earlier, last, hrules, hothers, -, hblock⟩ := h.fallback
  obtain ⟨text, read, htext, hread, hknown⟩ := validateRuleTarget_ok (h.known rule hrule)
  rw [htarget] at hread
  cases hread
  rw [hrules, List.mem_append, List.mem_singleton] at hrule
  obtain hrule | rfl := hrule
  · exact hknown.resolve_left (hothers rule hrule text htext)
  · rw [htarget] at hblock
    cases hblock
    simp

/-- The fields of a rule begin with its kind and end with its target. -/
theorem Intended.ends {rule : Json} {fields : List (List Char)} (h : Intended x rule fields) :
    ∃ text target, member rule "match" = .str text ∧ member rule "target" = .str target ∧
      fields.head? = some (x.upper text).toList ∧ fields.getLast? = some (runtimeTarget target).toList := by
  obtain ⟨text, target, htext, htarget, ⟨hmatch, rfl⟩ | ⟨-, value, canonical, -, -, rfl⟩⟩ := h
  · exact ⟨text, target, htext, htarget, by rw [hmatch]; rfl, rfl⟩
  · exact ⟨text, target, htext, htarget, rfl, rfl⟩

end Rules

section Document

variable {x : Externals} {now : Timestamp} {desired : DesiredForwarderState} {c : Composition}

theorem member_canonical (entry : Json) (key : String) :
    member entry.canonical key = (member entry key).canonical := by
  cases entry with
  | obj members => exact Members.item_canonical members key
  | _ => rfl

theorem entries_of_item {document : Members} {key : String} {items : List Json}
    (h : Members.item document key = .arr items) : entries document key = items := by
  rw [entries, h]

/-- What stands under a key that is no deployment constant. -/
theorem content_item (h : Checked x now desired c) {key : String} (hkey : key ∉ allowedConstants) :
    Members.item (c.content desired) key = Json.canonical
      ((((defaultConstants c.controller).lookup key).or (List.lookup key
        [("listeners", .arr (desired.listenerSpecs.map listenerMapping)), ("proxies", .arr (c.proxies desired)),
          ("proxy-groups", .arr desired.proxyGroups), ("rules", .arr c.rules),
          ("dns", .obj desired.dns)])).getD .null) := by
  rw [Composition.content, Members.item_canonical, Members.item, h.lookup_document key hkey]

theorem content_entries (h : Checked x now desired c) {key : String} {items : List Json}
    (hkey : key ∉ allowedConstants)
    (hitems : (((defaultConstants c.controller).lookup key).or (List.lookup key
        [("listeners", .arr (desired.listenerSpecs.map listenerMapping)), ("proxies", .arr (c.proxies desired)),
          ("proxy-groups", .arr desired.proxyGroups), ("rules", .arr c.rules),
          ("dns", .obj desired.dns)])).getD .null = .arr items) :
    entries (c.content desired) key = items.map Json.canonical := by
  refine entries_of_item ?_
  rw [content_item h hkey, hitems, Json.canonical, Json.canonicalItems_eq_map]

theorem proxies_entries (h : Checked x now desired c) :
    entries (c.content desired) "proxies" = (c.proxies desired).map Json.canonical :=
  content_entries h (by decide) rfl

theorem groups_entries (h : Checked x now desired c) :
    entries (c.content desired) "proxy-groups" = desired.proxyGroups.map Json.canonical :=
  content_entries h (by decide) rfl

theorem rules_entries (h : Checked x now desired c) :
    entries (c.content desired) "rules" = c.rules.map Json.canonical :=
  content_entries h (by decide) rfl

theorem listeners_entries (h : Checked x now desired c) :
    entries (c.content desired) "listeners" = (desired.listenerSpecs.map listenerMapping).map Json.canonical :=
  content_entries h (by decide) rfl

theorem bind_address (h : Checked x now desired c) :
    Members.item (c.content desired) "bind-address" = .str canonicalBindAddress := by
  rw [content_item h (by decide)]
  rfl

theorem fieldsOf_canonical (rule : Json) : fieldsOf rule.canonical = fieldsOf rule := by
  cases rule <;> rfl

theorem ruleFields_eq (h : Checked x now desired c) : ruleFields (c.content desired) = c.rules.map fieldsOf := by
  rw [ruleFields, rules_entries h, List.map_map]
  exact List.map_congr_left fun rule _ => fieldsOf_canonical rule

theorem rules_intended (hnetwork : NetworkText x) (h : Checked x now desired c) :
    List.Forall₂ (Intended x) desired.rules (ruleFields (c.content desired)) := by
  rw [ruleFields_eq h, List.forall₂_map_right_iff]
  exact (Reading.mapM_ok_iff.mp h.rules).imp fun _ _ => serializeRule_ok hnetwork

theorem names_of_reading {f : Json → Except Exn String} {items : List Json} {found : List String}
    (hread : items.mapM f = .ok found) (hname : ∀ item name, f item = .ok name → member item "name" = .str name) :
    items.map (fun entry => member entry "name") = found.map Json.str := by
  have hall := Reading.mapM_ok_iff.mp hread
  clear hread
  induction hall with
  | nil => rfl
  | cons hfirst _ ih => rw [List.map_cons, List.map_cons, ih, hname _ _ hfirst]

theorem canonical_names {items : List Json} {found : List String}
    (h : items.map (fun entry => member entry "name") = found.map Json.str) :
    (items.map Json.canonical).map (fun entry => member entry "name") = found.map Json.str := by
  have hcanonical : (items.map Json.canonical).map (fun entry => member entry "name") =
      (items.map fun entry => member entry "name").map Json.canonical := by
    rw [List.map_map, List.map_map]
    exact List.map_congr_left fun entry _ => member_canonical entry "name"
  rw [hcanonical, h, List.map_map]
  rfl

variable {mixedPort : ℤ} {proxyNames groupNames kinds : List String}

theorem proxy_names_eq (h : Checked x now desired c)
    (hs : Sections x desired (c.proxies desired) mixedPort proxyNames groupNames kinds) :
    (entries (c.content desired) "proxies").map (fun entry => member entry "name") =
      proxyNames.map Json.str := by
  rw [proxies_entries h]
  exact canonical_names (names_of_reading hs.proxies fun _ _ hvalid => (validateProxy_name hvalid).1)

theorem names_eq (h : Checked x now desired c)
    (hs : Sections x desired (c.proxies desired) mixedPort proxyNames groupNames kinds) :
    names (c.content desired) = (proxyNames ++ groupNames).map Json.str := by
  rw [names, List.map_append, List.map_append, proxy_names_eq h hs, groups_entries h,
    canonical_names (names_of_reading hs.groups fun _ _ hvalid => (validateGroup_ok hvalid).1)]

theorem str_injective : Function.Injective Json.str := fun _ _ h => Json.str.inj h

theorem names_nodup (h : Checked x now desired c)
    (hs : Sections x desired (c.proxies desired) mixedPort proxyNames groupNames kinds) :
    (names (c.content desired)).Nodup := by
  rw [names_eq h hs]
  refine List.Nodup.map str_injective (List.nodup_append.mpr ⟨hs.proxies_nodup, hs.groups_nodup, ?_⟩)
  rintro name hname _ hgroup rfl
  exact hs.disjoint name hname hgroup

/-- No entry has a reserved name. -/
theorem reserved_not_mem (h : Checked x now desired c)
    (hs : Sections x desired (c.proxies desired) mixedPort proxyNames groupNames kinds) {name : String}
    (hname : name ∈ reservedIdentities) : Json.str name ∉ names (c.content desired) := by
  rw [names_eq h hs, List.mem_map_of_injective str_injective, List.mem_append]
  rintro (hmem | hmem)
  · obtain ⟨_, -, hvalid⟩ := Reading.exists_of_mem hs.proxies hmem
    exact (validateProxy_name hvalid).2 hname
  · obtain ⟨_, -, hvalid⟩ := Reading.exists_of_mem hs.groups hmem
    exact (validateGroup_ok hvalid).2.1 hname

theorem resolves_of_mem (h : Checked x now desired c)
    (hs : Sections x desired (c.proxies desired) mixedPort proxyNames groupNames kinds) {target : Json}
    (hmem : target ∈ names (c.content desired)) : Resolves (c.content desired) target :=
  .inr (List.count_eq_one_of_mem (names_nodup h hs) hmem)

theorem resolves_runtime (h : Checked x now desired c)
    (hs : Sections x desired (c.proxies desired) mixedPort proxyNames groupNames kinds) {target : String}
    (htarget : target ∈ proxyNames ++ groupNames ++ ["BLOCK"]) :
    Resolves (c.content desired) (.str (runtimeTarget target)) := by
  unfold runtimeTarget
  split_ifs with hblock
  · exact .inl rfl
  · refine resolves_of_mem h hs ?_
    rw [names_eq h hs, List.mem_map_of_injective str_injective]
    exact (List.mem_append.mp htarget).resolve_right fun hmem => hblock (List.mem_singleton.mp hmem)

theorem resolves_rule (hnetwork : NetworkText x) (h : Checked x now desired c)
    (hs : Sections x desired (c.proxies desired) mixedPort proxyNames groupNames kinds) :
    ∀ target ∈ ruleTargets (c.content desired), Resolves (c.content desired) target := by
  intro found hfound
  obtain ⟨fields, hfields, hlast⟩ := List.mem_filterMap.mp hfound
  rw [ruleFields_eq h] at hfields
  obtain ⟨rendered, hrendered, rfl⟩ := List.mem_map.mp hfields
  obtain ⟨rule, hrule, hserialized⟩ := Reading.exists_of_mem h.rules hrendered
  obtain ⟨text, target, -, htarget, -, hend⟩ := (serializeRule_ok hnetwork hserialized).ends
  rw [hend, Option.map_some, Option.some.injEq, String.ofList_toList] at hlast
  rw [← hlast]
  exact resolves_runtime h hs (hs.rule_target hrule htarget)

theorem resolves_member (h : Checked x now desired c)
    (hs : Sections x desired (c.proxies desired) mixedPort proxyNames groupNames kinds) :
    ∀ target ∈ groupMembers (c.content desired), Resolves (c.content desired) target := by
  intro target htarget
  rw [groupMembers, groups_entries h, List.mem_flatMap] at htarget
  obtain ⟨_, hentry, hmember⟩ := htarget
  obtain ⟨group, hgroup, rfl⟩ := List.mem_map.mp hentry
  obtain ⟨_, -, hvalid⟩ := Reading.exists_of_element hs.groups hgroup
  obtain ⟨-, -, refs, hrefs, hknown⟩ := validateGroup_ok hvalid
  rw [member_canonical, hrefs, Json.canonical, Json.canonicalItems_eq_map] at hmember
  obtain ⟨ref, href, rfl⟩ := List.mem_map.mp hmember
  obtain ⟨name, hname, rfl⟩ := List.mem_map.mp (hknown ref href)
  refine resolves_of_mem h hs ?_
  rw [names_eq h hs]
  exact List.mem_map_of_mem (List.mem_append_left _ hname)

theorem resolves_listener (h : Checked x now desired c)
    (hs : Sections x desired (c.proxies desired) mixedPort proxyNames groupNames kinds) :
    ∀ target ∈ listenerTargets (c.content desired), Resolves (c.content desired) target := by
  intro target htarget
  rw [listenerTargets, listeners_entries h, List.map_map, List.map_map] at htarget
  obtain ⟨listener, hlistener, rfl⟩ := List.mem_map.mp htarget
  change Resolves _ (member (listenerMapping listener).canonical "proxy")
  rw [member_canonical]
  exact resolves_runtime h hs (hs.targets listener hlistener)

theorem heads_of_readings {rules : List Json} {found : List (List (List Char))}
    (hread : List.Forall₂ (fun rule kind => validateRule x rule = .ok kind) rules kinds)
    (hintended : List.Forall₂ (Intended x) rules found) :
    found.map List.head? = kinds.map fun kind => some kind.toList := by
  induction hread generalizing found with
  | nil =>
    rw [List.forall₂_nil_left_iff] at hintended
    rw [hintended]
    rfl
  | cons hfirst _ ih =>
    obtain ⟨fields, rest, hfields, hrest, rfl⟩ := List.forall₂_cons_left_iff.mp hintended
    obtain ⟨text, _, htext, -, hhead, -⟩ := hfields.ends
    obtain ⟨read, hread, rfl⟩ := validateRule_ok hfirst
    rw [htext] at hread
    cases hread
    rw [List.map_cons, List.map_cons, hhead, ih hrest]

theorem fallback_count (hnetwork : NetworkText x) (h : Checked x now desired c)
    (hs : Sections x desired (c.proxies desired) mixedPort proxyNames groupNames kinds) :
    ((ruleFields (c.content desired)).map List.head?).count (some "MATCH".toList) = 1 := by
  have hheads := heads_of_readings (Reading.mapM_ok_iff.mp hs.rules) (rules_intended hnetwork h)
  have hinjective : Function.Injective fun kind : String => some kind.toList :=
    fun _ _ heq => String.toList_injective (Option.some.inj heq)
  rw [hheads, List.count_map_of_injective _ _ hinjective, hs.one]

theorem terminal_rule (hnetwork : NetworkText x) (h : Checked x now desired c)
    (hs : Sections x desired (c.proxies desired) mixedPort proxyNames groupNames kinds) :
    (ruleFields (c.content desired)).getLast? = some ["MATCH".toList, "REJECT".toList] := by
  obtain ⟨earlier, last, hrules, -, ⟨text, htext, hmatch⟩, hblock⟩ := hs.fallback
  have hintended := rules_intended hnetwork h
  rw [hrules] at hintended
  obtain ⟨fields, _, hfields, hnil, hdrop⟩ :=
    List.forall₂_cons_right_iff.mp (List.forall₂_drop_append _ _ _ hintended.flip)
  rw [List.forall₂_nil_right_iff] at hnil
  have hfound : ruleFields (c.content desired) =
      (ruleFields (c.content desired)).take earlier.length ++ [fields] := by
    rw [← hnil, ← hdrop, List.take_append_drop]
  have hends : fields = ["MATCH".toList, "REJECT".toList] := by
    obtain ⟨read, target, hread, htarget, ⟨-, hfields⟩ | ⟨hother, -⟩⟩ := hfields
    · rw [hblock] at htarget
      cases htarget
      exact hfields
    · rw [htext] at hread
      cases hread
      exact (hother hmatch).elim
  rw [hfound, List.getLast?_concat, hends]

theorem portOf_ok {value : Json} {code : String} {port : ℤ} (h : portOf value code = .ok port) :
    value = .int port := by
  cases value with
  | int n =>
    simp only [portOf] at h
    split_ifs at h
    cases h
    rfl
  | _ => cases h

theorem Sections.mixed_port (h : Sections x desired (c.proxies desired) mixedPort proxyNames groupNames kinds) :
    constant desired.deploymentConstants "mixed-port" (.int 7890) = .int mixedPort := by
  obtain ⟨controller, hconstants⟩ := h.constants
  obtain ⟨_, -, hconstants⟩ := Reading.bind_ok hconstants
  obtain ⟨_, -, hconstants⟩ := Reading.bind_ok hconstants
  obtain ⟨port, hport, hconstants⟩ := Reading.bind_ok hconstants
  obtain ⟨_, -, hconstants⟩ := Reading.bind_ok hconstants
  obtain ⟨_, -, hconstants⟩ := Reading.bind_ok hconstants
  obtain ⟨_, -, hconstants⟩ := Reading.bind_ok hconstants
  cases hconstants
  exact portOf_ok hport

theorem mixed_port_item (hs : Sections x desired (c.proxies desired) mixedPort proxyNames groupNames kinds) :
    Members.item (c.content desired) "mixed-port" = .int mixedPort := by
  have hconstant := hs.mixed_port
  have hfilter := Members.lookup_filter (union (defaultConstants c.controller) desired.deploymentConstants ++
    [("listeners", .arr (desired.listenerSpecs.map listenerMapping)), ("proxies", .arr (c.proxies desired)),
      ("proxy-groups", .arr desired.proxyGroups), ("rules", .arr c.rules), ("dns", .obj desired.dns)])
    (fun k => k ≠ "api-secret-ref" && k ≠ "api-secret-revision") "mixed-port"
  rw [Composition.content, Members.item_canonical, Members.item, rawDocument, withoutReferences, hfilter,
    if_pos (by decide), List.lookup_append, lookup_union]
  rw [constant] at hconstant
  cases hfound : desired.deploymentConstants.lookup "mixed-port" with
  | none =>
    rw [hfound] at hconstant
    cases hconstant
    rfl
  | some port =>
    rw [hfound] at hconstant
    cases hconstant
    rfl

theorem sockets_eq (h : Checked x now desired c)
    (hs : Sections x desired (c.proxies desired) mixedPort proxyNames groupNames kinds) :
    sockets (c.content desired) = mixedSocket desired :: desired.listenerSpecs.map socketOf := by
  rw [sockets, bind_address h, mixed_port_item hs, listeners_entries h, List.map_map, List.map_map, mixedSocket,
    hs.mixed_port]
  refine congrArg _ (List.map_congr_left fun listener _ => ?_)
  change (member (listenerMapping listener).canonical "listen",
    member (listenerMapping listener).canonical "port") = socketOf listener
  rw [member_canonical, member_canonical]
  rfl

/-- The projection tells sockets apart by the stripped texts of their addresses. -/
theorem apart_iff {bound : String → Option Address} (h : Checked x now desired c)
    (hs : Sections x desired (c.proxies desired) mixedPort proxyNames groupNames kinds) :
    ((sockets (c.content desired)).Pairwise fun s t => clash bound s t = false) ↔
      (∀ listener ∈ desired.listenerSpecs, Text.strip listener.listen ≠ canonicalBindAddress →
        clash bound (mixedSocket desired) (socketOf listener) = false) ∧
      desired.listenerSpecs.Pairwise fun a b => Text.strip a.listen ≠ Text.strip b.listen →
        clash bound (socketOf a) (socketOf b) = false := by
  obtain ⟨_, hfold⟩ := hs.listeners
  obtain ⟨hmixed, hlisteners⟩ := listeners_ok hfold
  have hports : ∀ s t : Json × Json, s.2 ≠ t.2 → clash bound s t = false := fun s t hne => by simp [clash, hne]
  rw [sockets_eq h hs, List.pairwise_cons, List.forall_mem_map, List.pairwise_map]
  refine and_congr ⟨fun hall listener hmem _ => hall listener hmem, fun hall listener hmem => ?_⟩
    ⟨fun hall => hall.imp fun {a b} hab (_ : Text.strip a.listen ≠ Text.strip b.listen) => hab, fun hall => (hlisteners.and hall).imp fun {a b} ⟨hne, hab⟩ => ?_⟩
  · by_cases haddress : Text.strip listener.listen = canonicalBindAddress
    · refine hports _ _ fun hport => (hmixed listener hmem).1 ⟨haddress, ?_⟩
      rw [mixedSocket, hs.mixed_port] at hport
      exact (Json.int.inj hport).symm
    · exact hall listener hmem haddress
  · by_cases haddress : Text.strip a.listen = Text.strip b.listen
    · exact hports _ _ fun hport => hne (Prod.ext haddress (Json.int.inj hport))
    · exact hab haddress

theorem egressProxyMapping_dialer {proxy : ForwarderEgressProxyDTO} {item : Json}
    (h : egressProxyMapping proxy = .ok item) :
    ∃ members : Members, item = .obj members ∧ Members.item members "name" = .str proxy.name ∧
      members.lookup "dialer-proxy" = proxy.transportProxyName.map Json.str := by
  obtain ⟨_, -, h⟩ := Reading.bind_ok h
  obtain ⟨_, -, h⟩ := Reading.bind_ok h
  obtain ⟨_, -, h⟩ := Reading.bind_ok h
  cases htransport : proxy.transportProxyName with
  | none =>
    simp only [htransport] at h
    cases h
    exact ⟨_, rfl, rfl, rfl⟩
  | some name =>
    simp only [htransport] at h
    cases h
    exact ⟨_, rfl, rfl, rfl⟩

/-- An egress proxy has an entry of its name, with its dialer. -/
theorem egress_entry (h : Checked x now desired c) {proxy : ForwarderEgressProxyDTO}
    (hproxy : proxy ∈ desired.egressProxies) :
    ∃ members : Members, Json.obj members ∈ entries (c.content desired) "proxies" ∧
      Members.item members "name" = .str proxy.name ∧
      members.lookup "dialer-proxy" = proxy.transportProxyName.map Json.str := by
  obtain ⟨item, hitem, hmapping⟩ := Reading.exists_of_element h.egress hproxy
  obtain ⟨members, rfl, hname, hdialer⟩ := egressProxyMapping_dialer hmapping
  refine ⟨Json.sortMembers (Json.canonicalMembers members), ?_, ?_, ?_⟩
  · rw [proxies_entries h]
    exact List.mem_map_of_mem (List.mem_append_right _ hitem)
  · rw [Members.item_canonical, hname]
    rfl
  · rw [Members.lookup_canonical, hdialer]
    cases proxy.transportProxyName <;> rfl

theorem mem_dialers_iff (h : Checked x now desired c)
    (hs : Sections x desired (c.proxies desired) mixedPort proxyNames groupNames kinds) {target : Json} :
    target ∈ dialers desired (c.content desired) ↔
      ∃ proxy ∈ desired.egressProxies, ∃ name, proxy.transportProxyName = some name ∧ target = .str name := by
  have hnodup := names_nodup h hs
  rw [names, List.map_append] at hnodup
  have hinjective := List.inj_on_of_nodup_map hnodup.of_append_left
  simp only [dialers, List.mem_filterMap, List.mem_filter, List.contains_iff_mem, List.mem_map]
  constructor
  · rintro ⟨entry, ⟨hentry, proxy, hproxy, hname⟩, hdialer⟩
    obtain ⟨members, hmem, hown, hlookup⟩ := egress_entry h hproxy
    obtain rfl := hinjective hentry hmem (hname.symm.trans hown.symm)
    rw [dialerOf, hlookup, Option.map_eq_some_iff] at hdialer
    obtain ⟨name, htransport, rfl⟩ := hdialer
    exact ⟨proxy, hproxy, name, htransport, rfl⟩
  · rintro ⟨proxy, hproxy, name, htransport, rfl⟩
    obtain ⟨members, hmem, hown, hlookup⟩ := egress_entry h hproxy
    exact ⟨.obj members, ⟨hmem, proxy, hproxy, hown.symm⟩, by rw [dialerOf, hlookup, htransport]; rfl⟩

theorem materializedProxies_ok {item : TransportMaterialization} {found : List Json}
    (h : materializedProxies item = .ok found) : entries item.content "proxies" = found := by
  unfold materializedProxies at h
  split at h
  · cases h
  · rename_i proxies hproxies
    rw [entries_of_item hproxies]
    obtain ⟨read, hread, hfound⟩ := Reading.bind_ok h
    cases hfound
    have hall := Reading.mapM_ok_iff.mp hread
    clear hread hproxies h
    induction hall with
    | nil => rfl
    | cons hfirst _ ih => exact congrArg₂ List.cons (mapping_ok hfirst) ih
  · cases h

theorem declared_eq (h : Checked x now desired c)
    (hs : Sections x desired (c.proxies desired) mixedPort proxyNames groupNames kinds) :
    names (c.content desired) = declared desired := by
  have hmaterials : c.materialized.flatten =
      desired.transportMaterializations.flatMap fun item => entries item.content "proxies" := by
    have hall := Reading.mapM_ok_iff.mp h.materialized
    generalize desired.transportMaterializations = items at hall ⊢
    generalize c.materialized = found at hall ⊢
    induction hall with
    | nil => rfl
    | cons hfirst _ ih => rw [List.flatten_cons, List.flatMap_cons, ih, materializedProxies_ok hfirst]
  have hegress : c.egress.map (fun entry => member entry "name") =
      desired.egressProxies.map fun proxy => Json.str proxy.name := by
    have hall := Reading.mapM_ok_iff.mp h.egress
    generalize desired.egressProxies = items at hall ⊢
    generalize c.egress = found at hall ⊢
    induction hall with
    | nil => rfl
    | cons hfirst _ ih =>
      obtain ⟨members, rfl, hname, -⟩ := egressProxyMapping_dialer hfirst
      rw [List.map_cons, List.map_cons, ih]
      exact congrArg (· :: _) hname
  have hproxies := names_of_reading hs.proxies fun _ _ hvalid => (validateProxy_name hvalid).1
  have hgroups := names_of_reading hs.groups fun _ _ hvalid => (validateGroup_ok hvalid).1
  rw [names_eq h hs, List.map_append, ← hproxies, ← hgroups, declared, Composition.proxies, hmaterials,
    List.map_append, hegress]

/-- Everything but the dialers and the sockets is as it should be in every document. -/
theorem wellFormed_iff {bound : String → Option Address} (hnetwork : NetworkText x) (h : Checked x now desired c) :
    WellFormed x bound desired (c.content desired) ↔ Sound bound desired := by
  obtain ⟨mixedPort, proxyNames, groupNames, kinds, hs⟩ := sections_ok h.sections
  have hdeclared := declared_eq h hs
  constructor
  · intro hw
    obtain ⟨hmixed, hlisteners⟩ := (apart_iff h hs).mp hw.apart
    refine ⟨fun proxy hproxy name hname => ?_, hmixed, hlisteners⟩
    have hdialer := (mem_dialers_iff h hs).mpr ⟨proxy, hproxy, name, hname, rfl⟩
    obtain hreject | hone := hw.resolved _ (List.mem_append_right _ hdialer)
    · exact .inl (Json.str.inj hreject)
    · exact .inr (hdeclared ▸ List.count_pos_iff.mp (by omega))
  · intro hsound
    have hresolved : ∀ target ∈ targets (c.content desired) ++ dialers desired (c.content desired),
        Resolves (c.content desired) target := by
      intro target htarget
      simp only [targets, List.mem_append] at htarget
      obtain ((hrule | hmember) | hlistener) | hdialer := htarget
      · exact resolves_rule hnetwork h hs target hrule
      · exact resolves_member h hs target hmember
      · exact resolves_listener h hs target hlistener
      · obtain ⟨proxy, hproxy, name, hname, rfl⟩ := (mem_dialers_iff h hs).mp hdialer
        obtain rfl | hmem := hsound.dialers proxy hproxy name hname
        · exact .inl rfl
        · exact resolves_of_mem h hs (hdeclared ▸ hmem)
    refine ⟨rules_intended hnetwork h, fallback_count hnetwork h hs, terminal_rule hnetwork h hs,
      fun hdirect => ?_, hresolved, names_nodup h hs, (apart_iff h hs).mpr ⟨hsound.mixed, hsound.listeners⟩⟩
    obtain hreject | hone := hresolved _ hdirect
    · exact absurd (Json.str.inj hreject) (by decide)
    · have hreserved : Json.str "DIRECT" ∉ names (c.content desired) := reserved_not_mem h hs (by decide)
      exact hreserved (List.count_pos_iff.mp (by rw [hone]; decide))

/-- An accepted document is well formed and fails closed if and only if every dialer is
declared and no two texts name overlapping sockets. -/
theorem document_wellFormed_iff (bound : String → Option Address) (hnetwork : NetworkText x) {document : Json}
    {version : Digest} (h : composeMihomoDocument x now desired = .ok (document, version)) :
    ∃ members, document = .obj members ∧ (WellFormed x bound desired members ↔ Sound bound desired) := by
  obtain ⟨c, hchecked, rfl, -⟩ := composeMihomoDocument_ok x h
  exact ⟨c.content desired, rfl, wellFormed_iff hnetwork hchecked⟩

end Document

/-- The addresses of two texts. -/
def sampleBound (text : String) : Option Address :=
  if text = "127.0.0.1" then some ⟨4, 2130706433⟩ else if text = "0.0.0.0" then some ⟨4, 0⟩ else none

/-- An egress proxy behind a relay, with a rule of each kind. -/
def relayedDesired : DesiredForwarderState :=
  { sampleDesired with
    proxies := [.obj [("name", .str "relay"), ("type", .str "socks5")]]
    egressProxies := [⟨"out", "socks5", "198.51.100.7", 1080, "ref", 1, some "relay", none⟩]
    rules := [.obj [("match", .str "DOMAIN"), ("value", .str "example.com"), ("target", .str "out")],
      .obj [("match", .str "IP-CIDR"), ("value", .str "10.0.0.0/8"), ("target", .str "BLOCK")],
      .obj [("match", .str "MATCH"), ("target", .str "BLOCK")]] }

theorem sample_networkText : NetworkText sampleExternals := by
  intro text network h hcomma
  cases h
  exact hcomma

theorem compose_of_isOk {desired : DesiredForwarderState}
    (h : (composeMihomoDocument sampleExternals 0 desired).isOk = true) :
    ∃ document version, composeMihomoDocument sampleExternals 0 desired = .ok (document, version) := by
  cases hrun : composeMihomoDocument sampleExternals 0 desired with
  | error e => simp [hrun, Except.isOk, Except.toBool] at h
  | ok found => exact ⟨found.1, found.2, rfl⟩

theorem document_wellFormed_iff_sample : ∃ members version,
    composeMihomoDocument sampleExternals 0 relayedDesired = .ok (.obj members, version) ∧
      WellFormed sampleExternals sampleBound relayedDesired members := by
  have hok : (composeMihomoDocument sampleExternals 0 relayedDesired).isOk = true := by decide +kernel
  obtain ⟨document, version, hcompose⟩ := compose_of_isOk hok
  obtain ⟨members, rfl, hiff⟩ := document_wellFormed_iff sampleBound sample_networkText hcompose
  refine ⟨members, version, hcompose, hiff.mpr ⟨fun proxy hproxy name hname => ?_, by decide, by decide⟩⟩
  obtain rfl := List.mem_singleton.mp hproxy
  obtain rfl := Option.some.inj hname
  exact .inr (by decide)

/-- The dialer of the egress proxy is not declared. -/
def danglingDesired : DesiredForwarderState := { relayedDesired with proxies := [] }

/-- A listener on every address has the port of the mixed socket. -/
def overlappingDesired : DesiredForwarderState :=
  { relayedDesired with listenerSpecs := [⟨"in", "socks", "0.0.0.0", 7890, "out"⟩] }

theorem malformed_of_unsound {desired : DesiredForwarderState}
    (hok : (composeMihomoDocument sampleExternals 0 desired).isOk = true) (hsound : ¬Sound sampleBound desired) :
    ∃ members version, composeMihomoDocument sampleExternals 0 desired = .ok (.obj members, version) ∧
      ¬WellFormed sampleExternals sampleBound desired members := by
  obtain ⟨document, version, hcompose⟩ := compose_of_isOk hok
  obtain ⟨c, hchecked, rfl, -⟩ := composeMihomoDocument_ok sampleExternals hcompose
  exact ⟨c.content desired, version, hcompose,
    fun hw => hsound ((wellFormed_iff sample_networkText hchecked).mp hw)⟩

theorem malformed_accepted :
    (∃ members version, composeMihomoDocument sampleExternals 0 danglingDesired = .ok (.obj members, version) ∧
      ¬WellFormed sampleExternals sampleBound danglingDesired members) ∧
    ∃ members version, composeMihomoDocument sampleExternals 0 overlappingDesired = .ok (.obj members, version) ∧
      ¬WellFormed sampleExternals sampleBound overlappingDesired members := by
  constructor
  · refine malformed_of_unsound (by decide +kernel) fun hsound => ?_
    obtain hreject | hdeclared := hsound.dialers _ List.mem_cons_self "relay" rfl
    · exact absurd hreject (by decide)
    · exact absurd hdeclared (by decide)
  · refine malformed_of_unsound (by decide +kernel) fun hsound => ?_
    have hclash := hsound.mixed _ List.mem_cons_self (by decide +kernel)
    exact absurd hclash (by decide)

end Lingsway.Forwarder.MihomoDocument
