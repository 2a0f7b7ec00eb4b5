import Lingsway.Library.SlidingWindow
import Lingsway.Library.Machine
import Lingsway.Library.JsonText
import Lingsway.Providers.Base

/-!
# Webshare

Requests pass a write policy, then the limiters, and are sent up to four times
while the answer is 429. The limiters see a request once.
-/
namespace Lingsway.Providers.Webshare

open Library Program

/-- The two limiters of a provider. -/
inductive Limiter where
  | general
  | proxy
  deriving Repr, DecidableEq

structure SlidingWindowLimiter where
  limit : ℤ
  windowSeconds : ℚ
  deriving Repr, DecidableEq

structure Response where
  statusCode : ℤ
  headers : List (String × String)
  deriving Repr, DecidableEq

/-- What the transport is called with. -/
structure Sent where
  method : String
  url : String
  headers : List (String × String)
  params : Option Members
  json : Option Members

/-- The library functions a request uses. -/
structure Urls where
  upper : String → String
  lower : String → String
  path : String → Except Exn String
  unquote : String → String
  urljoin : String → String → Except Exn String
  /-- `float(value)`, where it is a number. -/
  toFloat : String → Option ℚ

structure Provider where
  apiKey : String
  baseUrl : String
  limiter : Limiter → SlidingWindowLimiter
  urls : Urls

inductive Wire where
  | clock
  | sleep (seconds : ℚ)
  | events (l : Limiter)
  | popleft (l : Limiter) (kept : List ℚ)
  | append (l : Limiter) (now : ℚ)
  | transport (attempt : ℕ) (path : String) (sent : Sent)

def Wire.Answer : Wire → Type
  | clock => ℚ
  | sleep _ => Unit
  | events _ => List ℚ
  | popleft _ _ => Unit
  | append _ _ => Unit
  | transport _ _ _ => Response

abbrev wires : Signature := ⟨Wire, Wire.Answer⟩

def clock : Program wires Exn ℚ := perform (S := wires) .clock
def sleep (seconds : ℚ) : Program wires Exn Unit := perform (S := wires) (.sleep seconds)
def events (l : Limiter) : Program wires Exn (List ℚ) := perform (S := wires) (.events l)
def popleft (l : Limiter) (kept : List ℚ) : Program wires Exn Unit := perform (S := wires) (.popleft l kept)
def append (l : Limiter) (now : ℚ) : Program wires Exn Unit := perform (S := wires) (.append l now)
def transport (attempt : ℕ) (path : String) (sent : Sent) : Program wires Exn Response :=
  perform (S := wires) (.transport attempt path sent)

/-- The loop that drops the events a window's width old. -/
def expire (l : Limiter) (limiter : SlidingWindowLimiter) (now : ℚ) : Program wires Exn (List ℚ) := do
  let queue ← events l
  popleft l (SlidingWindow.evict limiter.windowSeconds now queue)
  return SlidingWindow.evict limiter.windowSeconds now queue

/-- The branch of a full queue, and the instant after it. -/
def waitForRoom (l : Limiter) (limiter : SlidingWindowLimiter) (now : ℚ) (queue : List ℚ) : Program wires Exn ℚ :=
  if limiter.limit ≤ queue.length then
    match queue with
    | [] => raise ⟨.other "IndexError", "deque index out of range"⟩
    | first :: _ => do
      sleep (max (limiter.windowSeconds - (now - first)) 0)
      let now ← clock
      let _ ← expire l limiter now
      return now
  else return now

/-- `SlidingWindowLimiter.acquire`. -/
def acquire (l : Limiter) (limiter : SlidingWindowLimiter) : Program wires Exn Unit := do
  let now ← clock
  let queue ← expire l limiter now
  let now ← waitForRoom l limiter now queue
  append l now

def guardError (message : String) : Exn := ⟨.other "WebshareGuardError", message⟩

def forbidden : List String :=
  ["/subscription/purchase", "/subscription/renew", "/subscription/auto_renewal", "/payment/", "/billing/"]

/-- `_SUBUSER.fullmatch(path)`. -/
def isSubuser (path : String) : Bool :=
  let tenant := (path.toList.drop 16).dropLast
  "/api/v2/subuser/".toList.isPrefixOf path.toList && path.toList.getLast? == some '/' && tenant != [] &&
    '/' ∉ tenant

/-- `_DRY_REPLACEMENT.fullmatch(path)`: a dot matches all but a line feed. -/
def isDryReplacement (path : String) : Bool :=
  let endpoint := path.toList.drop 22
  "/api/v3/proxy/replace/".toList.isPrefixOf path.toList && endpoint != [] && '\n' ∉ endpoint

/-- `_guard`. -/
def guard (method path : String) (dryRun : Option Bool) : Except Exn Unit :=
  if method = "GET" then .ok ()
  else if forbidden.any fun blocked => Text.contains blocked.toList path.toList then
    .error (guardError ("Webshare write is permanently blocked: " ++ path))
  else if Text.contains "/proxy/replace/".toList path.toList ∧ dryRun ≠ some true then
    .error (guardError "replacement requires dry_run=true")
  else if method = "POST" ∧ path = "/api/v2/subuser/" then .ok ()
  else if (method = "PATCH" ∨ method = "PUT") ∧ isSubuser path then .ok ()
  else if method = "POST" ∧ isDryReplacement path ∧ dryRun = some true then .ok ()
  else .error (guardError ("Webshare write is not allowlisted: " ++ method ++ " " ++ path))

/-- `_retry_after`. -/
def retryAfter (urls : Urls) (response : Response) : Option ℚ :=
  match response.headers.find? fun header => urls.lower header.1 = "retry-after" with
  | none => none
  | some header => (urls.toFloat header.2).filter fun parsed => 0 ≤ parsed

/-- The retries from one attempt on. -/
def attempts (urls : Urls) (path : String) (sent : Sent) : ℕ → ℕ → Program wires Exn Response
  | 0, _ => raise ⟨.other "AssertionError", "unreachable"⟩
  | left + 1, attempt => do
    let response ← transport attempt path sent
    if response.statusCode ≠ 429 then return response
    else if attempt = 3 then
      raise ⟨.other "WebshareRateLimitError", "Webshare returned 429 after 3 retries"⟩
    else do
      sleep ((retryAfter urls response).getD (2 ^ attempt))
      attempts urls path sent left (attempt + 1)

/-- The arguments of `request`. -/
structure Request where
  method : String
  path : String
  dryRun : Option Bool
  params : Option Members
  json : Option Members
  extraHeaders : List (String × String)
  options : List String

/-- What is checked before the limiters: the method and the path that are sent. -/
def checked (provider : Provider) (r : Request) : Except Exn (String × String) := do
  let path ← provider.urls.path r.path
  let method := provider.urls.upper r.method
  let path := provider.urls.unquote path
  if ["force", "override", "bypass"].any fun name => r.options.contains name then
    .error (guardError "force/override/bypass options are not supported")
  else if r.extraHeaders.any fun header => provider.urls.lower header.1 = "authorization" then
    .error (guardError "authorization header cannot be overridden")
  else do
    guard method path r.dryRun
    .ok (method, path)

def isProxyPath (path : String) : Bool := Text.contains "/proxy/".toList path.toList

def stripSlashes (path : String) : String := String.ofList (Text.lstripBy (· = '/') path.toList)

def proxyAcquire (provider : Provider) (path : String) : Program wires Exn Unit :=
  if isProxyPath path then acquire .proxy (provider.limiter .proxy) else return ()

/-- `WebshareProvider.request`. -/
def request (provider : Provider) (r : Request) : Program wires Exn Response := do
  let (method, path) ← ofExcept (checked provider r)
  acquire .general (provider.limiter .general)
  proxyAcquire provider path
  let url ← ofExcept (provider.urls.urljoin (Text.rstripChar '/' provider.baseUrl ++ "/") (stripSlashes path))
  attempts provider.urls path
    ⟨method, url, ("Authorization", "Token " ++ provider.apiKey) :: r.extraHeaders, r.params, r.json⟩ 4 0

/-- A call of the transport, with the instants that the limiters had recorded last. -/
structure TransportCall where
  time : ℚ
  path : String
  attempt : ℕ
  recorded : Limiter → Option ℚ

/-- The clock, the queues of the limiters, all they have recorded, and the calls of the transport. -/
structure World where
  now : ℚ
  queue : Limiter → List ℚ
  log : Limiter → List ℚ
  calls : List TransportCall

/-- How long the transport is called after the last reading of the clock, and how long it takes. -/
structure Exchange where
  before : NNRat
  taken : NNRat
  answer : Except Exn Response

def Wire.Choice : Wire → Type
  | clock => NNRat
  | sleep _ => NNRat
  | events _ => Unit
  | popleft _ _ => Unit
  | append _ _ => Unit
  | transport _ _ _ => Exchange

def act : (c : Wire) → c.Choice → World → Except Exn c.Answer × World
  | .clock, (passed : NNRat), w => (.ok (w.now + (passed : ℚ)), { w with now := w.now + (passed : ℚ) })
  | .sleep seconds, (passed : NNRat), w => (.ok (), { w with now := w.now + max seconds 0 + (passed : ℚ) })
  | .events l, _, w => (.ok (w.queue l), w)
  | .popleft l kept, _, w => (.ok (), { w with queue := Function.update w.queue l kept })
  | .append l now, _, w =>
    (.ok (), { w with
      queue := Function.update w.queue l (w.queue l ++ [now])
      log := Function.update w.log l (w.log l ++ [now]) })
  | .transport attempt path _, (exchange : Exchange), w =>
    (exchange.answer, { w with
      now := w.now + (exchange.before : ℚ) + (exchange.taken : ℚ)
      calls := w.calls ++ [⟨w.now + (exchange.before : ℚ), path, attempt, fun l => (w.log l).getLast?⟩] })

/-- A clock that never goes back, sleeps that last as long as they are asked to, and any responses. -/
def world : Machine wires Exn World := ⟨Wire.Choice, act⟩

/-- The worlds that sequences of requests lead to. -/
inductive Run (provider : Provider) : World → Prop
  | start (now : ℚ) : Run provider ⟨now, fun _ => [], fun _ => [], []⟩
  | request {w w' : World} (r : Request) {result : Except Exn Response} (h : Run provider w)
      (hexec : (request provider r).Exec world.handler w result w') : Run provider w'

/-- The paths a limiter is there for. -/
def covers (l : Limiter) (path : String) : Bool :=
  match l with
  | .general => true
  | .proxy => isProxyPath path

def callTimes (l : Limiter) (w : World) : List ℚ :=
  (w.calls.filter fun call => covers l call.path).map TransportCall.time

/-- The call is no retry, and is made at the instant that the limiter recorded. -/
def Prompt (l : Limiter) (call : TransportCall) : Prop := call.attempt = 0 ∧ call.recorded l = some call.time

/-- All calls that the limiter is there for are prompt. -/
def AllPrompt (l : Limiter) (w : World) : Prop := ∀ call ∈ w.calls, covers l call.path = true → Prompt l call

section Effects

variable {w : World} {l : Limiter}

theorem wp_clock {Q : Except Exn ℚ → World → Prop} :
    clock.wp world.handler Q w ↔ ∀ passed : NNRat, Q (.ok (w.now + passed)) { w with now := w.now + (passed : ℚ) } :=
  Machine.wp_call_handler world .clock _ Q w

theorem wp_sleep {seconds : ℚ} {Q : Except Exn Unit → World → Prop} :
    (sleep seconds).wp world.handler Q w ↔
      ∀ passed : NNRat, Q (.ok ()) { w with now := w.now + max seconds 0 + (passed : ℚ) } :=
  Machine.wp_call_handler world (.sleep seconds) _ Q w

theorem wp_events {Q : Except Exn (List ℚ) → World → Prop} :
    (events l).wp world.handler Q w ↔ Q (.ok (w.queue l)) w :=
  (Machine.wp_call_handler world (.events l) _ Q w).trans ⟨fun h => h (), fun h _ => h⟩

theorem wp_popleft {kept : List ℚ} {Q : Except Exn Unit → World → Prop} :
    (popleft l kept).wp world.handler Q w ↔ Q (.ok ()) { w with queue := Function.update w.queue l kept } :=
  (Machine.wp_call_handler world (.popleft l kept) _ Q w).trans ⟨fun h => h (), fun h _ => h⟩

theorem wp_append {now : ℚ} {Q : Except Exn Unit → World → Prop} :
    (append l now).wp world.handler Q w ↔ Q (.ok ()) { w with
      queue := Function.update w.queue l (w.queue l ++ [now])
      log := Function.update w.log l (w.log l ++ [now]) } :=
  (Machine.wp_call_handler world (.append l now) _ Q w).trans ⟨fun h => h (), fun h _ => h⟩

/-- The world after a call of the transport. -/
def World.sent (w : World) (attempt : ℕ) (path : String) (exchange : Exchange) : World :=
  { w with
    now := w.now + (exchange.before : ℚ) + (exchange.taken : ℚ)
    calls := w.calls ++ [⟨w.now + (exchange.before : ℚ), path, attempt, fun l => (w.log l).getLast?⟩] }

theorem wp_transport {attempt : ℕ} {path : String} {sent : Sent} {Q : Except Exn Response → World → Prop} :
    (transport attempt path sent).wp world.handler Q w ↔
      ∀ exchange : Exchange, Q exchange.answer (w.sent attempt path exchange) := by
  refine (Machine.wp_call_handler world (.transport attempt path sent) _ Q w).trans ?_
  refine forall_congr' fun exchange => ?_
  exact iff_of_eq (wp_ofExcept _ _ _ _)

end Effects

section Invariant

variable {provider : Provider} {w t : World} {l : Limiter}

def Within (provider : Provider) (w : World) : Prop :=
  ∀ l, SlidingWindow.Limited (provider.limiter l).windowSeconds (provider.limiter l).limit.toNat (w.log l) (w.queue l)
    w.now

/-- Calls that are prompt are among the recorded instants. -/
def Tracked (l : Limiter) (w : World) : Prop :=
  AllPrompt l w → (callTimes l w).Sublist (w.log l)

/-- The last recorded instant has no call yet. -/
def Ready (l : Limiter) (w : World) : Prop :=
  ∃ log now, w.log l = log ++ [now] ∧ (AllPrompt l w → (callTimes l w).Sublist log)

theorem Ready.tracked (h : Ready l w) : Tracked l w := by
  obtain ⟨log, now, hlog, hsub⟩ := h
  intro hprompt
  rw [hlog]
  exact (hsub hprompt).trans (List.sublist_append_left log [now])

theorem Within.later (h : Within provider w) {now : ℚ} (hnow : w.now ≤ now) : Within provider { w with now := now } :=
  fun l => (h l).later hnow

theorem Within.popleft (h : Within provider w) (l : Limiter) :
    Within provider { w with
      queue := Function.update w.queue l
        (SlidingWindow.evict (provider.limiter l).windowSeconds w.now (w.queue l)) } := by
  intro k
  by_cases hk : k = l
  · subst k
    simpa using (h l).evict
  · simpa [hk] using h k

theorem Within.append (h : Within provider w) {l : Limiter}
    (hroom : (w.queue l).length < (provider.limiter l).limit.toNat) :
    Within provider { w with
      queue := Function.update w.queue l (w.queue l ++ [w.now])
      log := Function.update w.log l (w.log l ++ [w.now]) } := by
  intro k
  by_cases hk : k = l
  · subst k
    simpa using (h l).record hroom
  · simpa [hk] using h k

/-- What is the same before and after a limiter waits. -/
structure Waited (provider : Provider) (w t : World) : Prop where
  within : Within provider t
  calls : t.calls = w.calls
  log : t.log = w.log

theorem wp_expire (h : Within provider w) {Q : Except Exn (List ℚ) → World → Prop}
    (hQ : ∀ t, Waited provider w t → t.now = w.now →
      t.queue l = SlidingWindow.evict (provider.limiter l).windowSeconds w.now (w.queue l) → Q (.ok (t.queue l)) t) :
    (expire l (provider.limiter l) w.now).wp world.handler Q w := by
  have hqueue := hQ _ ⟨h.popleft l, rfl, rfl⟩ rfl (Function.update_self l _ w.queue)
  simp only [Function.update_self] at hqueue
  rw [expire, wp_bind, wp_events, bindPost_ok, wp_bind, wp_popleft, bindPost_ok, wp_pure]
  exact hqueue

/-- A sleep is long enough for the first event to be dropped. -/
theorem wp_waited {first : ℚ} {rest : List ℚ} (h : Within provider w) (hqueue : w.queue l = first :: rest)
    {now : ℚ} (hnow : w.now ≤ now) (hpassed : first ≤ now - (provider.limiter l).windowSeconds)
    {Q : Except Exn ℚ → World → Prop}
    (hok : ∀ t, Waited provider w t → (t.queue l).length < (provider.limiter l).limit.toNat → Q (.ok t.now) t) :
    (expire l (provider.limiter l) now).wp world.handler (bindPost world.handler (fun _ => ret now) Q)
      { w with now := now } := by
  have hroom := (h l).room
  have hlater := h.later hnow
  refine @wp_expire provider { w with now := now } l hlater _ fun t ht htime hkept => ?_
  have hlength : (t.queue l).length ≤ rest.length := by
    rw [hkept, hqueue]
    exact SlidingWindow.length_evict hpassed
  rw [hqueue, List.length_cons] at hroom
  have hread : t.now = now := htime
  rw [bindPost_ok, wp_ret, ← hread]
  exact hok t ⟨ht.within, ht.calls, ht.log⟩ (by omega)

/-- After the wait there is room, or the queue was empty and full at once. -/
theorem wp_waitForRoom (h : Within provider w) {Q : Except Exn ℚ → World → Prop}
    (hok : ∀ t, Waited provider w t → (t.queue l).length < (provider.limiter l).limit.toNat → Q (.ok t.now) t)
    (herror : ∀ e, Q (.error e) w) :
    (waitForRoom l (provider.limiter l) w.now (w.queue l)).wp world.handler Q w := by
  have hroom := (h l).room
  unfold waitForRoom
  by_cases hfull : (provider.limiter l).limit ≤ (w.queue l).length
  · rw [if_pos hfull]
    cases hqueue : w.queue l with
    | nil => exact herror _
    | cons first rest =>
      simp only
      rw [wp_bind, wp_sleep]
      intro overslept
      rw [bindPost_ok, wp_bind, wp_clock]
      intro passed
      have hasked := le_max_left (max ((provider.limiter l).windowSeconds - (w.now - first)) 0) 0
      have hzero := le_max_right ((provider.limiter l).windowSeconds - (w.now - first)) 0
      have hwait := le_max_left ((provider.limiter l).windowSeconds - (w.now - first)) 0
      have hoverslept : (0 : ℚ) ≤ overslept := overslept.2
      have hpassed : (0 : ℚ) ≤ passed := passed.2
      rw [bindPost_ok, wp_bind]
      exact wp_waited h hqueue (by simp only; linarith) (by simp only; linarith) hok
  · rw [if_neg hfull]
    exact hok w ⟨h, rfl, rfl⟩ (by omega)

/-- A limiter records an instant, or raises. -/
theorem wp_acquire (h : Within provider w) {Q : Except Exn Unit → World → Prop}
    (hok : ∀ t now, Within provider t → t.calls = w.calls →
      t.log = Function.update w.log l (w.log l ++ [now]) → Q (.ok ()) t)
    (herror : ∀ e t, Waited provider w t → Q (.error e) t) :
    (acquire l (provider.limiter l)).wp world.handler Q w := by
  rw [acquire, wp_bind, wp_clock]
  intro passed
  have hpassed : (0 : ℚ) ≤ passed := passed.2
  rw [bindPost_ok, wp_bind]
  refine @wp_expire provider { w with now := w.now + (passed : ℚ) } l (h.later (by linarith)) _ fun t ht htime _ => ?_
  rw [bindPost_ok, wp_bind]
  simp only at htime
  rw [← htime]
  refine wp_waitForRoom ht.within (fun u hu hroom => ?_) fun e => ?_
  · rw [bindPost_ok, wp_append]
    refine hok _ u.now (hu.within.append hroom) ?_ ?_
    · rw [hu.calls, ht.calls]
    · rw [hu.log, ht.log]
  · exact herror e t ⟨ht.within, ht.calls, ht.log⟩

theorem callTimes_sent (attempt : ℕ) (path : String) (exchange : Exchange) :
    callTimes l (w.sent attempt path exchange) =
      callTimes l w ++ if covers l path = true then [w.now + (exchange.before : ℚ)] else [] := by
  unfold callTimes World.sent
  rw [List.filter_append, List.map_append]
  congr 1
  by_cases hcovers : covers l path = true
  · simp [hcovers]
  · simp [hcovers]

theorem allPrompt_sent {attempt : ℕ} {path : String} {exchange : Exchange}
    (h : AllPrompt l (w.sent attempt path exchange)) :
    AllPrompt l w ∧ (covers l path = true → attempt = 0 ∧ (w.log l).getLast? = some (w.now + (exchange.before : ℚ))) := by
  constructor
  · intro call hcall
    exact h call (List.mem_append_left _ hcall)
  · intro hcovers
    exact h _ (List.mem_append_right _ (List.mem_singleton.mpr rfl)) hcovers

/-- A call that is a retry, or that the limiter is not there for. -/
theorem Tracked.sent (h : Tracked l w) {attempt : ℕ} {path : String} {exchange : Exchange}
    (hother : covers l path = true → attempt ≠ 0) : Tracked l (w.sent attempt path exchange) := by
  intro hall
  obtain ⟨hbefore, hnew⟩ := allPrompt_sent hall
  have hcovers : ¬covers l path = true := fun hcovers => hother hcovers (hnew hcovers).1
  rw [callTimes_sent, if_neg hcovers, List.append_nil]
  exact h hbefore

/-- A first call takes the instant that was recorded for it. -/
theorem Ready.sent (h : Ready l w) {path : String} {exchange : Exchange} :
    Tracked l (w.sent 0 path exchange) := by
  by_cases hcovers : covers l path = true
  · obtain ⟨log, now, hlog, hsub⟩ := h
    intro hall
    obtain ⟨hbefore, hnew⟩ := allPrompt_sent hall
    have hlast := (hnew hcovers).2
    rw [hlog, List.getLast?_concat] at hlast
    have hlogs : (w.sent 0 path exchange).log l = log ++ [now] := hlog
    rw [callTimes_sent, if_pos hcovers, hlogs, ← Option.some.inj hlast]
    exact (hsub hbefore).append (List.Sublist.refl _)
  · exact h.tracked.sent fun hcontra => absurd hcontra hcovers

theorem Within.sent (h : Within provider w) {attempt : ℕ} {path : String} {exchange : Exchange} :
    Within provider (w.sent attempt path exchange) := by
  have hbefore : (0 : ℚ) ≤ exchange.before := exchange.before.2
  have htaken : (0 : ℚ) ≤ exchange.taken := exchange.taken.2
  exact fun l => (h l).later (by simp only [World.sent]; linarith)

/-- What holds between requests. -/
structure Settled (provider : Provider) (w : World) : Prop where
  within : Within provider w
  tracked : ∀ l, Tracked l w

theorem Settled.waited (h : Settled provider w) (ht : Waited provider w t) : Settled provider t := by
  refine ⟨ht.within, fun l hall => ?_⟩
  have hcalls : callTimes l t = callTimes l w := by rw [callTimes, callTimes, ht.calls]
  rw [hcalls, ht.log]
  refine h.tracked l ?_
  rw [AllPrompt, ← ht.calls]
  exact hall

theorem Settled.slept (h : Settled provider w) {now : ℚ} (hnow : w.now ≤ now) :
    Settled provider { w with now := now } :=
  h.waited ⟨h.within.later hnow, rfl, rfl⟩

variable {urls : Urls} {path : String} {sent : Sent} {left attempt : ℕ}

/-- One attempt, and what follows a 429. -/
theorem wp_attempt (hsent : ∀ exchange, Settled provider (w.sent attempt path exchange))
    (hnext : ∀ t, Settled provider t →
      (attempts urls path sent left (attempt + 1)).wp world.handler (fun _ u => Settled provider u) t) :
    (attempts urls path sent (left + 1) attempt).wp world.handler (fun _ t => Settled provider t) w := by
  rw [attempts, wp_bind, wp_transport]
  intro exchange
  cases hanswer : exchange.answer with
  | error e => exact hsent exchange
  | ok response =>
    rw [bindPost_ok]
    by_cases hstatus : response.statusCode ≠ 429
    · rw [if_pos hstatus]
      exact hsent exchange
    · rw [if_neg hstatus]
      by_cases hlast : attempt = 3
      · rw [if_pos hlast]
        exact hsent exchange
      · rw [if_neg hlast, wp_bind, wp_sleep]
        intro passed
        have hpassed : (0 : ℚ) ≤ passed := passed.2
        have hmax := le_max_right ((retryAfter urls response).getD (2 ^ attempt)) 0
        exact hnext _ ((hsent exchange).slept (by linarith))

end Invariant

/-- A provider that may send one request a minute, of paths that need no decoding. -/
def sampleProvider : Provider where
  apiKey := "key"
  baseUrl := "https://proxy.webshare.io"
  limiter := fun _ => ⟨1, 60⟩
  urls :=
    { upper := fun method => method
      lower := Text.lowerWord
      path := fun path => .ok path
      unquote := fun path => path
      urljoin := fun base path => .ok (base ++ path)
      toFloat := fun value => if value = "0" then some 0 else none }

def sampleRequest : Request := ⟨"GET", "/api/v2/proxy/list/", none, none, none, [], []⟩

/-- No time passes, and a request is answered by 429 and then by 200, or at once by 200. -/
def sampleScript (busy : Bool) : (c : Wire) → World → world.Choice c
  | .clock, _ => (0 : NNRat)
  | .sleep _, _ => (0 : NNRat)
  | .events _, _ => ()
  | .popleft _ _, _ => ()
  | .append _ _, _ => ()
  | .transport attempt _ _, _ =>
    (⟨0, 0, .ok (if busy ∧ attempt = 0 then ⟨429, [("Retry-After", "0")]⟩ else ⟨200, []⟩)⟩ : Exchange)

def sampleWorld (busy : Bool) : World :=
  (world.run (sampleScript busy) (request sampleProvider sampleRequest) ⟨0, fun _ => [], fun _ => [], []⟩).2

end Lingsway.Providers.Webshare
