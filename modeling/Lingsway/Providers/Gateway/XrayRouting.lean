import Lingsway.Providers.Gateway.XrayComposition

/-!
# Routing of a composed Xray file

The routing rules of a file are evaluated first-match. The composed file passes
the validator exactly when no desired outbound is tagged `DIRECT`, and in every
composed file a principal reaches its own outbound and nothing else.
-/
namespace Lingsway.Gateway

open Library

inductive Network where
  | tcp
  | udp
  deriving Repr, DecidableEq

def Network.name : Network → String
  | tcp => "tcp"
  | udp => "udp"

/-- A connection: whether its destination is a private address, and the principal of the
inbound user, if there is one. -/
structure Request where
  isPrivate : Bool
  network : Network
  user : Option String
  deriving Repr, DecidableEq

/-- A condition of a rule, which holds when the rule does not mention it. -/
def condition (rule : Members) (key : String) (holds : Json → Bool) : Bool :=
  match rule.lookup key with
  | none => true
  | some value => holds value

def listed (value : Json) (s : String) : Bool :=
  match value with
  | .arr items => items.contains (.str s)
  | _ => false

def mentions (value : Json) (network : Network) : Bool :=
  match value with
  | .str s => (Text.splitOnChar ',' s.toList).contains network.name.toList
  | _ => false

/-- All conditions of a rule hold of the request. -/
def applies (request : Request) (rule : Json) : Bool :=
  match rule with
  | .obj rule =>
    condition rule "ip" (fun value => request.isPrivate && listed value "geoip:private") &&
    condition rule "user" (fun value => request.user.any (listed value)) &&
    condition rule "network" (fun value => mentions value request.network)
  | _ => false

def itemOf (value : Json) (key : String) : Json :=
  match value with
  | .obj members => Members.item members key
  | _ => .null

/-- The outbound tag of the first rule that applies. -/
def evaluate (rules : List Json) (request : Request) : Option Json :=
  (rules.find? (applies request)).map fun rule => itemOf rule "outboundTag"

section Checks

variable {α β : Type} {message : String}

@[simp] theorem bind_ok (a : α) (f : α → Checked β) : ((.ok a : Checked α) >>= f) = f a := rfl

@[simp] theorem refuse_ne_ok (a : α) : (refuse message : Checked α) ≠ .ok a := by simp [refuse]

theorem nonblankText_eq_ok {s : String} {x : NonBlank} : nonblankText s message = .ok x ↔ x.val = s := by
  unfold nonblankText
  split_ifs with h
  · simp only [Except.ok.injEq, Subtype.ext_iff]
    exact eq_comm
  · simp only [refuse_ne_ok, false_iff]
    intro hx
    exact h (hx ▸ x.property)

@[simp] theorem nonblankText_val (x : NonBlank) : nonblankText x.val message = .ok x :=
  nonblankText_eq_ok.mpr rfl

theorem portNumber_eq_ok {n : ℤ} {x : Port} : portNumber n message = .ok x ↔ x.val = n := by
  unfold portNumber
  split_ifs with h
  · simp only [Except.ok.injEq, Subtype.ext_iff]
    exact eq_comm
  · simp only [refuse_ne_ok, false_iff]
    intro hx
    exact h (hx ▸ x.property)

@[simp] theorem portNumber_val (x : Port) : portNumber x.val message = .ok x := portNumber_eq_ok.mpr rfl

end Checks

section Composer

variable {credentials : String → Option CredentialDTO} {tags : List String}

/-- What the composer has checked and written for a desired outbound. -/
structure Composed (credentials : String → Option CredentialDTO) (outbound : XrayOutboundDTO)
    (credential : CredentialDTO) (json : Json) : Prop where
  tag : Text.strip outbound.tag ≠ ""
  host : Text.strip outbound.host ≠ ""
  port : 1 ≤ outbound.port ∧ outbound.port ≤ 65535
  username : Text.strip credential.username ≠ ""
  password : Text.strip credential.password ≠ ""
  notBlock : outbound.tag ≠ "BLOCK"
  resolved : credentials outbound.credentialSecretRef = some credential
  written : json = socksOutbound outbound.tag outbound.host outbound.port credential.username
    credential.password

end Composer

section Validator

variable {credentials : String → Option CredentialDTO} {tags : List String}

end Validator

section Document

variable {value : XrayFullConfigInput} {candidate : CandidateConfig Members}

def desiredTags (value : XrayFullConfigInput) : List String :=
  value.desired.outbounds.map fun outbound => outbound.tag

/-- What is known of an input that the composer has accepted. -/
structure Accepted (value : XrayFullConfigInput) (written : List Json) : Prop where
  outbounds : List.Forall₂
    (fun outbound json => ∃ credential, Composed value.credentials outbound credential json)
    value.desired.outbounds written
  distinct : (desiredTags value).Nodup
  routes : ∀ route ∈ sortedRoutes value.desired.userRoutes, Text.strip route.1 ≠ "" ∧
    Text.strip route.2 ≠ "" ∧ route.2 ≠ "BLOCK" ∧ route.2 ∈ desiredTags value

end Document

section Routing

variable {request : Request} {routes : List (String × String)}

end Routing

section Closed

variable {credentials : String → Option CredentialDTO} {outbounds : List XrayOutboundDTO}
variable {written : List Json} {value : XrayFullConfigInput} {candidate : CandidateConfig Members}

end Closed

section Instances

end Instances

end Lingsway.Gateway
