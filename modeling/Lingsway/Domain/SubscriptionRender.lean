import Lingsway.Library.YamlDumps
import Lingsway.Library.JsonText
import Lingsway.Library.Text
import Lingsway.Library.Reading
import Lingsway.Providers.Base

/-!
# Rendering of subscriptions

A Clash document lists one proxy for a link, in JSON, and names the proxies
again in the group that selects among them.
-/
namespace Lingsway.Domain

open Library

/-- `urlparse(link)`. Reading the port may fail. -/
structure ParsedUrl where
  scheme : String
  hostname : Option String
  port : Except Exn (Option ℕ)
  username : Option String
  query : String
  fragment : String

/-- The decoders of the standard library. A failed `decodeBase64` is a value error. -/
structure Decoders where
  urlparse : String → Except Exn ParsedUrl
  parseQs : String → Except Exn (List (String × List String))
  unquote : String → String
  decodeBase64 : String → Except Exn String
  loads : String → Except Exn Json
  toInt : Json → Except Exn ℤ
  quote : String → String

inductive Content where
  | utf8 (text : String)
  | base64 (text : String)
  deriving Repr, DecidableEq

section Proxy

variable (d : Decoders)

def isVmess (link : String) : Bool := "vmess://".toList.isPrefixOf link.toList

def vmessBody (link : String) : Except Exn Members := do
  let text ← d.decodeBase64 (String.ofList (link.toList.drop 8))
  match ← d.loads text with
  | .obj body => .ok body
  | other => .error ⟨.other "AttributeError", s!"'{other.typeName}' object has no attribute 'get'"⟩

/-- `body[key]` -/
def required (body : Members) (key : String) : Except Exn Json :=
  match body.lookup key with
  | some x => .ok x
  | none => .error ⟨.other "KeyError", key⟩

/-- `query.get(key, [None])[0]` -/
def first (query : List (String × List String)) (key : String) : Option String := (query.lookup key).bind List.head?

/-- `str(proxy['name'])` -/
def proxyName (proxy : Members) : String := (Members.item proxy "name").text d.quote

end Proxy

end Lingsway.Domain
