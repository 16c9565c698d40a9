import EventRelay.App.Arrival
import EventRelay.Notice

/-!
# Pages of other origins

Which origins' pages may read the relay's answers. The list of origins comes
from the settings as texts; a text that is no field value is reported and left
out, and a wildcard cannot stand in a list.

A browser keeps an answer from a page whose origin the answer does not name, and
asks beforehand, with the method OPTIONS, what the page may send.
-/

namespace EventRelay

/-- What the list of origins must not contain. -/
def wildcardOrigin : String := "*"

/-- The origins whose pages may read answers, in order. -/
structure OriginPolicy where
  origins : List String
  deriving Repr, DecidableEq

namespace OriginPolicy

/-- Whether a text may be sent as the value of a field. -/
def isOrigin (origin : String) : Bool := Http.isFieldValue (Utf8.encode origin)

/-- The notices about texts that are left out. -/
def notices (texts : List String) : List Notice :=
  (texts.filter fun text => !isOrigin text).map Notice.originIgnored

/-- The policy of a list of texts, or `none` if there is a wildcard in it. -/
def ofTexts? (texts : List String) : Option OriginPolicy :=
  let origins := texts.filter isOrigin
  if origins.contains wildcardOrigin then none else some ⟨origins⟩

/-- What is said when there is a wildcard in the list. -/
def wildcardMessage : String :=
  "Wildcard origin (`*`) cannot be passed to `AllowOrigin::list`. Use `AllowOrigin::any()` instead"

/-- The origin an answer names as allowed: the page's own, if it is in the list. -/
def allowed? (p : OriginPolicy) (h : Http.Headers) : Option String :=
  (h.all "origin").head?.bind fun origin => p.origins.find? fun text => Utf8.encode text == origin

/-- The fields of requests that pages may set. -/
def settable : List String :=
  ["accept", "cache-control", "cookie", lastEventIdHeader, sessionHeader]

/-- The fields of requests that answers depend on. -/
def varied : List String :=
  ["origin", "access-control-request-method", "access-control-request-headers"]

/-- The fields that tell a browser what a page may do: in the answer to a question
asked beforehand what it may send, in any other what it may read. -/
def fields (p : OriginPolicy) (h : Http.Headers) (beforehand : Bool) : List (String × String) :=
  [("access-control-allow-credentials", "true")]
    ++ (if beforehand then
        [("access-control-allow-headers", String.intercalate "," settable),
          ("access-control-allow-methods", "GET")]
      else [])
    ++ ((p.allowed? h).map fun origin => ("access-control-allow-origin", origin)).toList
    ++ (if beforehand then [] else [("access-control-expose-headers", sessionHeader)])
    ++ [("vary", String.intercalate ", " varied)]

end OriginPolicy

end EventRelay
