import AlgoTrader.Lib.Text
import Mathlib.Data.Int.Notation

/-! The eToro client (``app/broker/etoro_client.py``, ``app/broker/etoro_rate_limit.py``): how the
reply to an order request becomes an order status or an exception. -/

namespace AlgoTrader.Broker.Etoro

inductive Failure
  | rateLimited (text : String)
  | other (text : String)
  deriving DecidableEq, Repr

def Failure.text : Failure → String
  | .rateLimited text => text
  | .other text => text

def Failure.isRateLimit : Failure → Bool
  | .rateLimited _ => true
  | .other _ => false

inductive OrderStatus
  | submitted
  | rejected
  | filled
  | cancelled
  deriving DecidableEq, Repr

-- What comes back from a request that went out. A reply with no usable ``statusID`` is ``none``.
inductive Reply
  | accepted (statusId : Option ℤ)
  | unreadable (text : String)
  | httpError (status : ℕ) (body : String)
  | transport (text : String)
  deriving DecidableEq, Repr

-- The symbol lookup, the mode check and the local cooldown can each raise before the order goes out.
inductive Attempt
  | notSent (failure : Failure)
  | posted (reply : Reply)
  deriving DecidableEq, Repr

def markEtoroRateLimited (statusCode : ℕ) (body : String) : Bool :=
  let normalized := body.toLower
  statusCode == 429 ||
    (Text.containsText "cloudflare" normalized && Text.containsText "access denied" normalized)

def compactHttpBody (body : String) : String :=
  let normalized := Text.collapse body
  let lowered := normalized.toLower
  if Text.containsText "cloudflare" lowered && Text.containsText "access denied" lowered then
    "cloudflare_access_denied_rate_limit"
  else if normalized.length ≤ 300 then normalized
  else String.ofList (normalized.toList.take 300) ++ "..."

def request : Reply → Except Failure (Option ℤ)
  | .accepted statusId => .ok statusId
  | .unreadable text => .error (.other text)
  | .httpError status body =>
      if markEtoroRateLimited status body then
        .error (.rateLimited ("eToro API rate-limited: " ++ compactHttpBody body))
      else
        .error (.other
          ("Broker request failed with status " ++ toString status ++ ": " ++ compactHttpBody body))
  | .transport text => .error (.other ("Broker request failed: " ++ text))

def normalizeOrderStatus (statusId : Option ℤ) : OrderStatus :=
  if statusId = some 2 then .rejected
  else if statusId = some 3 then .filled
  else if statusId = some 4 then .cancelled
  else .submitted

def Attempt.result : Attempt → Except Failure OrderStatus
  | .notSent failure => .error failure
  | .posted reply =>
      match request reply with
      | .ok statusId => .ok (normalizeOrderStatus statusId)
      | .error failure => .error failure

def OrderStatus.refused (status : OrderStatus) : Bool :=
  status == .rejected || status == .cancelled

def Attempt.sent : Attempt → Bool
  | .notSent _ => false
  | .posted _ => true

-- A 4xx answer and a rejected or cancelled order opened nothing; every other answer may have.
def Attempt.possiblyFilled : Attempt → Bool
  | .notSent _ => false
  | .posted (.accepted statusId) => !(normalizeOrderStatus statusId).refused
  | .posted (.unreadable _) => true
  | .posted (.httpError status _) => !(400 ≤ status && status < 500)
  | .posted (.transport _) => true

def Attempt.answered (attempt : Attempt) : Bool := attempt.result.isOk

def Attempt.effective (attempt : Attempt) : Bool :=
  match attempt.result with
  | .ok status => !status.refused
  | .error _ => false

end AlgoTrader.Broker.Etoro
