import AlgoTrader.Lib.Text

/-! Recognising crypto symbols (``app/broker/crypto.py``). -/

namespace AlgoTrader.Broker

open Text

def knownCryptoBases : List String :=
  ["BTC", "ETH", "SOL", "LTC", "LINK", "AVAX", "BCH", "UNI", "AAVE", "DOGE", "DOT", "MATIC",
    "USDT", "USDC"]

-- The quote currencies, longest first.
def cryptoQuotes : List String := ["USDT", "USDC", "USD"]

def partition (separator : Char) (text : String) : String × String :=
  (String.ofList (text.toList.takeWhile (· ≠ separator)),
    String.ofList ((text.toList.dropWhile (· ≠ separator)).drop 1))

def splitPair (raw : String) (separator : Char) : Option (String × String) :=
  let parts := partition separator raw
  let base := strip parts.1
  let quote := strip parts.2
  if base ∈ knownCryptoBases ∧ quote ∈ cryptoQuotes then some (base, quote) else none

def endingWith (raw quote : String) : Option (String × String) :=
  let base := String.ofList (raw.toList.take (raw.length - quote.length))
  if quote.toList.isSuffixOf raw.toList ∧ base ∈ knownCryptoBases then some (base, quote) else none

def split (symbol : String) : Option (String × String) :=
  let raw := (strip symbol).toUpper
  if raw = "" then none
  else if raw.toList.contains '/' then splitPair raw '/'
  else if raw.toList.contains '-' then splitPair raw '-'
  else cryptoQuotes.findSome? (endingWith raw)

def isCryptoSymbol (symbol : String) : Bool := (split symbol).isSome

end AlgoTrader.Broker
