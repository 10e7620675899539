import ZeroSecret.Crypto.Common

/-!
# `zs-crypto/src/decision_binding.rs`

The digest that binds a decision to the request it was taken on.
-/

namespace ZeroSecret.Crypto

structure DecisionBinding where
  suite : String
  digest : Digest

namespace DecisionBinding

def suiteV1 : String := "decision-binding/v1"

/-- The octets `bind_request` hashes: suite, purpose, NUL, canonical request. -/
def requestPreimage (request : Json) : Bytes :=
  octets (suiteV1 ++ "/request\x00") ++ canonicalBytes request

def bindRequest (P : Primitives) (request : Json) : DecisionBinding :=
  ⟨suiteV1, P.sha256 (requestPreimage request)⟩

/-- Equal pre-images are equal canonical requests. -/
theorem sortKeys_eq_of_requestPreimage_eq {v w : Json}
    (h : requestPreimage v = requestPreimage w) :
    sortKeysRecursively v = sortKeysRecursively w :=
  canonicalBytes_inj (List.append_cancel_left h)

end DecisionBinding

end ZeroSecret.Crypto
