import FollowOn.Digest.Sha256
import FollowOn.Schema.Portfolio

namespace FollowOn

/-!
# Fingerprints of requests

A fingerprint names a request by the hash of its canonical text: companies are
sorted by id and policies by stage, so that the order in which they were given
does not matter.
-/

namespace Request

/-- A request with its companies sorted by id and its policies by stage. -/
def canonical (request : Request) : Request :=
  { request with
    companies :=
      request.companies.mergeSort fun left right =>
        decide (left.id ≤ right.id)
    policies :=
      request.policies.mergeSort fun left right =>
        decide (left.stage ≤ right.stage) }

/-- The text whose bytes are hashed. -/
def canonicalText (request : Request) : String :=
  request.canonical.toText

/-- The bytes of the text of the canonical form. -/
def canonicalBytes (request : Request) : List UInt8 :=
  request.canonicalText.toUTF8.toList

/-- The fingerprint of a request, in hexadecimal digits. -/
def fingerprint (request : Request) : String :=
  Sha256.hexDigest request.canonicalBytes

/-- The canonical form has the same companies. -/
theorem companies_canonical_perm
    (request : Request) :
    request.canonical.companies.Perm request.companies :=
  List.mergeSort_perm _ _

/-- The canonical form has the same policies. -/
theorem policies_canonical_perm
    (request : Request) :
    request.canonical.policies.Perm request.policies :=
  List.mergeSort_perm _ _

end Request

end FollowOn
