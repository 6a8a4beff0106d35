import DcInventory.Core.Text
import DcInventory.Library.Json

/-
  This file defines idempotency keys and fingerprints.

  Key definitions include:
    * `normalizeIdempotencyKey`
    * `canonicalFingerprint`

  Key theorems include:
    * `canonicalFingerprint_injective`
-/

def normalizeIdempotencyKey (value : Text) : Text :=
  Text.normalize value

/-
  `sha256` stands for the hexadecimal digest of the UTF-8
  text. The fields of the payload are listed in the order
  that `sort_keys` puts them in.
-/
def canonicalFingerprint
    (sha256 : Text → Text)
    (payload : Json) : Text :=
  sha256 payload.dumps

/- Without collisions a fingerprint stands for one payload. -/
theorem canonicalFingerprint_injective
    {sha256 : Text → Text}
    (hCollisionFree : Function.Injective sha256) :
    Function.Injective (canonicalFingerprint sha256) :=
  hCollisionFree.comp Json.dumps_injective

namespace Json

/- An optional identifier. -/
def ofUuid? : Option Uuid → Json
| none => .null
| some id => .str id.str

theorem ofUuid?_injective :
    Function.Injective ofUuid? := by
  intro a b h
  cases a with
  | none =>
      cases b with
      | none => rfl
      | some b => cases h
  | some a =>
      cases b with
      | none => cases h
      | some b =>
          have hText : a.str = b.str := Json.str.inj h
          exact congrArg some (Uuid.str_injective hText)

end Json
