import ReceiptVerifier.Verify.Values
import ReceiptVerifier.Verify.Walks
import Mathlib.Data.Rat.Floor

/-!
# Validity to the millisecond

An instant is in milliseconds, a window and OpenSSL's own check in whole seconds. OpenSSL is asked
at the second the instant falls in, which decides `notBefore`, and each certificate below the anchor
is asked for a `notAfter` at or after the instant rounded up.
-/

namespace ReceiptVerifier

open Openssl

/-! ## Whole seconds -/

/-- A validity window in whole seconds, both ends inside it. -/
structure Window where
  notBefore : Int
  notAfter : Int
deriving DecidableEq, Repr

/-- The instant lies in the window. -/
def Window.Holds (window : Window) (atMillis : Int) : Prop :=
  window.notBefore * 1000 ≤ atMillis ∧ atMillis ≤ window.notAfter * 1000

/-- The certificates `checkedPath` asks for their `notAfter`. -/
def belowAnchor (outcome : PathOutcome) : List Certificate :=
  outcome.chain.take (if outcome.anchored then outcome.chain.length - 1 else outcome.chain.length)

variable {ssl : OpenSsl} {window : Certificate → Window} {first last : Int}

section

variable {target : Certificate} {untrusted anchors : List Certificate} {second : Int}

end

/-! ## The run that decides -/

section

variable {target : Certificate} {untrusted anchors : List Certificate} {second : Int}

end

/-! ## Certificates below the anchor -/

section

variable {target : Certificate} {untrusted : List Certificate} {anchors : List TrustAnchor}
  {atMillis : Int}

end

/-! ## The window of the anchor -/

section

variable {ssl' : OpenSsl} {anchor target : Certificate} {untrusted anchors : List Certificate}
  {second : Int}

end

section

variable {ssl' : OpenSsl} {anchor target : Certificate} {untrusted : List Certificate}
  {anchors : List TrustAnchor} {atMillis : Int}

end

/-! ## Pinned certificates below an anchor -/

section

variable {target : Certificate} {untrusted : List Certificate} {anchors : List TrustAnchor}
  {atMillis : Int}

namespace ReadsPath

variable {α : Type} {path : α → List Certificate} {answer : OpenSsl → Except Failure α}
  {judged : List Certificate → Bool} {vouched : Prop}

end ReadsPath

end

namespace Sample

section

variable (windows : Certificate → Window)

variable {windows}

end

end Sample

end ReceiptVerifier
