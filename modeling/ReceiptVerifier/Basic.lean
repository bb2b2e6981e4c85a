import Mathlib.Algebra.Ring.Int.Defs
import Mathlib.Algebra.Ring.Nat
import Mathlib.Data.List.Basic
import Mathlib.Tactic.Common

/-!
# Reasons, failures, environments and the clock

`rust/src/error.rs`, `rust/src/environment.rs` and the `Clock` of `rust/src/verifier.rs`.
-/

namespace ReceiptVerifier

abbrev Bytes := List UInt8

/-! ## Failures -/

/-- Why a verification failed. -/
inductive Reason where
  | malformed
  | tooLarge
  | invalidSignature
  | untrustedChain
  | invalidCertificate
  | invalidCertificatePurpose
  | unreadablePayload
  | internalError
deriving DecidableEq, Repr

/-- A reason and its message. The error a failure was raised over is detail for a log and is left
out, as the source's own comparison of failures leaves it out. -/
structure Failure where
  reason : Reason
  message : String
deriving DecidableEq, Repr

def malformed (detail : String) : Failure := ⟨.malformed, detail⟩

/-! ## Environments -/

inductive Environment where
  | production
  | sandbox
deriving DecidableEq, Repr

/-- The environment an attribute 0 names. -/
def Environment.fromReceiptType : Option String → Option Environment
  | some "Production" | some "ProductionVPP" => some .production
  | some "ProductionSandbox" | some "ProductionVPPSandbox" => some .sandbox
  | _ => none

/-- The environment a JWS payload's `environment` names. -/
def Environment.fromJwsEnvironment : Option String → Option Environment
  | some "Production" => some .production
  | some "Sandbox" => some .sandbox
  | _ => none

/-! ## The clock -/

/-- How to get the time, and the time once it is known. `read k` is what call `k` of the caller's
clock does: `none` is a panic. -/
structure Clock where
  read : Nat → Option Int
  millis : Option Int
  /-- How often the caller's clock has been called. -/
  reads : Nat

namespace Clock

def new (read : Nat → Option Int) : Clock := ⟨read, none, 0⟩

/-- The current time in epoch milliseconds, the same value on every call. -/
def now (clock : Clock) : Except Failure Int × Clock :=
  match clock.millis with
  | some millis => (.ok millis, clock)
  | none =>
    match clock.read clock.reads with
    | none =>
      (.error ⟨.internalError, "the configured clock panicked"⟩,
        { clock with reads := clock.reads + 1 })
    | some millis =>
      (.ok millis, { clock with millis := some millis, reads := clock.reads + 1 })

/-- The time the clock has, or gives when it is asked next. -/
def instant (clock : Clock) : Option Int := clock.millis.or (clock.read clock.reads)

theorem now_of_instant {clock : Clock} {millis : Int} (h : clock.instant = some millis) :
    ∃ clock', clock.now = (.ok millis, clock') ∧ clock'.instant = some millis := by
  unfold instant at h
  cases known : clock.millis with
  | some m =>
    rw [known, Option.some_or] at h
    refine ⟨clock, ?_, ?_⟩
    · rw [now, known, Option.some.inj h]
    · rw [instant, known, Option.some_or, h]
  | none =>
    rw [known, Option.none_or] at h
    refine ⟨{ clock with millis := some millis, reads := clock.reads + 1 }, ?_, rfl⟩
    rw [now, known, h]

theorem now_of_no_instant {clock : Clock} (h : clock.instant = none) :
    clock.now.1 = .error ⟨.internalError, "the configured clock panicked"⟩ := by
  unfold instant at h
  obtain ⟨unknown, panics⟩ := Option.or_eq_none_iff.mp h
  rw [now, unknown, panics]

end Clock

theorem ok_bind {ε α β : Type} (a : α) (next : α → Except ε β) :
    (Except.ok a >>= next) = next a :=
  rfl

end ReceiptVerifier
