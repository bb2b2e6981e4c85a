import ReceiptVerifier.Roots
import ReceiptVerifier.Wire

/-!
# The module's exports

`rust/bindings/abi/src/lib.rs`: the bodies of the four exports over the slot `init` fills, behind
the lift of their arguments from linear memory. `none` is a trap. What `wit-bindgen` generates
around a body (a buffer for an argument, the return area of a text) is left to whoever calls.
-/

namespace ReceiptVerifier

open Openssl

namespace Abi

/-- `VERIFIER`: the anchors of the verifier `init` made, or `none` before it made one. -/
abbrev Slot := Option (List TrustAnchor)

section

variable (ssl : OpenSsl) (jiff : Jiff) (base64 : Base64) (json : SerdeJson)
  (appleRoots : List TrustAnchor)

/-! ## The bodies -/

/-- What `init` answers, and what it leaves in the slot. -/
def init (slot : Slot) (configJson : Bytes) : Option (String × Slot) :=
  match slot with
  | some _ => none
  | none =>
    let made := initModule ssl base64 json appleRoots configJson
    some (initResult (made.map fun _ => ()), made.toOption)

/-- Runs a call with the verifier `init` made. -/
def withVerifier (slot : Slot) (call : List TrustAnchor → String) : Option (String × Slot) :=
  slot.map fun verifier => (call verifier, slot)

/-- The three bodies that verify. -/
def verify (slot : Slot) (op : Op) (input : Bytes) : Option (String × Slot) :=
  withVerifier slot fun verifier => op.answer base64 ssl jiff json verifier input

/-! ## The lift -/

/-- The low 8 bits of a discriminant. -/
def liftEnvironment (discriminant : UInt64) : Option Environment :=
  if discriminant.toUInt8 = 0 then some .production
  else if discriminant.toUInt8 = 1 then some .sandbox
  else none

/-- An `s64`. -/
def liftInt (value : UInt64) : Int := value.toInt64.toInt

/-- A `list<u8>`, which `in_memory` traps on unless it lies inside. -/
def liftList (memory : Bytes) (ptr len : UInt64) : Option Bytes :=
  let start := ptr.toUInt32.toNat
  let length := len.toUInt32.toNat
  if start + length > memory.length then none else some ((memory.drop start).take length)

/-- An instance of the module: its linear memory and its one slot. -/
structure Instance where
  memory : Bytes
  slot : Slot

/-- An export on core arguments, by its name in the WIT. -/
def Instance.invoke (i : Instance) (fn : String) (core : List UInt64) : Option (String × Slot) :=
  match fn, core with
  | "init", [ptr, len] => do
    let config ← liftList i.memory ptr len
    init ssl base64 json appleRoots i.slot config
  | "verify-receipt", [nowMs, ptr, len] => do
    let receiptBase64 ← liftList i.memory ptr len
    verify ssl jiff base64 json i.slot (.verifyReceipt (liftInt nowMs)) receiptBase64
  | "verify-signed-data", [nowMs, ptr, len] => do
    let jws ← liftList i.memory ptr len
    verify ssl jiff base64 json i.slot (.verifySignedData (liftInt nowMs)) jws
  | "verify-receipt-endpoint", [env, nowMs, ptr, len] => do
    let environment ← liftEnvironment env
    let requestJson ← liftList i.memory ptr len
    verify ssl jiff base64 json i.slot (.endpoint environment (liftInt nowMs)) requestJson
  | _, _ => none

end

/-! ## Linear memory, from outside -/

namespace Instance

/-- The `n` bytes at an address lie inside. -/
def Inside (i : Instance) (ptr : UInt32) (n : Nat) : Prop := ptr.toNat + n ≤ i.memory.length

instance (i : Instance) (ptr : UInt32) (n : Nat) : Decidable (i.Inside ptr n) :=
  inferInstanceAs (Decidable (_ ≤ _))

def slice (i : Instance) (ptr : UInt32) (n : Nat) : Bytes := (i.memory.drop ptr.toNat).take n

def write (i : Instance) (ptr : UInt32) (bytes : Bytes) : Instance :=
  { i with
    memory := i.memory.take ptr.toNat ++ bytes ++ i.memory.drop (ptr.toNat + bytes.length) }

/-- Four bytes, the lowest first. -/
def readUint32Le (i : Instance) (offset : UInt32) : Option UInt32 :=
  match i.slice offset 4 with
  | [a, b, c, d] =>
    some (a.toUInt32 ||| b.toUInt32 <<< 8 ||| c.toUInt32 <<< 16 ||| d.toUInt32 <<< 24)
  | _ => none

/-- The return area of a text at an address: the place and the length of its bytes. -/
def Returns (i : Instance) (rp : UInt32) (text : String) : Prop :=
  rp ≤ 0xffffffff - 8 ∧ ∃ ptr n, i.readUint32Le rp = some ptr ∧ i.readUint32Le (rp + 4) = some n ∧
    i.Inside ptr n.toNat ∧ i.slice ptr n.toNat = utf8 text

end Instance

end Abi

end ReceiptVerifier
