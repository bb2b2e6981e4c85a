import ReceiptVerifier.Lib.Subslice
import ReceiptVerifier.Lib.Traced
import ReceiptVerifier.Openssl.Walk

/-!
# What a walk hands to its check

`Walker::value` of `rust/openssl/src/walk.rs` again, now beside the calls of its `Primitive` check:
every event is the subslice of the walked octets that one call was given. `start` is where `input`
starts among those octets.
-/

namespace ReceiptVerifier

namespace Openssl

open Ber (Header)

/-- A computation beside the subslices it hands to a check. -/
abbrev Handed := Traced (Subslice UInt8)

namespace Walker

variable (w : Walker)

/-- One call of the check. -/
def hand (check : Bytes → Bool) (value : Subslice UInt8) : Handed Bool := do
  Traced.emit value
  pure (check value.items)

/-- `refusesPrimitive`, which calls the check last. -/
def handsPrimitive (h : Header) (string : Nat) (value : Subslice UInt8) : Handed Bool :=
  match w.primitive with
  | none => pure false
  | some check =>
    if string == 0 && h.cls == vAsn1Universal && checkedTags.contains h.tag then do
      let accepted ← hand check value
      pure !accepted
    else pure false

/-- `refusesString`, which calls the check last. -/
def handsString (level : Nat) (value : Subslice UInt8) : Handed Bool :=
  match w.primitive with
  | none => pure false
  | some check =>
    if level == 1 then do
      let accepted ← hand check value
      pure !accepted
    else pure false

/-- What follows the walk through a constructed value that starts at `start` and has a header of
`head` octets: the check of a whole string. -/
def closes (start : Nat) (input : Bytes) {head : Nat} (two : 2 ≤ head) (level : Nat) :
    Except WalkError (Nat × Nat) → Handed (Except WalkError (Size × Nat))
  | .error err => pure (.error err)
  | .ok (walked, nodesLeft) => do
    let size := head + walked
    let refused ← w.handsString level ⟨start, input.take size⟩
    if refused then pure (.error .malformed)
    else pure (.ok (⟨size, Nat.le_add_right_of_le two⟩, nodesLeft))

/-- What follows one value of a constructed one: the values after it. -/
def goesOn (next : Size → Nat → Handed (Except WalkError (Nat × Nat))) :
    Except WalkError (Size × Nat) → Handed (Except WalkError (Nat × Nat))
  | .error err => pure (.error err)
  | .ok (size, nodesLeft) => do
    let later ← next size nodesLeft
    pure (later.map fun walked => (size.1 + walked.1, walked.2))

end Walker

variable (g : Asn1GetObject)

mutual

/-- `Walker.value` of the `input` that starts at `start`. -/
def Walker.tracedValue (w : Walker) (nodesLeft start : Nat) (input : Bytes) (depth string : Nat) :
    Handed (Except WalkError (Size × Nat)) :=
  match nodesLeft with
  | 0 => pure (.error .tooManyNodes)
  | nodesLeft + 1 =>
    match e : header g input with
    | none => pure (.error .malformed)
    | some h =>
      have two : 2 ≤ h.head := (headerReader g).two_le_head e
      if w.refusesForm h then pure (.error .malformed)
      else if h.constructed = false then do
        let refused ← w.handsPrimitive h string ⟨start, input.take (definiteSize h)⟩
        if refused then pure (.error .malformed)
        else pure (.ok (⟨definiteSize h, Nat.le_add_right_of_le two⟩, nodesLeft))
      else if depth ≥ w.maxDepth then pure (.error .tooDeep)
      else
        match w.level h string with
        | none => pure (.error .malformed)
        | some level =>
          let inside :=
            if h.indefinite then
              Walker.tracedUntilEoc w nodesLeft (start + h.head) (input.drop h.head)
                (depth + 1) level
            else
              Walker.tracedFilling w nodesLeft (start + h.head)
                ((input.drop h.head).take h.content) (depth + 1) level
          inside >>= w.closes start input two level
termination_by 2 * input.length
decreasing_by
  all_goals
    have fits := (headerReader g).fits e
    simp only [List.length_take, List.length_drop]
    omega

/-- `Walker.untilEoc` of the `rest` that starts at `start`. -/
def Walker.tracedUntilEoc (w : Walker) (nodesLeft start : Nat) (rest : Bytes) (depth level : Nat) :
    Handed (Except WalkError (Nat × Nat)) :=
  match rest with
  | [] => pure (if nodesLeft = 0 then .error .tooManyNodes else .error .malformed)
  | first :: rest =>
    if Ber.eoc.isPrefixOf (first :: rest) then pure (.ok (2, nodesLeft))
    else
      Walker.tracedValue w nodesLeft start (first :: rest) depth level >>=
        Walker.goesOn fun size nodesLeft =>
          Walker.tracedUntilEoc w nodesLeft (start + size.1) ((first :: rest).drop size.1) depth
            level
termination_by 2 * rest.length + 1
decreasing_by
  · omega
  · have := size.2
    simp only [List.length_drop, List.length_cons]
    omega

/-- `Walker.filling` of the `rest` that starts at `start`. -/
def Walker.tracedFilling (w : Walker) (nodesLeft start : Nat) (rest : Bytes) (depth level : Nat) :
    Handed (Except WalkError (Nat × Nat)) :=
  match rest with
  | [] => pure (.ok (0, nodesLeft))
  | first :: rest =>
    if w.primitive.isSome && Ber.eoc.isPrefixOf (first :: rest) then pure (.error .malformed)
    else
      Walker.tracedValue w nodesLeft start (first :: rest) depth level >>=
        Walker.goesOn fun size nodesLeft =>
          Walker.tracedFilling w nodesLeft (start + size.1) ((first :: rest).drop size.1) depth
            level
termination_by 2 * rest.length + 1
decreasing_by
  · omega
  · have := size.2
    simp only [List.length_drop, List.length_cons]
    omega

end

/-- `walkExact`, beside the calls of its check. -/
def tracedWalkExact (input : Bytes) (budget : Budget) (headers : Headers)
    (primitive : Option (Bytes → Bool)) : Handed (Except WalkError Unit) := do
  let walker : Walker := { maxDepth := budget.depth, headers := headers, primitive := primitive }
  match ← walker.tracedValue g budget.nodes 0 input 0 0 with
  | .error err => pure (.error err)
  | .ok (size, _) => pure (if size.1 = input.length then .ok () else .error .trailing)

end Openssl

end ReceiptVerifier
