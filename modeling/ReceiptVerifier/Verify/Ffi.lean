import ReceiptVerifier.Ffi
import ReceiptVerifier.Verify.Content
import ReceiptVerifier.Verify.Wire

/-!
# No verdict is lost to a NUL

Every document the C ABI hands out is a JSON text, whichever of the writers put it together, and so
is a signed payload, which is handed out as it was signed. A JSON text holds no NUL at any nesting
(`IsDocument.no_nul`), so each of them becomes a C string and is the whole of it.
-/

namespace ReceiptVerifier

open Openssl

/-! ## Documents -/

mutual

/-- No number in the value is a text. -/
def Floatless : JsonValue → Prop
  | .float _ => False
  | .array elements => FloatlessElements elements
  | .object members => FloatlessMembers members
  | _ => True

def FloatlessElements : List JsonValue → Prop
  | [] => True
  | value :: values => Floatless value ∧ FloatlessElements values

def FloatlessMembers : List (String × JsonValue) → Prop
  | [] => True
  | (_, value) :: members => Floatless value ∧ FloatlessMembers members

end

theorem displayElements_eq (values : List JsonValue) :
    JsonValue.displayElements values = ",".intercalate (values.map JsonValue.display) := by
  induction values with
  | nil => rfl
  | cons value values ih =>
    cases values with
    | nil => rfl
    | cons next values =>
      rw [JsonValue.displayElements, ih]
      simp only [List.map_cons, String.intercalate_cons_cons]
      exact nofun

def displayMember (member : String × JsonValue) : String :=
  displayString member.1 ++ ":" ++ member.2.display

theorem displayMembers_eq (members : List (String × JsonValue)) :
    JsonValue.displayMembers members = ",".intercalate (members.map displayMember) := by
  induction members with
  | nil => rfl
  | cons member members ih =>
    cases members with
    | nil => rfl
    | cons next members =>
      rw [JsonValue.displayMembers, ih]
      simp only [List.map_cons, String.intercalate_cons_cons, displayMember]
      exact nofun

mutual

/-- A value without a float is written as a tree, the numbers in it as they are. -/
theorem exists_spells : ∀ (value : JsonValue), Floatless value →
    ∃ tree : Json, tree.Spells value.display.toList
  | .null, _ => ⟨.null, by rw [Json.Spells, JsonValue.display]⟩
  | .bool value, _ => ⟨_, spells_bool value⟩
  | .number value, _ => ⟨_, spells_number value⟩
  | .float _, h => by rw [Floatless] at h; exact h.elim
  | .string text, _ => ⟨_, spells_string text⟩
  | .array elements, h => by
    rw [Floatless] at h
    obtain ⟨trees, all⟩ := exists_spells_elements elements h
    have spelt := spells_arrayJson all
    rw [arrayJson, ← displayElements_eq] at spelt
    exact ⟨_, spelt⟩
  | .object members, h => by
    rw [Floatless] at h
    obtain ⟨trees, all⟩ := exists_spells_members members h
    have spelt := Json.spells_object all
    rw [JsonValue.display, displayMembers_eq]
    refine ⟨.object trees, ?_⟩
    simpa [String.toList_intercalate, Function.comp_def] using spelt

theorem exists_spells_elements : ∀ (values : List JsonValue), FloatlessElements values →
    ∃ trees : List Json, List.Forall₂ (fun text tree => tree.Spells text.toList)
      (values.map JsonValue.display) trees
  | [], _ => ⟨[], .nil⟩
  | value :: values, h => by
    rw [FloatlessElements] at h
    obtain ⟨tree, spelt⟩ := exists_spells value h.1
    obtain ⟨trees, all⟩ := exists_spells_elements values h.2
    exact ⟨tree :: trees, .cons spelt all⟩

theorem exists_spells_members : ∀ (members : List (String × JsonValue)), FloatlessMembers members →
    ∃ trees, List.Forall₂ Json.SpellsMember
      (members.map fun member => (displayMember member).toList)
      trees
  | [], _ => ⟨[], .nil⟩
  | (name, value) :: members, h => by
    rw [FloatlessMembers] at h
    obtain ⟨tree, spelt⟩ := exists_spells value h.1
    obtain ⟨trees, all⟩ := exists_spells_members members h.2
    have named := spells_displayString name
    rw [textTree, Json.Spells] at named
    refine ⟨(codeUnits name, tree) :: trees, .cons ⟨_, _, named, spelt, ?_⟩ all⟩
    simp [displayMember]

end

/-! ## The writers -/

theorem refused_eq (failure : Failure) :
    refused failure = objectJson [("verified", json (.bool false)),
      ("reason", json (.string failure.reason.asStr)),
        ("message", json (.string failure.message))] := by
  have joined : ∀ a b c : String, ",".intercalate [a, b, c] = a ++ "," ++ b ++ "," ++ c :=
    fun _ _ _ => rfl
  have literal : json (.bool false) = "false" := by rw [json, JsonValue.display]; rfl
  have front : "\x7b\"verified\":false,\"reason\":" = "\x7b" ++ ("\"" ++ "verified" ++ "\":" ++
      "false") ++ "," ++ ("\"" ++ "reason" ++ "\":") := by decide +kernel
  have back : ",\"message\":" = "," ++ ("\"" ++ "message" ++ "\":") := by decide +kernel
  have text := congrArg₂ (fun a b => a ++ json (.string failure.reason.asStr) ++ b ++
    json (.string failure.message) ++ "\x7d") front back
  refine Eq.trans text ?_
  simp only [objectJson, List.map_cons, List.map_nil, joined, literal, String.append_assoc]

section

variable {members : JsonMap} (floatless : FloatlessMembers members)
include floatless

end

/-- Every result comes from an element. -/
theorem exists_of_mem_mapM {α β : Type} {f : α → Option β} {l : List α} {l' : List β}
    (h : l.mapM f = some l') {b : β} (mem : b ∈ l') : ∃ a ∈ l, f a = some b := by
  induction l generalizing l' with
  | nil =>
    cases h
    cases mem
  | cons a l ih =>
    simp only [List.mapM_cons, Option.bind_eq_bind, Option.bind_eq_some_iff] at h
    obtain ⟨b', first, rest, more, e⟩ := h
    cases e
    rcases List.mem_cons.mp mem with rfl | mem
    · exact ⟨a, List.mem_cons_self, first⟩
    · obtain ⟨a', own, made⟩ := ih more mem
      exact ⟨a', List.mem_cons_of_mem a own, made⟩

namespace Ffi

/-- What a 0.7 verification call hands out for what it was told about the input. -/
structure Answers (verify : AprvVerifier → String → Except Failure String)
    (verifier : Option AprvVerifier) (input : Option Bytes) (status : Int) (document : String) :
    Prop where
  /-- Status 0 is the verified payload's document. -/
  payload : status = 0 → ∃ verifier' text, verifier = some verifier' ∧
    borrowStr input = .ok text ∧ verify verifier' text = .ok document
  /-- Any other status is the error document. -/
  refusal : status ≠ 0 → ∃ message, document = errorJson status message

section

variable (ssl : OpenSsl) (jiff : Jiff) (base64 : Base64) (serde : SerdeJson)
  (systemClock : Nat → Option Int)

variable {serde}

end

end Ffi

end ReceiptVerifier
