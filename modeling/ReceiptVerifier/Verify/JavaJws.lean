import ReceiptVerifier.Java.JwsCore
import ReceiptVerifier.Jws

/-!
# The two ports read JWS payloads alike

Java streams a payload's tokens past the cells of a `Payload`; Rust looks members up in the map of
their last values. Both readings are of one document (`Doc`), which has for each value the raw text
`serde_json` gives and the tokens Jackson gives. Streaming leaves in each cell what the last member
of its name put there, which is what the map holds.
-/

namespace ReceiptVerifier

namespace Java.JwsCore

/-! ## Documents -/

/-- A JSON value as it stands in a document. -/
inductive Doc where
  | null
  | bool (value : Bool)
  | number (text : String)
  | string (raw : String) (text : List UInt16)
  | array (raw : String) (elements : List Doc)
  | object (raw : String) (members : List (List UInt16 × Doc))

/-- The text a value has in the document. -/
def Doc.raw : Doc → String
  | .null => "null"
  | .bool value => toString value
  | .number text => text
  | .string raw _ => raw
  | .array raw _ => raw
  | .object raw _ => raw

/-- The value's text when it is a string. -/
def Doc.text : Doc → Option (List UInt16)
  | .string _ text => some text
  | _ => none

/-- Digits and a minus are an integer; only a fraction or an exponent adds anything else. -/
def numberToken (text : String) : Token :=
  if text.toList.all fun c => c == '-' || c.isDigit then .valueNumberInt text
  else .valueNumberFloat text

/-- The first token of a value. -/
def Doc.first : Doc → Token
  | .null => .valueNull
  | .bool true => .valueTrue
  | .bool false => .valueFalse
  | .number text => numberToken text
  | .string _ text => .valueString text
  | .array _ _ => .startArray
  | .object _ _ => .startObject

/-- The last token of a value. -/
def Doc.last : Doc → Token
  | .array _ _ => .endArray
  | .object _ _ => .endObject
  | scalar => scalar.first

mutual

/-- The tokens of a value after its first. -/
def Doc.following : Doc → List Token
  | .array _ elements => Doc.elementTokens elements ++ [.endArray]
  | .object _ members => Doc.memberTokens members ++ [.endObject]
  | _ => []

def Doc.elementTokens : List Doc → List Token
  | [] => []
  | element :: elements => element.first :: element.following ++ Doc.elementTokens elements

def Doc.memberTokens : List (List UInt16 × Doc) → List Token
  | [] => []
  | (name, value) :: members =>
    .fieldName name :: value.first :: value.following ++ Doc.memberTokens members

end

def Doc.tokens (doc : Doc) : List Token := doc.first :: doc.following

/-! ## Skipping -/

theorem numberToken_cases (text : String) :
    numberToken text = .valueNumberInt text ∨ numberToken text = .valueNumberFloat text := by
  unfold numberToken
  split
  · exact .inl rfl
  · exact .inr rfl

mutual

/-- Inside an open value, a whole value is skipped. -/
theorem skipTo_doc (depth : Nat) (rest : List Token) : ∀ doc : Doc,
    JsonParser.skipTo (depth + 1) (doc.first :: doc.following ++ rest) =
      JsonParser.skipTo (depth + 1) rest
  | .null => by simp [Doc.first, Doc.following, JsonParser.skipTo]
  | .bool true => by simp [Doc.first, Doc.following, JsonParser.skipTo]
  | .bool false => by simp [Doc.first, Doc.following, JsonParser.skipTo]
  | .number text => by
    rcases numberToken_cases text with token | token <;>
      simp [Doc.first, Doc.following, JsonParser.skipTo, token]
  | .string _ _ => by simp [Doc.first, Doc.following, JsonParser.skipTo]
  | .array _ elements => by
    rw [Doc.first, Doc.following, List.cons_append, JsonParser.skipTo, List.append_assoc,
      skipTo_elements (depth + 1) _ elements]
    simp [JsonParser.skipTo]
  | .object _ members => by
    rw [Doc.first, Doc.following, List.cons_append, JsonParser.skipTo, List.append_assoc,
      skipTo_members (depth + 1) _ members]
    simp [JsonParser.skipTo]

theorem skipTo_elements (depth : Nat) (rest : List Token) : ∀ elements : List Doc,
    JsonParser.skipTo (depth + 1) (Doc.elementTokens elements ++ rest) =
      JsonParser.skipTo (depth + 1) rest
  | [] => rfl
  | element :: elements => by
    rw [Doc.elementTokens, List.append_assoc, skipTo_doc depth _ element,
      skipTo_elements depth rest elements]

theorem skipTo_members (depth : Nat) (rest : List Token) : ∀ members : List (List UInt16 × Doc),
    JsonParser.skipTo (depth + 1) (Doc.memberTokens members ++ rest) =
      JsonParser.skipTo (depth + 1) rest
  | [] => rfl
  | (name, value) :: members => by
    have afterName : JsonParser.skipTo (depth + 1)
        (Doc.memberTokens ((name, value) :: members) ++ rest) = JsonParser.skipTo (depth + 1)
          (value.first :: value.following ++ (Doc.memberTokens members ++ rest)) := by
      simp [Doc.memberTokens, JsonParser.skipTo]
    rw [afterName, skipTo_doc depth _ value, skipTo_members depth rest members]

end

/-- The parser on a value's first token. -/
def onFirst (doc : Doc) (rest : List Token) : JsonParser := ⟨some doc.first, doc.following ++ rest⟩

/-- The parser on a value's last token. -/
def onLast (doc : Doc) (rest : List Token) : JsonParser := ⟨some doc.last, rest⟩

theorem skipChildren_onFirst (doc : Doc) (rest : List Token) :
    (onFirst doc rest).skipChildren = onLast doc rest := by
  cases doc with
  | array raw elements =>
    change JsonParser.skipTo 1 (Doc.elementTokens elements ++ [.endArray] ++ rest) = _
    rw [List.append_assoc, skipTo_elements 0]
    rfl
  | object raw members =>
    change JsonParser.skipTo 1 (Doc.memberTokens members ++ [.endObject] ++ rest) = _
    rw [List.append_assoc, skipTo_members 0]
    rfl
  | bool value => cases value <;> rfl
  | number text =>
    change JsonParser.skipChildren ⟨some (numberToken text), rest⟩ = ⟨some (numberToken text), rest⟩
    rcases numberToken_cases text with token | token <;> rw [token] <;> rfl
  | null => rfl
  | string raw text => rfl

theorem skipChildren_onLast (doc : Doc) (rest : List Token) :
    (onLast doc rest).skipChildren = onLast doc rest := by
  cases doc with
  | bool value => cases value <;> rfl
  | number text =>
    change JsonParser.skipChildren ⟨some (numberToken text), rest⟩ = ⟨some (numberToken text), rest⟩
    rcases numberToken_cases text with token | token <;> rw [token] <;> rfl
  | null => rfl
  | string raw text => rfl
  | array raw elements => rfl
  | object raw members => rfl

/-! ## Streaming -/

section

variable {σ : Type} {visitor : Visitor σ} {step : σ → List UInt16 → Doc → σ}

/-- A visitor that does `step` at a member and leaves the parser where skipping ends the value. -/
def Visits (visitor : Visitor σ) (step : σ → List UInt16 → Doc → σ) : Prop :=
  ∀ cells name doc rest, ∃ parser,
    visitor cells name (onFirst doc rest) = (step cells name doc, parser) ∧
      parser.skipChildren = onLast doc rest

/-- The loop is a fold of the visitor's steps over the members. -/
theorem membersLoop_eq_foldl (visits : Visits visitor step) :
    ∀ (members : List (List UInt16 × Doc)) (cells : σ) (fuel : Nat) (current : Option Token)
      (rest : List Token), members.length < fuel →
      membersLoop visitor fuel cells ⟨current, Doc.memberTokens members ++ .endObject :: rest⟩ =
        (members.foldl (fun cells member => step cells member.1 member.2) cells,
          ⟨some .endObject, rest⟩) := by
  intro members
  induction members with
  | nil =>
    intro cells fuel current rest enough
    obtain ⟨fuel, rfl⟩ := Nat.exists_eq_add_of_lt enough
    simp [membersLoop, Doc.memberTokens, JsonParser.nextToken]
  | cons member members ih =>
    intro cells fuel current rest enough
    obtain ⟨name, value⟩ := member
    obtain ⟨fuel, rfl⟩ : ∃ rounds, fuel = rounds + 1 := ⟨fuel - 1, by omega⟩
    obtain ⟨parser, visited, skipped⟩ := visits cells name value
      (Doc.memberTokens members ++ .endObject :: rest)
    have next : (JsonParser.nextToken ⟨some (.fieldName name), value.first :: (value.following ++
        (Doc.memberTokens members ++ .endObject :: rest))⟩) =
        onFirst value (Doc.memberTokens members ++ .endObject :: rest) := rfl
    rw [Doc.memberTokens, membersLoop]
    simp only [JsonParser.nextToken, List.cons_append, List.head?_cons, List.tail_cons,
      List.append_assoc] at next ⊢
    rw [next, visited]
    dsimp only
    rw [skipped, onLast, ih _ fuel _ rest (by simp at enough; omega)]
    rfl

theorem length_memberTokens (members : List (List UInt16 × Doc)) :
    members.length ≤ (Doc.memberTokens members).length := by
  induction members with
  | nil => exact Nat.le_refl 0
  | cons member members ih =>
    rw [Doc.memberTokens]
    simp only [List.length_cons, List.length_append, List.cons_append]
    omega

theorem members_eq_foldl (visits : Visits visitor step) (raw : String)
    (members : List (List UInt16 × Doc)) (cells : σ) (rest : List Token) :
    JwsCore.members visitor cells (onFirst (.object raw members) rest) =
      (members.foldl (fun cells member => step cells member.1 member.2) cells,
        onLast (.object raw members) rest) := by
  have tokens : (onFirst (.object raw members) rest) =
      ⟨some .startObject, Doc.memberTokens members ++ .endObject :: rest⟩ := by
    simp [onFirst, Doc.first, Doc.following]
  have count := length_memberTokens members
  rw [JwsCore.members, tokens]
  exact membersLoop_eq_foldl visits members cells _ _ rest (by
    simp only [List.length_append, List.length_cons]
    omega)

end

/-! ## The last member of a name -/

/-- The value of the last member of a name. -/
def lastOf (name : List UInt16) : List (List UInt16 × Doc) → Option Doc
  | [] => none
  | member :: members => (lastOf name members).or (if member.1 = name then some member.2 else none)

/-- A cell that each member of a name overwrites has what the last one put there. -/
theorem foldl_lastOf {α : Type} (name : List UInt16) (put : Doc → α) :
    ∀ (members : List (List UInt16 × Doc)) (cell : α),
      members.foldl (fun cell member => if member.1 = name then put member.2 else cell) cell =
        (lastOf name members).elim cell put := by
  intro members
  induction members with
  | nil =>
    intro cell
    rfl
  | cons member members ih =>
    intro cell
    rw [List.foldl_cons, ih, lastOf]
    cases lastOf name members with
    | some later => rfl
    | none => by_cases own : member.1 = name <;> simp [own]

/-! ## Java's payload -/

/-- The place a value fills. -/
def placeOf (doc : Doc) : Place := { present := true, value := doc.text }

/-- The place of a container: its last `environment`, when it is an object that has one. -/
def containerPlace : Doc → Place
  | .object _ members => (lastOf (units "environment") members).elim {} placeOf
  | _ => {}

theorem stringOf_first (doc : Doc) : stringOf (some doc.first) = doc.text := by
  cases doc with
  | bool value => cases value <;> rfl
  | number text =>
    change stringOf (some (numberToken text)) = none
    rcases numberToken_cases text with token | token <;> rw [token] <;> rfl
  | null => rfl
  | string raw text => rfl
  | array raw elements => rfl
  | object raw members => rfl

theorem state_onFirst (place : Place) (doc : Doc) (rest : List Token) :
    place.state (onFirst doc rest) = placeOf doc := by
  rw [Place.state, onFirst, stringOf_first]
  rfl

theorem readContainer_onFirst (place : Place) (doc : Doc) (rest : List Token) :
    ∃ parser, place.readContainer (onFirst doc rest) = (containerPlace doc, parser) ∧
      parser.skipChildren = onLast doc rest := by
  by_cases object : doc.first = .startObject
  · cases doc with
    | object raw members =>
      have visits : Visits (fun place name parser =>
          (if name = units "environment" then place.state parser else place, parser))
          (fun (place : Place) name doc =>
            if name = units "environment" then placeOf doc else place) := by
        intro cells name doc rest
        exact ⟨onFirst doc rest, by simp only [state_onFirst], skipChildren_onFirst doc rest⟩
      refine ⟨onLast (.object raw members) rest, ?_, skipChildren_onLast _ rest⟩
      rw [Place.readContainer, if_neg (by simp [onFirst, Doc.first]), members_eq_foldl visits,
        foldl_lastOf]
      rfl
    | bool value => cases value <;> cases object
    | number text =>
      rcases numberToken_cases text with token | token <;>
        exact absurd (token.symm.trans object) (by simp)
    | null => cases object
    | string raw text => cases object
    | array raw elements => cases object
  · refine ⟨onFirst doc rest, ?_, skipChildren_onFirst doc rest⟩
    rw [Place.readContainer, if_pos (by simpa [onFirst] using object)]
    cases doc with
    | object raw members => exact absurd rfl object
    | _ => rfl

theorem units_inj {a b : String} : units a = units b ↔ a = b :=
  Utf16.encode_injective.eq_iff.trans String.toList_inj

section

variable (jackson : Jackson)

/-- What the visitor of `readPayload` does at a member. -/
def Payload.step (payload : Payload) (name : List UInt16) (doc : Doc) : Payload :=
  if name = units "signedDate" then
    { payload with signedDate := instant jackson (some doc.first) }
  else if name = units "receiptCreationDate" then
    { payload with receiptCreationDate := instant jackson (some doc.first) }
  else if name = units "environment" then { payload with topLevel := placeOf doc }
  else if name = units "data" then { payload with data := containerPlace doc }
  else if name = units "summary" then { payload with summary := containerPlace doc }
  else payload

theorem visits_field : Visits (Payload.field jackson) (Payload.step jackson) := by
  intro payload name doc rest
  unfold Payload.field Payload.step
  split
  · exact ⟨onFirst doc rest, rfl, skipChildren_onFirst doc rest⟩
  · split
    · exact ⟨onFirst doc rest, rfl, skipChildren_onFirst doc rest⟩
    · split
      · exact ⟨onFirst doc rest, by rw [state_onFirst], skipChildren_onFirst doc rest⟩
      · split
        · obtain ⟨parser, read, skipped⟩ := readContainer_onFirst payload.data doc rest
          exact ⟨parser, by rw [read], skipped⟩
        · split
          · obtain ⟨parser, read, skipped⟩ := readContainer_onFirst payload.summary doc rest
            exact ⟨parser, by rw [read], skipped⟩
          · exact ⟨onFirst doc rest, rfl, skipChildren_onFirst doc rest⟩

/-- A cell that the members of one name alone write. -/
theorem cell_foldl {α : Type} (cell : Payload → α) (name : List UInt16) (put : Doc → α)
    (writes : ∀ payload own doc, cell (Payload.step jackson payload own doc) =
      if own = name then put doc else cell payload) :
    ∀ (members : List (List UInt16 × Doc)) (payload : Payload),
      cell (members.foldl (fun payload member =>
        Payload.step jackson payload member.1 member.2) payload) =
          (lastOf name members).elim (cell payload) put := by
  intro members
  induction members with
  | nil =>
    intro payload
    rfl
  | cons member members ih =>
    intro payload
    rw [List.foldl_cons, ih, lastOf, writes]
    cases lastOf name members with
    | some later => rfl
    | none => by_cases own : member.1 = name <;> simp [own]

/-- The payload a document's members leave. -/
def payloadOf (members : List (List UInt16 × Doc)) : Payload where
  signedDate := (lastOf (units "signedDate") members).elim none fun doc =>
    instant jackson (some doc.first)
  receiptCreationDate := (lastOf (units "receiptCreationDate") members).elim none fun doc =>
    instant jackson (some doc.first)
  topLevel := (lastOf (units "environment") members).elim {} placeOf
  data := (lastOf (units "data") members).elim {} containerPlace
  summary := (lastOf (units "summary") members).elim {} containerPlace

/-- Each cell is written under its own name alone. -/
theorem foldl_step (members : List (List UInt16 × Doc)) :
    members.foldl (fun payload member => Payload.step jackson payload member.1 member.2) {} =
      payloadOf jackson members := by
  have signed := cell_foldl jackson Payload.signedDate (units "signedDate")
    (fun doc => instant jackson (some doc.first)) (by
      intro payload own doc
      unfold Payload.step
      split_ifs <;> simp_all [units_inj]) members {}
  have creation := cell_foldl jackson Payload.receiptCreationDate (units "receiptCreationDate")
    (fun doc => instant jackson (some doc.first)) (by
      intro payload own doc
      unfold Payload.step
      split_ifs <;> simp_all [units_inj]) members {}
  have topLevel := cell_foldl jackson Payload.topLevel (units "environment") placeOf (by
    intro payload own doc
    unfold Payload.step
    split_ifs <;> simp_all [units_inj]) members {}
  have data := cell_foldl jackson Payload.data (units "data") containerPlace (by
    intro payload own doc
    unfold Payload.step
    split_ifs <;> simp_all [units_inj]) members {}
  have summary := cell_foldl jackson Payload.summary (units "summary") containerPlace (by
    intro payload own doc
    unfold Payload.step
    split_ifs <;> simp_all [units_inj]) members {}
  revert signed creation topLevel data summary
  generalize members.foldl (fun payload member =>
    Payload.step jackson payload member.1 member.2) {} = payload
  intro signed creation topLevel data summary
  cases payload
  simp only at signed creation topLevel data summary
  rw [payloadOf, ← signed, ← creation, ← topLevel, ← data, ← summary]

theorem readPayload_tokens (raw : String) (members : List (List UInt16 × Doc)) :
    readPayload jackson (Doc.object raw members).tokens = some (payloadOf jackson members) := by
  have start : (JsonParser.nextToken ⟨none, (Doc.object raw members).tokens⟩) =
      onFirst (.object raw members) [] := by
    simp [JsonParser.nextToken, Doc.tokens, onFirst]
  have read : JwsCore.read (Payload.field jackson) {} ⟨none, (Doc.object raw members).tokens⟩ =
      some (payloadOf jackson members, onLast (.object raw members) []) := by
    have object : (onFirst (.object raw members) []).current = some .startObject := rfl
    unfold JwsCore.read
    dsimp only
    rw [start, if_pos object, members_eq_foldl (visits_field jackson), foldl_step]
  rw [readPayload, read]
  rfl

/-! ## Rust's members -/

/-- What `serde_json` reads a text as: the members of an object, a string, and whether it starts as
a number does. -/
structure ReadsAs (serde : SerdeJson) (raw : String) (object : Option (List (String × String)))
    (string : Option String) (number : Bool) : Prop where
  object : serde.wholeObject raw = object
  string : serde.string raw = string
  number : ((trim raw.toList).head?.any fun c => c == '-' || c.isDigit) = number

/-- A text `serde_json` decodes: one without a lone surrogate. -/
def decodes (text : List UInt16) : Option String := (Utf16.decode text).map String.ofList

/-- The members as `serde_json` hands them on; nothing when it does not decode a name. -/
def rawMembers (members : List (List UInt16 × Doc)) : Option (List (String × String)) :=
  members.mapM fun (name, value) => (decodes name).map fun name => (name, value.raw)

mutual

/-- `serde_json` reads every value of the document as what it is. A lone surrogate escape is refused
in a name, and in a string that is read. -/
def Doc.ReadBy (serde : SerdeJson) : Doc → Prop
  | .null => ReadsAs serde "null" none none false
  | .bool value => ReadsAs serde (toString value) none none false
  | .number text => ReadsAs serde text none none true ∧ trim text.toList = text.toList
  | .string raw text => ReadsAs serde raw none (decodes text) false
  | .array raw elements => ReadsAs serde raw none none false ∧ Doc.ElementsReadBy serde elements
  | .object raw members =>
    ReadsAs serde raw (rawMembers members) none false ∧ Doc.MembersReadBy serde members

def Doc.ElementsReadBy (serde : SerdeJson) : List Doc → Prop
  | [] => True
  | element :: elements => element.ReadBy serde ∧ Doc.ElementsReadBy serde elements

def Doc.MembersReadBy (serde : SerdeJson) : List (List UInt16 × Doc) → Prop
  | [] => True
  | (_, value) :: members => value.ReadBy serde ∧ Doc.MembersReadBy serde members

end

theorem decodes_eq_some_iff {text : List UInt16} {decoded : String} :
    decodes text = some decoded ↔ text = units decoded := by
  unfold decodes units
  rw [Option.map_eq_some_iff]
  constructor
  · rintro ⟨chars, decoded, rfl⟩
    rw [String.toList_ofList]
    exact Utf16.decode_eq_some_iff.mp decoded
  · intro same
    exact ⟨decoded.toList, Utf16.decode_eq_some_iff.mpr same, String.ofList_toList⟩

/-- Whether `serde_json` decodes every name. -/
def NamesDecode (members : List (List UInt16 × Doc)) : Prop :=
  ∀ member ∈ members, (decodes member.1).isSome = true

instance (members : List (List UInt16 × Doc)) : Decidable (NamesDecode members) :=
  inferInstanceAs (Decidable (∀ member ∈ members, (decodes member.1).isSome = true))

theorem rawMembers_of_not_decode {members : List (List UInt16 × Doc)}
    (h : ¬ NamesDecode members) : rawMembers members = none := by
  induction members with
  | nil => exact absurd (fun member mem => by cases mem) h
  | cons member members ih =>
    obtain ⟨name, value⟩ := member
    unfold rawMembers
    rw [List.mapM_cons]
    cases decoded : decodes name with
    | none => simp [decoded]
    | some own =>
      have rest : ¬ NamesDecode members := fun all => h (by
        intro member mem
        rcases List.mem_cons.mp mem with rfl | later
        · simp [decoded]
        · exact all member later)
      have none := ih rest
      unfold rawMembers at none
      simp [none]

/-- The map holds the last value of each name. -/
theorem foldl_insert_rawMembers (name : String) : ∀ (members : List (List UInt16 × Doc))
    (map : Members), NamesDecode members → ∃ raws, rawMembers members = some raws ∧
      (raws.foldl (fun map member => map.insert member.1 member.2) map)[name]? =
        ((lastOf (units name) members).map Doc.raw).or map[name]? := by
  intro members
  induction members with
  | nil =>
    intro map _
    exact ⟨[], rfl, by simp [lastOf]⟩
  | cons member members ih =>
    intro map decode
    obtain ⟨own, value⟩ := member
    obtain ⟨decoded, own_eq⟩ : ∃ decoded, decodes own = some decoded :=
      Option.isSome_iff_exists.mp (decode (own, value) List.mem_cons_self)
    obtain ⟨raws, rest, looked⟩ := ih (map.insert decoded value.raw)
      (fun member mem => decode member (List.mem_cons_of_mem _ mem))
    refine ⟨(decoded, value.raw) :: raws, ?_, ?_⟩
    · unfold rawMembers at rest ⊢
      rw [List.mapM_cons, rest]
      simp [own_eq]
    · rw [List.foldl_cons, looked, lastOf, Std.ExtTreeMap.getElem?_insert]
      have named : own = units name ↔ decoded = name := by
        rw [decodes_eq_some_iff.mp own_eq, units_inj]
      simp only [Std.LawfulEqCmp.compare_eq_iff_eq]
      cases lastOf (units name) members with
      | some later => simp
      | none => by_cases same : decoded = name <;> simp [named, same]

section

variable {serde : SerdeJson} {raw : String} {members : List (List UInt16 × Doc)}

/-- Looking a name up in the map of an object's text finds the last member of that name. -/
theorem wholeObjectMembers_object (reads : ReadsAs serde raw (rawMembers members) none false)
    (decode : NamesDecode members) :
    ∃ map, wholeObjectMembers serde raw = some map ∧
      ∀ name, map[name]? = (lastOf (units name) members).map Doc.raw := by
  obtain ⟨raws, list, -⟩ := foldl_insert_rawMembers "" members ∅ decode
  refine ⟨membersOf raws, by rw [wholeObjectMembers, reads.object, list]; rfl, fun name => ?_⟩
  obtain ⟨raws', list', looked⟩ := foldl_insert_rawMembers name members ∅ decode
  rw [list] at list'
  cases list'
  rw [membersOf, looked, Std.ExtTreeMap.getElem?_empty, Option.or_none]

theorem readBy_lastOf {name : List UInt16} {doc : Doc} : ∀ {members : List (List UInt16 × Doc)},
    Doc.MembersReadBy serde members → lastOf name members = some doc → doc.ReadBy serde := by
  intro members
  induction members with
  | nil =>
    intro _ last
    cases last
  | cons member members ih =>
    obtain ⟨own, value⟩ := member
    intro reads last
    rw [Doc.MembersReadBy] at reads
    rw [lastOf] at last
    cases later : lastOf name members with
    | some found =>
      rw [later] at last
      cases last
      exact ih reads.2 later
    | none =>
      rw [later, Option.none_or] at last
      split at last
      · cases last
        exact reads.1
      · cases last

/-! ## Values -/

/-- The instant of a member's raw text. -/
def rawInstant (serde : SerdeJson) (raw : String) : Option Int :=
  let text := trim raw.toList
  if !text.head?.any fun c => c == '-' || c.isDigit then none
  else if text.all fun c => c == '-' || c.isDigit then parseI64 text
  else serde.double (String.ofList text)

theorem instant_eq_bind (map : Members) (name : String) :
    ReceiptVerifier.instant serde map name = (map[name]?).bind (rawInstant serde) := by
  unfold ReceiptVerifier.instant rawInstant
  cases map[name]? <;> rfl

/-- The two ports convert the numbers alike. -/
def SameInstants (serde : SerdeJson) (jackson : Jackson) : Prop :=
  ∀ text, ReadsAs serde text none none true → trim text.toList = text.toList →
    instant jackson (some (numberToken text)) = rawInstant serde text

/-- Whether a value is a number. -/
def Doc.isNumber : Doc → Bool
  | .number _ => true
  | _ => false

/-- What a value's raw text reads as. -/
theorem readsAs_raw {doc : Doc} (reads : doc.ReadBy serde) :
    ∃ object, ReadsAs serde doc.raw object (doc.text.bind decodes) doc.isNumber := by
  cases doc with
  | number text =>
    rw [Doc.ReadBy] at reads
    exact ⟨_, reads.1⟩
  | null =>
    rw [Doc.ReadBy] at reads
    exact ⟨_, reads⟩
  | bool value =>
    rw [Doc.ReadBy] at reads
    exact ⟨_, reads⟩
  | string raw text =>
    rw [Doc.ReadBy] at reads
    exact ⟨_, reads⟩
  | array raw elements =>
    rw [Doc.ReadBy] at reads
    exact ⟨_, reads.1⟩
  | object raw members =>
    rw [Doc.ReadBy] at reads
    exact ⟨_, reads.1⟩

theorem instant_first {jackson : Jackson} (same : SameInstants serde jackson) {doc : Doc}
    (reads : doc.ReadBy serde) :
    instant jackson (some doc.first) = rawInstant serde doc.raw := by
  obtain ⟨object, as⟩ := readsAs_raw reads
  have none : doc.isNumber = false → rawInstant serde doc.raw = none := by
    intro other
    have start := as.number
    rw [other] at start
    unfold rawInstant
    simp [start]
  cases doc with
  | number text =>
    rw [Doc.ReadBy] at reads
    exact same text reads.1 reads.2
  | bool value => cases value <;> exact (none rfl).symm
  | null => exact (none rfl).symm
  | string raw text => exact (none rfl).symm
  | array raw elements => exact (none rfl).symm
  | object raw members => exact (none rfl).symm

/-- The two ports name the environments alike: a text that does not decode names none. -/
theorem jwsEnvironment_eq (text : Option (List UInt16)) :
    jwsEnvironment text = Environment.fromJwsEnvironment (text.bind decodes) := by
  cases text with
  | none => rfl
  | some text =>
    rw [Option.bind_some]
    cases decoded : decodes text with
    | none =>
      have other : ∀ name : String, text ≠ units name := fun name same => by
        rw [decodes_eq_some_iff.mpr same] at decoded
        cases decoded
      simp [jwsEnvironment, other, Environment.fromJwsEnvironment]
    | some name =>
      rw [decodes_eq_some_iff.mp decoded]
      unfold jwsEnvironment Environment.fromJwsEnvironment
      split_ifs <;> simp_all [units_inj]

/-! ## Environments -/

/-- What a place states: nothing, or what its value names. -/
def Place.environment (place : Place) : Option (Option Environment) :=
  if place.present then some (jwsEnvironment place.value) else none

theorem environment_eq (payload : Payload) : payload.environment =
    ((payload.topLevel.environment.or payload.data.environment).or
      payload.summary.environment).join := by
  unfold Payload.environment Place.environment
  simp only [List.find?_cons]
  cases payload.topLevel.present <;> cases payload.data.present <;>
    cases payload.summary.present <;> rfl

/-- Whether `serde_json` reads the members of a value that is an object. -/
def Doc.containerReads : Doc → Bool
  | .object _ members => NamesDecode members
  | _ => true

/-- What Rust finds in a container: nothing when it does not read its members. -/
def readPlace (doc : Doc) : Place := if doc.containerReads then containerPlace doc else {}

theorem wholeObjectMembers_other {doc : Doc} (reads : doc.ReadBy serde)
    (other : ∀ raw members, doc ≠ .object raw members) :
    wholeObjectMembers serde doc.raw = none := by
  have object : serde.wholeObject doc.raw = none := by
    cases doc with
    | object raw members => exact absurd rfl (other raw members)
    | number text =>
      rw [Doc.ReadBy] at reads
      exact reads.1.object
    | null =>
      rw [Doc.ReadBy] at reads
      exact reads.object
    | bool value =>
      rw [Doc.ReadBy] at reads
      exact reads.object
    | string raw text =>
      rw [Doc.ReadBy] at reads
      exact reads.object
    | array raw elements =>
      rw [Doc.ReadBy] at reads
      exact reads.1.object
  rw [wholeObjectMembers, object]
  rfl

/-- A map whose lookups are the last members. -/
def Holds (members : List (List UInt16 × Doc)) (map : Members) : Prop :=
  ∀ name, map[name]? = (lastOf (units name) members).map Doc.raw

theorem environment_of_holds {map : Members} (reads : Doc.MembersReadBy serde members)
    (holds : Holds members map) :
    (if map.contains "environment" then
        some (Environment.fromJwsEnvironment (ReceiptVerifier.string serde map "environment"))
      else none) =
      ((lastOf (units "environment") members).elim {} placeOf).environment := by
  have looked := holds "environment"
  rw [ReceiptVerifier.string, Std.ExtTreeMap.contains_eq_isSome_getElem?, looked]
  cases last : lastOf (units "environment") members with
  | none => rfl
  | some doc =>
    obtain ⟨_, as⟩ := readsAs_raw (readBy_lastOf reads last)
    simp only [Option.map_some, Option.isSome_some, ↓reduceIte, Option.bind_some, Option.elim_some,
      as.string, ← jwsEnvironment_eq]
    rfl

theorem nestedEnvironment_of_holds {map : Members} (reads : Doc.MembersReadBy serde members)
    (holds : Holds members map) (container : String) :
    nestedEnvironment serde map container =
      ((lastOf (units container) members).elim {} readPlace).environment := by
  unfold nestedEnvironment
  rw [holds container]
  cases last : lastOf (units container) members with
  | none => rfl
  | some doc =>
    have own := readBy_lastOf reads last
    rw [Option.map_some]
    dsimp only
    by_cases object : ∃ raw inner, doc = .object raw inner
    · obtain ⟨raw, inner, rfl⟩ := object
      rw [Doc.ReadBy] at own
      by_cases decode : NamesDecode inner
      · obtain ⟨innerMap, whole, held⟩ := wholeObjectMembers_object own.1 decode
        rw [Doc.raw, whole]
        dsimp only
        rw [environment_of_holds own.2 held]
        simp [readPlace, Doc.containerReads, decode, containerPlace]
      · have unread : wholeObjectMembers serde raw = none := by
          rw [wholeObjectMembers, own.1.object, rawMembers_of_not_decode decode]
          rfl
        rw [Doc.raw, unread]
        simp [readPlace, Doc.containerReads, decode, Place.environment]
    · have other : ∀ raw inner, doc ≠ .object raw inner := fun raw inner same =>
        object ⟨raw, inner, same⟩
      rw [wholeObjectMembers_other own other]
      cases doc with
      | object raw inner => exact absurd rfl (other raw inner)
      | _ => rfl

end

theorem chainInstant_eq (payload : Payload) :
    payload.chainInstant = payload.signedDate.or payload.receiptCreationDate := by
  unfold Payload.chainInstant
  cases payload.signedDate <;> rfl

theorem environment_of_members {serde : SerdeJson} {members : List (List UInt16 × Doc)}
    {map : Members} (reads : Doc.MembersReadBy serde members) (holds : Holds members map) :
    ReceiptVerifier.environment serde map =
      (((lastOf (units "environment") members).elim {} placeOf).environment.or
        (((lastOf (units "data") members).elim {} readPlace).environment.or
          ((lastOf (units "summary") members).elim {} readPlace).environment)).join := by
  rw [← environment_of_holds reads holds, ← nestedEnvironment_of_holds reads holds,
    ← nestedEnvironment_of_holds reads holds]
  unfold ReceiptVerifier.environment
  split
  · rfl
  · rw [Option.none_or]
    simp only [List.findSome?_cons, List.findSome?_nil]
    cases nestedEnvironment serde map "data" <;> cases nestedEnvironment serde map "summary" <;> rfl

/-- **The two ports read JWS payloads alike.** For every payload whose members Rust reads, the chain
instants are equal, and Rust's environment is the one Java has once it forgets a last `data` or
`summary` that holds a name with a lone surrogate; without such a name the environments are equal. A
payload with such a name among its own members Rust does not read. -/
theorem readPayload_eq_java (serde : SerdeJson) (raw : String)
    (members : List (List UInt16 × Doc)) (reads : (Doc.object raw members).ReadBy serde)
    (same : SameInstants serde jackson) :
    ∃ java, readPayload jackson (Doc.object raw members).tokens = some java ∧
      (¬ NamesDecode members →
        ReceiptVerifier.readPayload serde (utf8 raw) = .error .notAnObject) ∧
      (NamesDecode members →
        ∃ rust, ReceiptVerifier.readPayload serde (utf8 raw) = .ok rust ∧
          java.chainInstant = rust.signedDate ∧
          rust.environment = Payload.environment { java with
            data := (lastOf (units "data") members).elim {} readPlace
            summary := (lastOf (units "summary") members).elim {} readPlace } ∧
          ((∀ name ∈ ["data", "summary"], ∀ doc, lastOf (units name) members = some doc →
              doc.containerReads = true) → java.environment = rust.environment)) := by
  rw [Doc.ReadBy] at reads
  refine ⟨payloadOf jackson members, readPayload_tokens jackson raw members, ?_, ?_⟩
  · intro undecoded
    unfold ReceiptVerifier.readPayload
    rw [fromUtf8_utf8]
    dsimp only
    rw [wholeObjectMembers, reads.1.object, rawMembers_of_not_decode undecoded]
    rfl
  · intro decode
    obtain ⟨map, whole, holds⟩ := wholeObjectMembers_object reads.1 decode
    have instants : ∀ name, ReceiptVerifier.instant serde map name =
        (lastOf (units name) members).elim none fun doc => instant jackson (some doc.first) := by
      intro name
      rw [instant_eq_bind, holds]
      cases last : lastOf (units name) members with
      | none => rfl
      | some doc => exact (instant_first same (readBy_lastOf reads.2 last)).symm
    have environments := environment_of_members reads.2 holds
    refine ⟨{ json := raw
              signedDate := (ReceiptVerifier.instant serde map "signedDate").or
                (ReceiptVerifier.instant serde map "receiptCreationDate")
              environment := ReceiptVerifier.environment serde map }, ?_, ?_, ?_, ?_⟩
    · unfold ReceiptVerifier.readPayload
      rw [fromUtf8_utf8]
      dsimp only
      rw [whole]
    · rw [chainInstant_eq, instants, instants]
      rfl
    · rw [environment_eq]
      dsimp only
      rw [environments, Option.or_assoc]
      rfl
    · intro containers
      have kept : ∀ name ∈ ["data", "summary"],
          (lastOf (units name) members).elim {} readPlace =
            (lastOf (units name) members).elim {} containerPlace := by
        intro name mem
        cases last : lastOf (units name) members with
        | none => rfl
        | some doc => simp [readPlace, containers name mem doc last]
      rw [environment_eq, environments, kept "data" (by simp), kept "summary" (by simp),
        ← Option.or_assoc]
      rfl

end

/-! ## A name with a lone surrogate -/

namespace Sample

def sandboxRaw : String := "\"Sandbox\""

def containerRaw : String := "\x7b\"\\ud800\":1,\"environment\":\"Sandbox\"\x7d"

def plainRaw : String := "\x7b\"environment\":\"Sandbox\"\x7d"

/-- A container with the escape `\ud800`, which no low surrogate follows, for a name. -/
def container : Doc :=
  .object containerRaw
    [([0xd800], .number "1"), (units "environment", .string sandboxRaw (units "Sandbox"))]

/-- A container with the environment alone. -/
def plain : Doc := .object plainRaw [(units "environment", .string sandboxRaw (units "Sandbox"))]

/-- A payload with a container under `data` and a date. -/
def payloadMembers (data : Doc) : List (List UInt16 × Doc) :=
  [(units "data", data), (units "signedDate", .number "5")]

def payloadRaw (data : Doc) : String :=
  "\x7b\"data\":" ++ data.raw ++ ",\"signedDate\":5\x7d"

/-- `serde_json` on these texts. -/
def json : SerdeJson where
  wholeObject text :=
    if text = payloadRaw container then some [("data", containerRaw), ("signedDate", "5")]
    else if text = payloadRaw plain then some [("data", plainRaw), ("signedDate", "5")]
    else if text = plainRaw then some [("environment", sandboxRaw)]
    else none
  leadingObject _ := none
  value _ := .error "expected value"
  string text := if text = sandboxRaw then some "Sandbox" else none
  strings _ := none
  double _ := none

def jackson : Jackson := ⟨fun text => parseI64 text.toList, json.double⟩

theorem sameInstants : SameInstants json jackson := by
  intro text reads trimmed
  unfold rawInstant numberToken
  have start := reads.number
  dsimp only
  rw [trimmed] at start ⊢
  rw [start]
  split
  · simp_all [instant, jackson]
  · simp_all [instant, jackson]

/-- What `serde_json` makes of the texts. -/
theorem texts_read :
    ReadsAs json sandboxRaw none (decodes (units "Sandbox")) false ∧
    (ReadsAs json "1" none none true ∧ trim "1".toList = "1".toList) ∧
    (ReadsAs json "5" none none true ∧ trim "5".toList = "5".toList) ∧
    ReadsAs json containerRaw (rawMembers
      [([0xd800], .number "1"), (units "environment", .string sandboxRaw (units "Sandbox"))]) none
      false ∧
    ReadsAs json plainRaw
      (rawMembers [(units "environment", .string sandboxRaw (units "Sandbox"))]) none false ∧
    ReadsAs json (payloadRaw plain) (rawMembers (payloadMembers plain)) none false ∧
    ReadsAs json (payloadRaw container) (rawMembers (payloadMembers container)) none false := by
  refine ⟨⟨?_, ?_, ?_⟩, ⟨⟨?_, ?_, ?_⟩, ?_⟩, ⟨⟨?_, ?_, ?_⟩, ?_⟩, ⟨?_, ?_, ?_⟩, ⟨?_, ?_, ?_⟩,
    ⟨?_, ?_, ?_⟩, ⟨?_, ?_, ?_⟩⟩ <;> decide +kernel

theorem readBy_number {text : String} (h : ReadsAs json text none none true ∧
    trim text.toList = text.toList) : (Doc.number text).ReadBy json := by
  rw [Doc.ReadBy]
  exact h

theorem readBy_sandbox : (Doc.string sandboxRaw (units "Sandbox")).ReadBy json := by
  rw [Doc.ReadBy]
  exact texts_read.1

theorem readBy_container : container.ReadBy json := by
  obtain ⟨-, one, -, read, -⟩ := texts_read
  rw [container, Doc.ReadBy, Doc.MembersReadBy, Doc.MembersReadBy, Doc.MembersReadBy]
  exact ⟨read, readBy_number one, readBy_sandbox, trivial⟩

theorem readBy_plain : plain.ReadBy json := by
  obtain ⟨-, -, -, -, read, -⟩ := texts_read
  rw [plain, Doc.ReadBy, Doc.MembersReadBy, Doc.MembersReadBy]
  exact ⟨read, readBy_sandbox, trivial⟩

theorem readBy_payload {data : Doc} (reads : data.ReadBy json)
    (whole : ReadsAs json (payloadRaw data) (rawMembers (payloadMembers data)) none false) :
    (Doc.object (payloadRaw data) (payloadMembers data)).ReadBy json := by
  rw [Doc.ReadBy, payloadMembers, Doc.MembersReadBy, Doc.MembersReadBy, Doc.MembersReadBy]
  exact ⟨whole, reads, readBy_number texts_read.2.2.1, trivial⟩

end Sample

/-- Both ports read the plain payload's date and environment. -/
theorem readPayload_eq_java_plain :
    ∃ java rust, readPayload Sample.jackson (Doc.object (Sample.payloadRaw Sample.plain)
        (Sample.payloadMembers Sample.plain)).tokens = some java ∧
      ReceiptVerifier.readPayload Sample.json (utf8 (Sample.payloadRaw Sample.plain)) = .ok rust ∧
      java.chainInstant = rust.signedDate ∧ java.environment = rust.environment := by
  obtain ⟨java, read, -, both⟩ := readPayload_eq_java Sample.jackson Sample.json _ _
    (Sample.readBy_payload Sample.readBy_plain Sample.texts_read.2.2.2.2.2.1) Sample.sameInstants
  obtain ⟨rust, read', instants, -, environments⟩ := both (by decide +kernel)
  refine ⟨java, rust, read, read', instants, environments ?_⟩
  intro name mem doc last
  rcases List.mem_cons.mp mem with rfl | later
  · obtain rfl : Sample.plain = doc := Option.some.inj last
    decide +kernel
  · rw [List.mem_singleton.mp later] at last
    cases last

/-- A lone surrogate in a name inside `data`: Java reads on to the environment, Rust finds none. -/
theorem lone_surrogate_differs :
    (Doc.object (Sample.payloadRaw Sample.container)
      (Sample.payloadMembers Sample.container)).ReadBy Sample.json ∧
    SameInstants Sample.json Sample.jackson ∧
    (readPayload Sample.jackson (Doc.object (Sample.payloadRaw Sample.container)
      (Sample.payloadMembers Sample.container)).tokens).map Payload.environment =
        some (some .sandbox) ∧
    (ReceiptVerifier.readPayload Sample.json
      (utf8 (Sample.payloadRaw Sample.container))).toOption.map ReadPayload.environment =
        some none := by
  exact ⟨Sample.readBy_payload Sample.readBy_container Sample.texts_read.2.2.2.2.2.2,
    Sample.sameInstants, by decide +kernel, by decide +kernel⟩

end Java.JwsCore

end ReceiptVerifier
