import ReceiptVerifier.Server.Roots
import ReceiptVerifier.Verify.Envelope

/-!
# What the server anchors and what it reports

The server reports the SHA-256 of the bytes it hands to `init`, and `init` anchors bytes as they are
only when they are DER. So the two agree when no root the server hands on is PEM, which is what the
server unwraps PEM for. The contents of a PEM block are handed on without another look
(`certificate`), so a block around PEM text gets through: `HidesPem` is the exact exception.
-/

namespace ReceiptVerifier

/-! ## What the module reads of its configuration -/

section

variable {base64 : Base64} {json : SerdeJson} {text : String}

/-- A text that opens with a brace is no blank one. -/
theorem not_blank (opens : text.toList.head? = some '\x7b') :
    (text.toList.all fun c => c == ' ' || c == '\t' || c == '\n' || c == '\r') = false := by
  obtain ⟨rest, own⟩ := List.head?_eq_some_iff.mp opens
  rw [own]
  rfl

/-- A configuration without roots. -/
theorem readInitConfig_empty (opens : text.toList.head? = some '\x7b')
    (value : json.value text = .ok (.object [])) (named : once json text "roots" = true) :
    readInitConfig base64 json (utf8 text) = .ok [] := by
  rw [readInitConfig, fromUtf8_utf8]
  dsimp only
  rw [not_blank opens, value]
  simp [named]

/-- A configuration with roots is read down to its entries. -/
theorem readInitConfig_roots (opens : text.toList.head? = some '\x7b') {entries : List JsonValue}
    (value : json.value text = .ok (.object [("roots", .array entries)]))
    (named : once json text "roots" = true) :
    readInitConfig base64 json (utf8 text) =
      if entries.isEmpty then .error "roots must not be empty"
      else readRoots base64 0 entries := by
  rw [readInitConfig, fromUtf8_utf8]
  dsimp only
  rw [not_blank opens, value]
  cases entries with
  | nil => simp [named]
  | cons entry entries => simp [named]

theorem readRoots_encode {encode : Bytes → String} {ders : List Bytes}
    (h : ∀ der ∈ ders, base64.decodeReceipt (utf8 (encode der)) = some der) :
    ∀ {index : Nat} {roots : List Bytes},
      readRoots base64 index (ders.map fun der => .string (encode der)) = .ok roots →
        roots = ders := by
  induction ders with
  | nil =>
    intro index roots read
    cases read
    rfl
  | cons der ders ih =>
    obtain ⟨own, rest⟩ := List.forall_mem_cons.mp h
    intro index roots read
    rw [List.map_cons, readRoots, readRoot, decodeReceiptBase64, own] at read
    split at read
    · cases read
    next bytes one =>
      split at one
      · cases one
      next bytes' decoded =>
        split at decoded
        · cases decoded
        cases decoded
        cases one
        split at read
        · cases read
        next others all =>
          cases read
          rw [ih rest all]

end

namespace Server

/-- PEM by the core's rule, `TrustAnchor::from_der_or_pem`. -/
def isPem (bytes : Bytes) : Bool := bytes.head? != some 0x30 && startsPem bytes

theorem isPem_eq (bytes : Bytes) : isPem bytes = startsPem bytes := by
  cases bytes with
  | nil => rfl
  | cons b bytes =>
    by_cases own : b = 0x30
    · subst own
      rfl
    · simp [isPem, own]

/-! ## Blocks and lines of a text -/

/-- What a text holds: a PEM block, as `pem::parse` is given it, or a line outside the blocks. -/
inductive Item where
  | block (text : String)
  | line (text : String)
deriving DecidableEq, Repr

/-- The items of some lines after an open block. -/
def items : List (List Char) → Option String → List Item
  | [], _ => []
  | line :: rest, some open' =>
    if line.isEmpty then items rest (some open')
    else if dashes.isPrefixOf line then
      .block (open' ++ String.ofList line ++ "\n") :: items rest none
    else items rest (some (open' ++ String.ofList line ++ "\n"))
  | line :: rest, none =>
    if line.isEmpty || line.head? == some '#' then items rest none
    else if beginLine.isPrefixOf line then items rest (some (String.ofList line ++ "\n"))
    else .line (String.ofList line) :: items rest none

def textItems (text : String) : List Item := items (trimmedLines text) none

variable (crates : Crates)

/-- What one item is read to. -/
def readItem (lines : Bool) (entry : String → Except String (List Bytes)) :
    Item → Except String (List Bytes)
  | .block text => (certificate crates text).map fun der => [der]
  | .line text => if lines then entry text else .error "text outside a PEM block"

variable {crates}

theorem map_eq_ok {α β : Type} {x : Except String α} {f : α → β} {b : β} (h : x.map f = .ok b) :
    ∃ a, x = .ok a ∧ f a = b := by
  cases x with
  | error err => cases h
  | ok a => exact ⟨a, rfl, Except.ok.inj h⟩

/-- The parts some items were read to. -/
def ReadTo (read : Item → Except String (List Bytes)) (found : List Item) (ders : List Bytes) :
    Prop :=
  ∃ parts : List (List Bytes), found.map read = parts.map .ok ∧ ders = parts.flatten

theorem ReadTo.cons {read : Item → Except String (List Bytes)} {item : Item} {found : List Item}
    {part ders : List Bytes} (own : read item = .ok part) (h : ReadTo read found ders) :
    ReadTo read (item :: found) (part ++ ders) := by
  obtain ⟨parts, same, rfl⟩ := h
  exact ⟨part :: parts, by rw [List.map_cons, List.map_cons, own, same], rfl⟩

theorem beginLine_head {line : List Char} (h : beginLine.isPrefixOf line = true) :
    line.head? = some '-' := by
  obtain ⟨rest, rfl⟩ := List.isPrefixOf_iff_prefix.mp h
  rfl

/-- An accepted text is read item by item. -/
theorem readLines_items {lines : Bool} {entry : String → Except String (List Bytes)} :
    ∀ (ls : List (List Char)) (n : Nat) (block : Option String) (ders : List Bytes),
    readLines crates lines entry ls n block = .ok ders →
    ReadTo (readItem crates lines entry) (items ls block) ders := by
  intro ls
  induction ls with
  | nil =>
    intro n block ders h
    cases block with
    | none =>
      cases h
      exact ⟨[], rfl, rfl⟩
    | some open' => cases h
  | cons line rest ih =>
    intro n block ders h
    cases block with
    | some open' =>
      rw [readLines] at h
      rw [items]
      split at h
      · cases h
      split at h
      next blank =>
        rw [if_pos blank]
        exact ih _ _ ders h
      next text =>
        rw [if_neg text]
        split at h
        · cases h
        split at h
        next ends =>
          rw [if_pos ends]
          split at h
          · cases h
          next der read =>
            obtain ⟨ders', rest', rfl⟩ := map_eq_ok h
            have own : readItem crates lines entry (.block (open' ++ String.ofList line ++ "\n")) =
                .ok [der] := by
              rw [readItem, read]
              rfl
            exact ReadTo.cons own (ih _ _ ders' rest')
        next inside =>
          rw [if_neg inside]
          exact ih _ _ ders h
    | none =>
      rw [readLines] at h
      rw [items]
      split at h
      · cases h
      split at h
      next skipped =>
        have comment : (line.isEmpty || line.head? == some '#') = true := by
          cases lines <;> simp_all
        rw [if_pos comment]
        exact ih _ _ ders h
      next kept =>
        split at h
        next begins =>
          have comment : ¬ (line.isEmpty || line.head? == some '#') = true := by
            rw [beginLine_head begins]
            simp_all
          rw [if_neg comment, if_pos begins]
          exact ih _ _ ders h
        next outside =>
          split at h
          · cases h
          split at h
          next set =>
            have comment : ¬ (line.isEmpty || line.head? == some '#') = true := by
              rwa [set, Bool.true_and] at kept
            rw [if_neg comment, if_neg outside]
            split at h
            · cases h
            next found read =>
              obtain ⟨ders', rest', rfl⟩ := map_eq_ok h
              have own : readItem crates lines entry (.line (String.ofList line)) = .ok found := by
                rw [readItem, if_pos set, read]
              exact ReadTo.cons own (ih _ _ ders' rest')
          · cases h

theorem ReadTo.mem_iff {read : Item → Except String (List Bytes)} {found : List Item}
    {ders : List Bytes} (h : ReadTo read found ders) {der : Bytes} :
    der ∈ ders ↔ ∃ item ∈ found, ∃ part, read item = .ok part ∧ der ∈ part := by
  obtain ⟨parts, same, rfl⟩ := h
  rw [List.mem_flatten]
  constructor
  · rintro ⟨part, mem, own⟩
    have : Except.ok part ∈ found.map read := same ▸ List.mem_map_of_mem mem
    obtain ⟨item, found, read⟩ := List.mem_map.mp this
    exact ⟨item, found, part, read, own⟩
  · rintro ⟨item, mem, part, own, inside⟩
    have : read item ∈ parts.map (.ok : List Bytes → Except String (List Bytes)) :=
      same ▸ List.mem_map_of_mem mem
    obtain ⟨part', mem', same'⟩ := List.mem_map.mp this
    rw [own] at same'
    cases same'
    exact ⟨part, mem', inside⟩

theorem ReadTo.read {read : Item → Except String (List Bytes)} {found : List Item}
    {ders : List Bytes} (h : ReadTo read found ders) {item : Item} (mem : item ∈ found) :
    ∃ part, read item = .ok part := by
  obtain ⟨parts, same, -⟩ := h
  have : read item ∈ parts.map (.ok : List Bytes → Except String (List Bytes)) :=
    same ▸ List.mem_map_of_mem mem
  obtain ⟨part, -, own⟩ := List.mem_map.mp this
  exact ⟨part, own.symm⟩

/-! ## Hidden PEM -/

variable (crates)

/-- A PEM block around PEM. -/
def BlockHides (block : String) : Prop :=
  ∃ tag contents, crates.pemParse block = .ok (tag, contents) ∧ isPem contents = true

/-- A text with a PEM block around PEM. -/
def TextHides (text : String) : Prop :=
  ∃ block, .block block ∈ textItems text ∧ BlockHides crates block

/-- The PEM text a base64 line carries, if it does. -/
def carriedPem (line : String) : List String :=
  match decode crates line with
  | .ok bytes => if startsPem bytes then (fromUtf8 bytes).toList else []
  | .error _ => []

/-- The texts of a `--roots` text PEM blocks are read from: itself, and those its lines carry. -/
def pemTexts (text : String) : List String :=
  text :: (textItems text).flatMap fun item =>
    match item with
    | .line line => carriedPem crates line
    | .block _ => []

variable {crates}

theorem certificate_hides {block : String} {der : Bytes} (h : certificate crates block = .ok der) :
    isPem der = true ↔ BlockHides crates block := by
  unfold certificate at h
  unfold BlockHides
  split at h
  · cases h
  next tag contents parsed =>
    split at h
    · cases h
    split at h
    · cases h
    cases h
    constructor
    · exact fun own => ⟨tag, _, parsed, own⟩
    · rintro ⟨_, _, other, own⟩
      cases parsed.symm.trans other
      exact own

/-- Of what an accepted text is read to, the PEM comes from its blocks and its lines. -/
theorem readLines_hides {lines : Bool} {entry : String → Except String (List Bytes)} {text : String}
    {ders : List Bytes}
    (h : readLines crates lines entry (trimmedLines text) 0 none = .ok ders) :
    (∃ der ∈ ders, isPem der = true) ↔ TextHides crates text ∨ lines = true ∧
      ∃ line, .line line ∈ textItems text ∧ ∃ part, entry line = .ok part ∧
        ∃ der ∈ part, isPem der = true := by
  have read := readLines_items _ _ _ _ h
  constructor
  · rintro ⟨der, mem, own⟩
    obtain ⟨item, found, part, taken, inside⟩ := read.mem_iff.mp mem
    cases item with
    | block block =>
      obtain ⟨contents, parsed, same⟩ := map_eq_ok taken
      subst same
      rw [List.mem_singleton] at inside
      subst inside
      exact .inl ⟨block, found, (certificate_hides parsed).mp own⟩
    | line line =>
      rw [readItem] at taken
      split at taken
      next set => exact .inr ⟨set, line, found, part, taken, der, inside, own⟩
      · cases taken
  · rintro (⟨block, found, hides⟩ | ⟨set, line, found, part, taken, der, inside, own⟩)
    · obtain ⟨part, taken⟩ := read.read found
      obtain ⟨contents, parsed, same⟩ := map_eq_ok taken
      refine ⟨contents, read.mem_iff.mpr ⟨_, found, part, taken, ?_⟩,
        (certificate_hides parsed).mpr hides⟩
      rw [← same]
      exact List.mem_singleton_self contents
    · refine ⟨der, read.mem_iff.mpr ⟨_, found, part, ?_, inside⟩, own⟩
      rw [readItem, if_pos set, taken]

theorem root_hides {bytes : Bytes} {ders : List Bytes} (h : root crates bytes = .ok ders) :
    (∃ der ∈ ders, isPem der = true) ↔
      startsPem bytes = true ∧ ∃ text, fromUtf8 bytes = some text ∧ TextHides crates text := by
  unfold root at h
  split at h
  next other =>
    cases h
    rw [Bool.not_eq_true'] at other
    simp [isPem_eq, other]
  next pem =>
    rw [Bool.not_eq_true', Bool.not_eq_false] at pem
    split at h
    · cases h
    next text utf8 =>
      have read : readPem crates text = .ok ders := by
        cases inner : readPem crates text with
        | error err =>
          rw [inner] at h
          cases h
        | ok ders' =>
          rw [inner] at h
          cases h
          rfl
      rw [readLines_hides read]
      simp [pem, utf8]

theorem readLine_hides {line : String} {ders : List Bytes} (h : readLine crates line = .ok ders) :
    (∃ der ∈ ders, isPem der = true) ↔ ∃ text ∈ carriedPem crates line, TextHides crates text := by
  unfold readLine at h
  unfold carriedPem
  split at h
  · cases h
  next bytes decoded =>
    rw [root_hides h, decoded]
    cases pem : startsPem bytes with
    | false => simp [pem]
    | true => simp [pem]

theorem readText_hides {text : String} {ders : List Bytes} (h : readText crates text = .ok ders) :
    (∃ der ∈ ders, isPem der = true) ↔ ∃ text' ∈ pemTexts crates text, TextHides crates text' := by
  have read := readLines_items _ _ _ _ h
  rw [readLines_hides h, pemTexts]
  simp only [List.mem_cons, List.mem_flatMap, exists_eq_or_imp, true_and]
  refine or_congr_right ⟨?_, ?_⟩
  · rintro ⟨line, found, part, taken, hidden⟩
    obtain ⟨text', mem, hides⟩ := (readLine_hides taken).mp hidden
    exact ⟨text', ⟨_, found, mem⟩, hides⟩
  · rintro ⟨text', ⟨item, found, mem⟩, hides⟩
    cases item with
    | block block => cases mem
    | line line =>
      obtain ⟨part, taken⟩ := read.read found
      rw [readItem, if_pos rfl] at taken
      exact ⟨line, found, part, taken, (readLine_hides taken).mpr ⟨text', mem, hides⟩⟩

/-! ## Sources -/

variable (crates)

/-- Where roots come from: `--roots` files, a roots text, or a managed roots line. -/
inductive Source where
  | files (given : List (String × Bytes))
  | text (given : String)
  | configJson (line : String)

def Source.read : Source → Except String Roots
  | .files given => Roots.fromFiles crates given
  | .text given => Roots.fromFileText crates given
  | .configJson line => Roots.fromConfigJson crates line

/-- The texts of a file PEM blocks are read from: none of a DER file. -/
def filePemTexts (bytes : Bytes) : List String :=
  if bytes.head? == some 0x30 then [] else (fromUtf8 bytes).toList.flatMap (pemTexts crates)

/-- The texts an entry of a roots line carries. -/
def entryPemTexts : JsonValue → List String
  | .string text => carriedPem crates text
  | _ => []

/-- The `roots` of a managed roots line. -/
def rootsOf (line : String) : List JsonValue :=
  match crates.json.value line with
  | .ok (.object members) =>
    match members.lookup "roots" with
    | some (.array entries) => entries
    | _ => []
  | _ => []

/-- Every text PEM blocks are read from. -/
def Source.pemTexts : Source → List String
  | .files given => given.flatMap fun file => filePemTexts crates file.2
  | .text given => Server.pemTexts crates given
  | .configJson line => (rootsOf crates line).flatMap (entryPemTexts crates)

/-- A PEM block around PEM, wherever blocks are read. -/
def Source.HidesPem (source : Source) : Prop :=
  ∃ text ∈ source.pemTexts crates, TextHides crates text

variable {crates}

theorem fromFileText_hides {text : String} {ders : List Bytes}
    (h : Roots.fromFileText crates text = .ok (.configured ders)) :
    (∃ der ∈ ders, isPem der = true) ↔ ∃ text' ∈ pemTexts crates text, TextHides crates text' := by
  unfold Roots.fromFileText at h
  split at h
  · cases h
  next ders' read =>
    split at h
    · cases h
    cases h
    exact readText_hides read

theorem fromFile_hides {bytes : Bytes} {ders : List Bytes}
    (h : Roots.fromFile crates bytes = .ok (.configured ders)) :
    (∃ der ∈ ders, isPem der = true) ↔
      ∃ text ∈ filePemTexts crates bytes, TextHides crates text := by
  unfold Roots.fromFile at h
  unfold filePemTexts
  split at h
  · cases h
  next first head =>
    split at h
    next der =>
      cases h
      have : isPem bytes = false := by simp [isPem, head, beq_iff_eq.mp der]
      simp [head, beq_iff_eq.mp der, this]
    next text =>
      rw [head, if_neg (by simpa using text)]
      split at h
      · cases h
      next text' utf8 =>
        rw [fromFileText_hides h, utf8]
        simp

theorem exists_mem_append {α : Type} {P : α → Prop} {l l' : List α} :
    (∃ a ∈ l ++ l', P a) ↔ (∃ a ∈ l, P a) ∨ ∃ a ∈ l', P a := by
  simp only [List.mem_append, or_and_right, exists_or]

theorem fromFile_ne_defaults {bytes : Bytes} : Roots.fromFile crates bytes ≠ .ok .defaults := by
  unfold Roots.fromFile Roots.fromFileText
  split
  · exact fun same => by cases same
  split
  · exact fun same => by cases same
  split
  · exact fun same => by cases same
  split
  · exact fun same => by cases same
  split <;> exact fun same => by cases same

/-- An entry that is read is a text, and what `readLine` reads of it. -/
theorem readEntry_eq_ok {index : Nat} {entry : JsonValue} {ders : List Bytes}
    (h : Roots.readEntry crates index entry = .ok ders) :
    ∃ text, entry = .string text ∧ readLine crates text = .ok ders := by
  unfold Roots.readEntry at h
  split at h
  next text =>
    cases read : readLine crates text with
    | error err =>
      rw [read] at h
      cases h
    | ok ders' =>
      rw [read] at h
      cases h
      exact ⟨text, rfl, read⟩
  · cases h

theorem readEntry_hides {index : Nat} {entry : JsonValue} {ders : List Bytes}
    (h : Roots.readEntry crates index entry = .ok ders) :
    (∃ der ∈ ders, isPem der = true) ↔
      ∃ text ∈ entryPemTexts crates entry, TextHides crates text := by
  obtain ⟨text, rfl, read⟩ := readEntry_eq_ok h
  exact readLine_hides read

theorem readFiles_hides {files : List (String × Bytes)} :
    ∀ {ders : List Bytes}, Roots.readFiles crates files = .ok ders →
    ((∃ der ∈ ders, isPem der = true) ↔
      ∃ text ∈ files.flatMap fun file => filePemTexts crates file.2, TextHides crates text) := by
  induction files with
  | nil =>
    intro ders h
    cases h
    simp
  | cons file files ih =>
    intro ders h
    obtain ⟨name, bytes⟩ := file
    rw [Roots.readFiles] at h
    cases one : Roots.fromFile crates bytes with
    | error err =>
      rw [one] at h
      cases h
    | ok roots =>
      rw [one] at h
      cases roots with
      | defaults => exact absurd one fromFile_ne_defaults
      | configured found =>
        obtain ⟨rest, read, rfl⟩ := map_eq_ok h
        rw [List.flatMap_cons, exists_mem_append, exists_mem_append, fromFile_hides one, ih read]

theorem readEntries_hides {entries : List JsonValue} :
    ∀ {index : Nat} {ders : List Bytes}, Roots.readEntries crates index entries = .ok ders →
    ((∃ der ∈ ders, isPem der = true) ↔
      ∃ text ∈ entries.flatMap (entryPemTexts crates), TextHides crates text) := by
  induction entries with
  | nil =>
    intro index ders h
    cases h
    simp
  | cons entry entries ih =>
    intro index ders h
    rw [Roots.readEntries] at h
    split at h
    · cases h
    next found one =>
      obtain ⟨rest, read, rfl⟩ := map_eq_ok h
      rw [List.flatMap_cons, exists_mem_append, exists_mem_append, ih read, readEntry_hides one]

/-- Of the roots a source is accepted as, one is PEM iff the source hides it. -/
theorem read_hides {source : Source} {ders : List Bytes}
    (h : source.read crates = .ok (.configured ders)) :
    (∃ der ∈ ders, isPem der = true) ↔ source.HidesPem crates := by
  unfold Source.HidesPem
  cases source with
  | text given => exact fromFileText_hides h
  | files given =>
    rw [Source.read, Roots.fromFiles] at h
    split at h
    · cases h
    next ders' read =>
      split at h
      · cases h
      cases h
      exact readFiles_hides read
  | configJson line =>
    rw [Source.read, Roots.fromConfigJson] at h
    rw [Source.pemTexts, rootsOf]
    split at h
    · cases h
    next members value =>
      simp only [value]
      split at h
      · cases h
      split at h
      · cases h
      · cases h
      next entries _ own =>
        simp only [own]
        split at h
        · cases h
        next ders' read =>
          cases h
          exact readEntries_hides read
      · cases h
    · cases h

/-! ## What `init` anchors -/

section

variable {ssl : Openssl.OpenSsl}

/-- Bytes that are not PEM are anchored as they are, or refused. -/
theorem fromDerOrPem_der {bytes : Bytes} {anchors : List TrustAnchor} (h : isPem bytes = false)
    (read : TrustAnchor.fromDerOrPem ssl bytes = .ok anchors) :
    anchors.map TrustAnchor.der = [bytes] := by
  unfold TrustAnchor.fromDerOrPem at read
  split at read
  · split at read
    next anchor one =>
      cases read
      unfold TrustAnchor.fromDer at one
      split at one
      · split at one
        · cases one
          rfl
        · cases one
      · cases one
    · cases read
  · rw [isPem_eq] at h
    rw [h, if_neg Bool.false_ne_true] at read
    cases read

theorem readAnchors_der {roots : List Bytes} (h : ∀ bytes ∈ roots, isPem bytes = false) :
    ∀ {index : Nat} {anchors : List TrustAnchor}, readAnchors ssl index roots = .ok anchors →
      anchors.map TrustAnchor.der = roots := by
  induction roots with
  | nil =>
    intro index anchors read
    cases read
    rfl
  | cons bytes roots ih =>
    obtain ⟨own, rest⟩ := List.forall_mem_cons.mp h
    intro index anchors read
    rw [readAnchors] at read
    split at read
    · cases read
    next first one =>
      split at read
      · cases read
      next others all =>
        cases read
        rw [List.map_append, fromDerOrPem_der own one, ih rest all]
        rfl

end

variable (crates)

/-- The configuration `init` is given, as a value. -/
def configValue (ders : List Bytes) : JsonValue :=
  .object [("roots", .array (ders.map fun der => .string (crates.base64.encode der)))]

/-- `serde_json` and `base64` read back the configuration they wrote. -/
structure ReadsBack (ders : List Bytes) : Prop where
  value : crates.json.value (configValue crates ders).display = .ok (configValue crates ders)
  once : once crates.json (configValue crates ders).display "roots" = true
  decode : ∀ der ∈ ders, crates.base64.decodeReceipt (utf8 (crates.base64.encode der)) = some der

variable {crates}

/-- The module reads the configuration it is given down to the entries. -/
theorem readInitConfig_configJson {ders : List Bytes} (h : ReadsBack crates ders) :
    readInitConfig crates.base64 crates.json (Roots.configJson crates (.configured ders)) =
      if ders.isEmpty then .error "roots must not be empty"
      else readRoots crates.base64 0 (ders.map fun der => .string (crates.base64.encode der)) := by
  have opens : (configValue crates ders).display.toList.head? = some '\x7b' := by
    simp [configValue, JsonValue.display]
  rw [← List.isEmpty_map]
  exact readInitConfig_roots opens h.value h.once

/-- What `init` reads of the configuration it is given: the roots, or nothing. -/
theorem eq_of_readInitConfig {ders roots : List Bytes} (h : ReadsBack crates ders)
    (read : readInitConfig crates.base64 crates.json
      (Roots.configJson crates (.configured ders)) = .ok roots) : roots = ders ∧ roots ≠ [] := by
  rw [readInitConfig_configJson h] at read
  split at read
  · cases read
  next some =>
    have same := readRoots_encode h.decode read
    exact ⟨same, by simpa [same] using some⟩

/-- What the server anchors is what it reports: no entry is PEM, and when `init` takes the entries,
its anchors are the entries and the fingerprints are the anchors'. -/
structure Anchored (ssl : Openssl.OpenSsl) (crates : Crates) (entries : List Bytes) : Prop where
  never_pem : ∀ entry ∈ entries, isPem entry = false
  anchors : ∀ appleRoots anchors, initModule ssl crates.base64 crates.json appleRoots
    (Roots.configJson crates (.configured entries)) = .ok anchors →
    anchors.map TrustAnchor.der = entries
  fingerprints : ∀ appleRoots anchors, initModule ssl crates.base64 crates.json appleRoots
    (Roots.configJson crates (.configured entries)) = .ok anchors →
    Roots.fingerprints crates (.configured entries) =
      anchors.map fun anchor => Roots.sha256Hex crates anchor.der

theorem initModule_der {ssl : Openssl.OpenSsl} {entries : List Bytes}
    {appleRoots : List TrustAnchor}
    {anchors : List TrustAnchor} (h : ∀ entry ∈ entries, isPem entry = false)
    (readsBack : ReadsBack crates entries)
    (init : initModule ssl crates.base64 crates.json appleRoots
      (Roots.configJson crates (.configured entries)) = .ok anchors) :
    anchors.map TrustAnchor.der = entries := by
  unfold initModule at init
  split at init
  · cases init
  next roots read =>
    obtain ⟨rfl, some⟩ := eq_of_readInitConfig readsBack read
    rw [newVerifier, if_neg (by simpa using some)] at init
    split at init
    · cases init
    next anchors' all =>
      split at init
      · cases init
      cases init
      exact readAnchors_der h all

/-- **What the server anchors is what it reports**, exactly when no PEM block it reads is around
PEM. -/
theorem anchored_iff (ssl : Openssl.OpenSsl) {source : Source} {entries : List Bytes}
    (accepted : source.read crates = .ok (.configured entries))
    (readsBack : ReadsBack crates entries) :
    Anchored ssl crates entries ↔ ¬ source.HidesPem crates := by
  rw [← read_hides accepted]
  constructor
  · rintro anchored ⟨entry, mem, pem⟩
    rw [anchored.never_pem entry mem] at pem
    cases pem
  · intro none_hidden
    have never : ∀ entry ∈ entries, isPem entry = false :=
      fun entry mem => Bool.eq_false_iff.mpr fun pem => none_hidden ⟨entry, mem, pem⟩
    refine ⟨never, fun _ _ init => initModule_der never readsBack init, ?_⟩
    intro appleRoots anchors init
    rw [← initModule_der never readsBack init, Roots.fingerprints, List.map_map]
    rfl

/-! ## A root that is anchored, and one that is hidden -/

namespace Sample

/-- A certificate in PEM, as a file of its own. -/
def innerPem : String := "-----BEGIN CERTIFICATE-----\nMAA=\n-----END CERTIFICATE-----\n"

/-- A PEM block around it. -/
def nestedPem : String :=
  "-----BEGIN CERTIFICATE-----\n" ++
  "LS0tLS1CRUdJTiBDRVJUSUZJQ0FURS0tLS0tCk1BQT0KLS0tLS1FTkQgQ0VSVElG\n" ++
  "SUNBVEUtLS0tLQo=\n" ++
  "-----END CERTIFICATE-----\n"

/-- A root on a base64 line, and one in a PEM block. -/
def rootBlock : String := "-----BEGIN CERTIFICATE-----\nMAI=\n-----END CERTIFICATE-----\n"

def twoRoots : String := "MAE=\n" ++ rootBlock

/-- The configuration of the two roots. -/
def twoRootsConfig : String := "\x7b\"roots\":[\"MAE=\",\"MAI=\"]\x7d"

/-- The two roots in base64. -/
def encode (bytes : Bytes) : String :=
  if bytes = [0x30, 1] then "MAE=" else if bytes = [0x30, 2] then "MAI=" else ""

def decode (text : Bytes) : Option Bytes :=
  if text = utf8 "MAE=" then some [0x30, 1]
  else if text = utf8 "MAI=" then some [0x30, 2]
  else none

/-- The crates on these texts and on the configuration of the two roots. -/
def library : Crates where
  base64 :=
    { decodeReceipt := decode
      decodeUrl := fun _ => none
      decodeStandard := fun text =>
        match decode text with
        | some bytes => .ok bytes
        | none => .error "Invalid input length"
      encode := encode }
  json :=
    { wholeObject := fun text =>
        if text = twoRootsConfig then some [("roots", "[\"MAE=\",\"MAI=\"]")] else none
      leadingObject := fun _ => none
      value := fun text =>
        if text = twoRootsConfig then
          .ok (.object [("roots", .array [.string "MAE=", .string "MAI="])])
        else .error "expected value"
      string := fun _ => none
      strings := fun _ => none
      double := fun _ => none }
  pemParse block :=
    if block = innerPem then .ok ("CERTIFICATE", [0x30, 0x00])
    else if block = rootBlock then .ok ("CERTIFICATE", [0x30, 2])
    else if block = nestedPem then .ok ("CERTIFICATE", utf8 innerPem)
    else .error "malformedframing"
  debug := id
  sha256 := id

/-- The two roots are certificates. -/
def openSsl : Openssl.OpenSsl :=
  { ReceiptVerifier.Sample.openSsl with
    d2iX509 := fun der => if der = [0x30, 1] ∨ der = [0x30, 2] then some (⟨der⟩, true) else none }

def anchors : List TrustAnchor := [⟨[0x30, 1], ⟨[0x30, 1]⟩⟩, ⟨[0x30, 2], ⟨[0x30, 2]⟩⟩]

end Sample

/-- `init` anchors both roots, and the fingerprints are theirs. -/
theorem anchored_iff_block :
    Source.read Sample.library (.text Sample.twoRoots) =
      .ok (.configured [[0x30, 1], [0x30, 2]]) ∧
    Anchored Sample.openSsl Sample.library [[0x30, 1], [0x30, 2]] ∧
    initModule Sample.openSsl Sample.library.base64 Sample.library.json []
      (Roots.configJson Sample.library (.configured [[0x30, 1], [0x30, 2]])) = .ok Sample.anchors ∧
    Roots.fingerprints Sample.library (.configured [[0x30, 1], [0x30, 2]]) =
      Sample.anchors.map fun anchor => Roots.sha256Hex Sample.library anchor.der := by
  have accepted : Source.read Sample.library (.text Sample.twoRoots) =
      .ok (.configured [[0x30, 1], [0x30, 2]]) := by decide +kernel
  have display : (configValue Sample.library [[0x30, 1], [0x30, 2]]).display =
      Sample.twoRootsConfig := by decide +kernel
  have readsBack : ReadsBack Sample.library [[0x30, 1], [0x30, 2]] := by
    refine ⟨?_, by decide +kernel, by decide +kernel⟩
    rw [display]
    rfl
  have init : initModule Sample.openSsl Sample.library.base64 Sample.library.json []
      (Roots.configJson Sample.library (.configured [[0x30, 1], [0x30, 2]])) =
      .ok Sample.anchors := by decide +kernel
  have texts : pemTexts Sample.library Sample.twoRoots = [Sample.twoRoots] := by decide +kernel
  have items : textItems Sample.twoRoots = [.line "MAE=", .block Sample.rootBlock] := by
    decide +kernel
  have anchored : Anchored Sample.openSsl Sample.library [[0x30, 1], [0x30, 2]] := by
    refine (anchored_iff _ accepted readsBack).mpr ?_
    rintro ⟨text, mem, hides⟩
    rw [Source.pemTexts, texts, List.mem_singleton] at mem
    subst mem
    obtain ⟨block, inside, tag, contents, parsed, pem⟩ := hides
    rw [items] at inside
    cases inside with
    | tail _ inside =>
      cases List.mem_singleton.mp inside
      have read : Sample.library.pemParse Sample.rootBlock = .ok ("CERTIFICATE", [0x30, 2]) := by
        decide +kernel
      obtain ⟨rfl, rfl⟩ := Prod.mk.inj (Except.ok.inj (read.symm.trans parsed))
      exact absurd pem (by decide)
  exact ⟨accepted, anchored, init, anchored.fingerprints _ _ init⟩

/-- The contents of a PEM block are not looked at again: PEM inside one is an entry. -/
theorem nested_pem_configured :
    Source.read Sample.library (.text Sample.nestedPem) =
      .ok (.configured [utf8 Sample.innerPem]) ∧ isPem (utf8 Sample.innerPem) = true := by
  decide +kernel

end Server

end ReceiptVerifier
