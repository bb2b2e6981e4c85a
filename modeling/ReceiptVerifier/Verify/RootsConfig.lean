import ReceiptVerifier.Verify.Dates
import ReceiptVerifier.Verify.Roots
import ReceiptVerifier.Verify.Wire

/-!
# A root configuration survives the trip into the module

To the module no roots means the built-in ones, so the server must never hand on an empty list, and
an empty root would not decode. `Usable` is what every reader of roots establishes: at least one
root, and no empty one.
-/

namespace ReceiptVerifier

namespace Server

variable {crates : Crates}

/-- At least one root, and no empty one. -/
structure Usable (ders : List Bytes) : Prop where
  some : ders ≠ []
  each : ∀ der ∈ ders, der ≠ []

theorem Usable.append {ders ders' : List Bytes} (h : Usable ders) (h' : ∀ der ∈ ders', der ≠ []) :
    Usable (ders ++ ders') :=
  ⟨List.append_ne_nil_of_left_ne_nil h.some _, List.forall_mem_append.mpr ⟨h.each, h'⟩⟩

/-! ## PEM text holds a block -/

theorem utf8_of_fromUtf8 {bytes : Bytes} {text : String} (h : fromUtf8 bytes = some text) :
    utf8 text = bytes := by
  unfold fromUtf8 String.fromUTF8? at h
  split at h
  next valid =>
    cases h
    have same : (utf8 (String.fromUTF8 ⟨bytes.toArray⟩ valid)).toByteArray = ⟨bytes.toArray⟩ :=
      String.utf8Encode_toList
    have data := congrArg (fun array : ByteArray => array.data.toList) same
    simpa using data
  · cases h

/-- A byte of ASCII in a text is a character of it. -/
theorem mem_of_mem_utf8 {text : String} {c : Char} (small : c.toNat < 0x80)
    (h : ascii c ∈ utf8 text) : c ∈ text.toList := by
  obtain ⟨d, mem, own⟩ := List.mem_flatMap.mp h
  by_cases high : 0x80 ≤ d.toNat
  · have large := utf8EncodeChar_high high _ own
    rw [toNat_ascii small] at large
    omega
  · have small' : d.toNat < 0x80 := Nat.lt_of_not_le high
    rw [utf8EncodeChar_ascii small', List.mem_singleton, ascii_eq_iff small small'] at own
    exact own ▸ mem

theorem mem_dropWhile {c : Char} {line : List Char} (mem : c ∈ line)
    (text : isWhitespace c = false) : c ∈ line.dropWhile isWhitespace := by
  induction line with
  | nil => cases mem
  | cons d line ih =>
    rw [List.dropWhile_cons]
    split
    next blank =>
      rcases List.mem_cons.mp mem with rfl | rest
      · rw [text] at blank
        cases blank
      · exact ih rest
    · exact mem

theorem mem_trim {c : Char} {line : List Char} (mem : c ∈ line) (text : isWhitespace c = false) :
    c ∈ trim line := by
  have front := List.mem_reverse.mpr (mem_dropWhile mem text)
  exact List.mem_reverse.mpr (mem_dropWhile front text)

/-- A character that ends no line is in one. -/
theorem mem_linesFrom {c : Char} (feed : c ≠ '\n') (carriage : c ≠ '\r') :
    ∀ (text line : List Char), c ∈ text ∨ c ∈ line → ∃ l ∈ linesFrom text line, c ∈ l := by
  intro text line
  fun_induction linesFrom text line with
  | case1 => simp
  | case2 line some =>
    intro mem
    exact ⟨line.reverse, List.mem_singleton_self _, by simpa using mem⟩
  | case3 d text line ends ih =>
    intro mem
    have other : c ≠ d := fun same => feed (same.trans (beq_iff_eq.mp ends))
    rcases mem with mem | mem
    · obtain ⟨l, found, own⟩ := ih (.inl ((List.mem_cons.mp mem).resolve_left other))
      exact ⟨l, List.mem_cons_of_mem _ found, own⟩
    · refine ⟨_, List.mem_cons_self, ?_⟩
      split
      · exact List.mem_reverse.mpr ((List.mem_cons.mp mem).resolve_left carriage)
      · exact List.mem_reverse.mpr mem
  | case4 d text line inside ih =>
    rintro (mem | mem)
    · rcases List.mem_cons.mp mem with rfl | mem
      · exact ih (.inr List.mem_cons_self)
      · exact ih (.inl mem)
    · exact ih (.inr (List.mem_cons_of_mem _ mem))

/-- Outside the blocks only blank lines are passed over, so text that is not blank ends in a root or
in an error. -/
theorem readLines_ne_nil {entry : String → Except String (List Bytes)} :
    ∀ (ls : List (List Char)) (n : Nat) (block : Option String) (ders : List Bytes),
    block ≠ none ∨ (∃ line ∈ ls, line ≠ []) → readLines crates false entry ls n block = .ok ders →
    ders ≠ [] := by
  intro ls
  induction ls with
  | nil =>
    rintro n block ders (isOpen | ⟨line, mem, -⟩) h
    · cases block with
      | none => exact absurd rfl isOpen
      | some open' => cases h
    · cases mem
  | cons line rest ih =>
    intro n block ders given h
    cases block with
    | some open' =>
      rw [readLines] at h
      split at h
      · cases h
      split at h
      · exact ih _ _ ders (.inl (by simp)) h
      split at h
      · cases h
      split at h
      · split at h
        · cases h
        · obtain ⟨ders', -, rfl⟩ := map_eq_ok h
          simp
      · exact ih _ _ ders (.inl (by simp)) h
    | none =>
      rw [readLines] at h
      split at h
      · cases h
      split at h
      next blank =>
        have blank : line = [] := by simpa using blank
        refine ih _ _ ders (.inr ?_) h
        obtain ⟨l, mem, text⟩ := given.resolve_left (by simp)
        rcases List.mem_cons.mp mem with rfl | mem
        · exact absurd blank text
        · exact ⟨l, mem, text⟩
      split at h
      · exact ih _ _ ders (.inl (by simp)) h
      split at h
      · cases h
      · simp at h

/-! ## Roots of a text -/

theorem certificate_ne_nil {block : String} {der : Bytes} (h : certificate crates block = .ok der) :
    der ≠ [] := by
  unfold certificate at h
  split at h
  · cases h
  split at h
  · cases h
  split at h
  · cases h
  next filled =>
    cases h
    simpa using filled

theorem decode_ne_nil {text : String} {bytes : Bytes} (h : decode crates text = .ok bytes) :
    bytes ≠ [] := by
  unfold decode at h
  split at h
  · cases h
  split at h
  · cases h
  next filled =>
    cases h
    simpa using filled

/-- No root of an accepted text is empty, when its lines are read to none. -/
theorem readLines_each {lines : Bool} {entry : String → Except String (List Bytes)} {text : String}
    {ders : List Bytes}
    (entries : ∀ line part, entry line = .ok part → ∀ der ∈ part, der ≠ [])
    (h : readLines crates lines entry (trimmedLines text) 0 none = .ok ders) :
    ∀ der ∈ ders, der ≠ [] := by
  intro der mem
  obtain ⟨item, -, part, taken, inside⟩ := (readLines_items _ _ _ _ h).mem_iff.mp mem
  cases item with
  | block block =>
    obtain ⟨contents, parsed, same⟩ := map_eq_ok taken
    rw [← same, List.mem_singleton] at inside
    exact inside ▸ certificate_ne_nil parsed
  | line line =>
    rw [readItem] at taken
    split at taken
    · exact entries line part taken der inside
    · cases taken

/-- PEM is not blank: it holds a dash. -/
theorem exists_line_of_startsPem {bytes : Bytes} {text : String} (pem : startsPem bytes = true)
    (read : fromUtf8 bytes = some text) : ∃ line ∈ trimmedLines text, line ≠ [] := by
  obtain ⟨rest, same⟩ := List.isPrefixOf_iff_prefix.mp pem
  have dash : ascii '-' ∈ utf8 text := by
    rw [utf8_of_fromUtf8 read]
    refine (List.dropWhile_sublist isAsciiWhitespace).subset ?_
    rw [← same]
    exact List.mem_append_left _ (by decide)
  obtain ⟨line, mem, own⟩ := mem_linesFrom (by decide) (by decide) text.toList []
    (.inl (mem_of_mem_utf8 (by decide) dash))
  exact ⟨trim line, List.mem_map_of_mem mem, List.ne_nil_of_mem (mem_trim own (by decide))⟩

theorem usable_root {bytes : Bytes} {ders : List Bytes} (filled : bytes ≠ [])
    (h : root crates bytes = .ok ders) : Usable ders := by
  unfold root at h
  split at h
  · cases h
    exact ⟨by simp, by simpa using filled⟩
  next pem =>
    split at h
    · cases h
    next text read =>
      cases inner : readPem crates text with
      | error err =>
        rw [inner] at h
        cases h
      | ok ders' =>
        rw [inner] at h
        cases h
        have line := exists_line_of_startsPem (by simpa using pem) read
        refine ⟨readLines_ne_nil _ _ _ _ (.inr line) inner, readLines_each ?_ inner⟩
        rintro _ _ ⟨⟩
        simp

theorem usable_readLine {line : String} {ders : List Bytes} (h : readLine crates line = .ok ders) :
    Usable ders := by
  unfold readLine at h
  split at h
  · cases h
  next bytes decoded => exact usable_root (decode_ne_nil decoded) h

/-! ## Roots of a source -/

/-- The built-in roots, or usable ones. -/
def Roots.Sound : Roots → Prop
  | .defaults => True
  | .configured ders => Usable ders

theorem sound_fromFileText {text : String} {roots : Roots}
    (h : Roots.fromFileText crates text = .ok roots) : roots.Sound := by
  unfold Roots.fromFileText at h
  split at h
  · cases h
  next ders read =>
    split at h
    · cases h
    next filled =>
      cases h
      refine ⟨by simpa using filled, readLines_each ?_ read⟩
      exact fun _ _ taken => (usable_readLine taken).each

theorem sound_fromFile {bytes : Bytes} {roots : Roots}
    (h : Roots.fromFile crates bytes = .ok roots) :
    roots.Sound := by
  unfold Roots.fromFile at h
  split at h
  · cases h
  next first head =>
    split at h
    · cases h
      refine ⟨by simp, ?_⟩
      rw [List.forall_mem_singleton]
      rintro rfl
      cases head
    · split at h
      · cases h
      · exact sound_fromFileText h

theorem readFiles_each {files : List (String × Bytes)} :
    ∀ {ders : List Bytes}, Roots.readFiles crates files = .ok ders → ∀ der ∈ ders, der ≠ [] := by
  induction files with
  | nil =>
    rintro ders ⟨⟩
    simp
  | cons file files ih =>
    intro ders h
    rw [Roots.readFiles] at h
    split at h
    · cases h
    · exact ih h
    next own read =>
      obtain ⟨rest, all, rfl⟩ := map_eq_ok h
      have usable : Usable own := sound_fromFile read
      exact List.forall_mem_append.mpr ⟨usable.each, ih all⟩

theorem usable_readEntry {index : Nat} {entry : JsonValue} {ders : List Bytes}
    (h : Roots.readEntry crates index entry = .ok ders) : Usable ders := by
  obtain ⟨text, rfl, read⟩ := readEntry_eq_ok h
  exact usable_readLine read

theorem readEntries_each {entries : List JsonValue} :
    ∀ {index : Nat} {ders : List Bytes}, Roots.readEntries crates index entries = .ok ders →
      ∀ der ∈ ders, der ≠ [] := by
  induction entries with
  | nil =>
    rintro index ders ⟨⟩
    simp
  | cons entry entries ih =>
    intro index ders h
    rw [Roots.readEntries] at h
    split at h
    · cases h
    next own read =>
      obtain ⟨rest, all, rfl⟩ := map_eq_ok h
      exact List.forall_mem_append.mpr ⟨(usable_readEntry read).each, ih all⟩

theorem usable_readEntries {entries : List JsonValue} {index : Nat} {ders : List Bytes}
    (some : entries ≠ []) (h : Roots.readEntries crates index entries = .ok ders) :
    Usable ders := by
  cases entries with
  | nil => exact absurd rfl some
  | cons entry entries =>
    rw [Roots.readEntries] at h
    split at h
    · cases h
    next own read =>
      obtain ⟨rest, all, rfl⟩ := map_eq_ok h
      exact (usable_readEntry read).append (readEntries_each all)

/-- Whatever reads roots, they are the built-in ones or usable. -/
theorem sound_read {source : Source} {roots : Roots} (h : source.read crates = .ok roots) :
    roots.Sound := by
  cases source with
  | text given => exact sound_fromFileText h
  | files given =>
    rw [Source.read, Roots.fromFiles] at h
    split at h
    · cases h
    next ders read =>
      cases h
      split
      · trivial
      next filled => exact ⟨by simpa using filled, readFiles_each read⟩
  | configJson line =>
    rw [Source.read, Roots.fromConfigJson] at h
    split at h
    · cases h
    · split at h
      · cases h
      split at h
      · cases h
        trivial
      · cases h
      next entries some _ =>
        split at h
        · cases h
        next ders read =>
          cases h
          refine usable_readEntries ?_ read
          rintro rfl
          exact some rfl
      · cases h
    · cases h

/-! ## The trip -/

/-- The value `configJson` writes. -/
def configTree (crates : Crates) : Roots → JsonValue
  | .defaults => .object []
  | .configured ders => configValue crates ders

/-- What is relied on of the crates: `serde_json` reads the text of a configuration as the value it
was written from, with no name twice, and `base64` decodes what it encoded. -/
structure TripReads (crates : Crates) (roots : Roots) : Prop where
  value : crates.json.value (configTree crates roots).display = .ok (configTree crates roots)
  once : once crates.json (configTree crates roots).display "roots" = true
  decode : ∀ bytes, crates.base64.decodeReceipt (utf8 (crates.base64.encode bytes)) = some bytes
  empty : crates.base64.encode [] = ""

theorem TripReads.readsBack {ders : List Bytes} (h : TripReads crates (.configured ders)) :
    ReadsBack crates ders :=
  ⟨h.value, h.once, fun der _ => h.decode der⟩

theorem TripReads.encode_ne_nil {roots : Roots} (h : TripReads crates roots) {der : Bytes}
    (filled : der ≠ []) : (utf8 (crates.base64.encode der)).isEmpty = false := by
  rw [Bool.eq_false_iff]
  intro none
  have decoded := h.decode der
  have nothing := h.decode []
  rw [h.empty] at nothing
  rw [List.isEmpty_iff.mp none] at decoded
  exact filled (Option.some.inj (decoded.symm.trans nothing))

theorem readRoots_ok {roots : Roots} (h : TripReads crates roots) {ders : List Bytes}
    (each : ∀ der ∈ ders, der ≠ []) : ∀ {index : Nat}, readRoots crates.base64 index
      (ders.map fun der => .string (crates.base64.encode der)) = .ok ders := by
  induction ders with
  | nil =>
    intro index
    rfl
  | cons der ders ih =>
    obtain ⟨own, rest⟩ := List.forall_mem_cons.mp each
    intro index
    rw [List.map_cons, readRoots, readRoot, decodeReceiptBase64, h.encode_ne_nil own, h.decode der]
    simp [ih rest]

theorem readInitConfig_defaults (h : TripReads crates .defaults) :
    readInitConfig crates.base64 crates.json (Roots.configJson crates .defaults) = .ok [] := by
  have text : (configTree crates .defaults).display = "\x7b\x7d" := by
    rw [configTree, JsonValue.display]
    rfl
  have value := h.value
  have named := h.once
  rw [text] at value named
  exact readInitConfig_empty (by decide) value named

theorem readInitConfig_configured {ders : List Bytes} (h : TripReads crates (.configured ders))
    (usable : Usable ders) :
    readInitConfig crates.base64 crates.json (Roots.configJson crates (.configured ders)) =
      .ok ders := by
  rw [readInitConfig_configJson h.readsBack, if_neg (by simpa using usable.some),
    readRoots_ok h usable.each]

/-- **A root configuration survives the trip into the module.** Whatever reads it, it is the
built-in roots or at least one root and no empty one; and the module reads from its text exactly
these roots in their order, and no roots, which stands for the built-in ones, only for the built-in
ones. -/
theorem roots_survive (crates : Crates) {source : Source} {roots : Roots}
    (accepted : source.read crates = .ok roots) :
    (roots = .defaults ∨ ∃ ders, roots = .configured ders ∧ ders ≠ [] ∧ ∀ der ∈ ders, der ≠ []) ∧
    (TripReads crates roots →
      (∀ ders, roots = .configured ders → readInitConfig crates.base64 crates.json
        (Roots.configJson crates roots) = .ok ders) ∧
      (readInitConfig crates.base64 crates.json (Roots.configJson crates roots) = .ok [] ↔
        roots = .defaults)) := by
  have sound := sound_read accepted
  cases roots with
  | defaults =>
    refine ⟨.inl rfl, fun reads => ⟨?_, ?_⟩⟩
    · rintro ders ⟨⟩
    · exact iff_of_true (readInitConfig_defaults reads) rfl
  | configured ders =>
    have usable : Usable ders := sound
    refine ⟨.inr ⟨ders, rfl, usable.some, usable.each⟩, fun reads => ?_⟩
    have read := readInitConfig_configured reads usable
    constructor
    · rintro _ ⟨⟩
      exact read
    · rw [read]
      refine iff_of_false (fun none => usable.some (Except.ok.inj none)) ?_
      rintro ⟨⟩

namespace Sample

/-- The crates on one configuration, with the whole of base64. -/
def oneConfig : Crates := { library with base64 := ReceiptVerifier.Sample.standardBase64 }

end Sample

/-- A root on a line and one in a block: the module reads both, in their order. -/
theorem roots_survive_two :
    Source.read Sample.oneConfig (.text ("# two roots\n" ++ Sample.twoRoots)) =
      .ok (.configured [[0x30, 1], [0x30, 2]]) ∧
    (∀ der ∈ ([[0x30, 1], [0x30, 2]] : List Bytes), der ≠ []) ∧
    readInitConfig Sample.oneConfig.base64 Sample.oneConfig.json
      (Roots.configJson Sample.oneConfig (.configured [[0x30, 1], [0x30, 2]])) =
        .ok [[0x30, 1], [0x30, 2]] ∧
    readInitConfig Sample.oneConfig.base64 Sample.oneConfig.json
      (Roots.configJson Sample.oneConfig (.configured [[0x30, 1], [0x30, 2]])) ≠ .ok [] := by
  have accepted : Source.read Sample.oneConfig (.text ("# two roots\n" ++ Sample.twoRoots)) =
      .ok (.configured [[0x30, 1], [0x30, 2]]) := by decide +kernel
  have text : (configTree Sample.oneConfig (.configured [[0x30, 1], [0x30, 2]])).display =
      Sample.twoRootsConfig := by decide +kernel
  have tree : configTree Sample.oneConfig (.configured [[0x30, 1], [0x30, 2]]) =
      .object [("roots", .array [.string "MAE=", .string "MAI="])] := by
    have first : Sample.oneConfig.base64.encode [0x30, 1] = "MAE=" := by decide +kernel
    have second : Sample.oneConfig.base64.encode [0x30, 2] = "MAI=" := by decide +kernel
    rw [configTree, configValue, List.map_cons, List.map_singleton, first, second]
  have reads : TripReads Sample.oneConfig (.configured [[0x30, 1], [0x30, 2]]) := by
    refine ⟨?_, ?_, ReceiptVerifier.Sample.decodeText_encode, by decide +kernel⟩
    · rw [text, tree]
      rfl
    · rw [text]
      decide +kernel
  obtain ⟨usable, survives⟩ := roots_survive Sample.oneConfig accepted
  obtain ⟨read, defaults⟩ := survives reads
  refine ⟨accepted, ?_, read _ rfl, fun none => ?_⟩
  · obtain ⟨⟨⟩⟩ | ⟨ders, ⟨⟩, -, each⟩ := usable
    exact each
  · cases defaults.mp none

end Server

end ReceiptVerifier
