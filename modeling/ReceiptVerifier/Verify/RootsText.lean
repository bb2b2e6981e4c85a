import ReceiptVerifier.Lib.Base64
import ReceiptVerifier.Verify.RootsConfig

/-!
# A roots text reads back

The layouts a roots text may be written in: base64 lines and PEM blocks, spaces around every line,
both line ends, blank lines and comments. The reader is a fold over trimmed lines, so a layout is
first reduced to them (`map_trim_linesFrom`), and then read item by item.
-/

namespace ReceiptVerifier

namespace Server

/-! ## Trimmed lines -/

/-- No white space at either end. -/
def Solid (text : List Char) : Prop :=
  (∀ c ∈ text.head?, isWhitespace c = false) ∧ ∀ c ∈ text.getLast?, isWhitespace c = false

theorem Solid.of_forall {text : List Char} (each : ∀ c ∈ text, isWhitespace c = false) :
    Solid text :=
  ⟨fun c mem => each c (List.mem_of_mem_head? mem), fun c mem => each c (List.mem_of_getLast? mem)⟩

theorem Solid.of_ends {text : List Char} {a b : Char} (first : text.head? = some a)
    (last : text.getLast? = some b) (solid : isWhitespace a = false)
    (solid' : isWhitespace b = false) : Solid text := by
  constructor
  · intro c mem
    rw [first] at mem
    cases mem
    exact solid
  · intro c mem
    rw [last] at mem
    cases mem
    exact solid'

theorem dropWhile_append_of_forall {α : Type} {p : α → Bool} {front text : List α}
    (all : ∀ c ∈ front, p c = true) : (front ++ text).dropWhile p = text.dropWhile p := by
  rw [List.dropWhile_append, List.dropWhile_eq_nil_iff.mpr all]
  rfl

theorem dropWhile_solid {text after : List Char}
    (head : ∀ c ∈ text.head?, isWhitespace c = false) (some : text ≠ []) :
    (text ++ after).dropWhile isWhitespace = text ++ after := by
  cases text with
  | nil => exact absurd rfl some
  | cons c text =>
    rw [List.cons_append, List.dropWhile_cons_of_neg (by rw [head c rfl]; decide)]

theorem trim_spaces {before : List Char} (blank : ∀ c ∈ before, isWhitespace c = true) :
    trim before = [] := by
  rw [trim, List.dropWhile_eq_nil_iff.mpr blank]
  rfl

/-- Trimming takes the spaces off a line, and nothing else. -/
theorem trim_solid {before text after : List Char} (solid : Solid text)
    (blank : ∀ c ∈ before, isWhitespace c = true) (blank' : ∀ c ∈ after, isWhitespace c = true) :
    trim (before ++ (text ++ after)) = text := by
  cases text with
  | nil => exact trim_spaces (List.forall_mem_append.mpr ⟨blank, blank'⟩)
  | cons c text =>
    have last : ∀ d ∈ (c :: text).reverse.head?, isWhitespace d = false := by
      rw [List.head?_reverse]
      exact solid.2
    have back := @dropWhile_solid _ [] last (by simp)
    rw [List.append_nil] at back
    rw [trim, dropWhile_append_of_forall blank, dropWhile_solid solid.1 (List.cons_ne_nil _ _),
      List.reverse_append, dropWhile_append_of_forall (by simpa using blank'), back,
      List.reverse_reverse]

/-- Spaces at the end of a line do not count. -/
theorem trim_append_space {line : List Char} {c : Char} (blank : isWhitespace c = true) :
    trim (line ++ [c]) = trim line := by
  rw [trim, trim]
  by_cases all : line.dropWhile isWhitespace = []
  · rw [List.dropWhile_append, all]
    simp [blank]
  · rw [List.dropWhile_append, if_neg (by simpa using all), List.reverse_append]
    rw [List.reverse_singleton, List.singleton_append, List.dropWhile_cons_of_pos blank]

/-- What begins with no space still begins so. -/
theorem trim_head {before rest : List Char} {c : Char} (solid : isWhitespace c = false)
    (blank : ∀ c ∈ before, isWhitespace c = true) :
    ∃ rest', trim (before ++ c :: rest) = c :: rest' := by
  refine ⟨(rest.reverse.dropWhile isWhitespace).reverse, ?_⟩
  rw [trim, dropWhile_append_of_forall blank, List.dropWhile_cons_of_neg (by rw [solid]; decide),
    List.reverse_cons, List.dropWhile_append]
  split
  next none =>
    rw [List.isEmpty_iff.mp none, List.dropWhile_cons_of_neg (by rw [solid]; decide)]
    rfl
  · rw [List.reverse_append]
    rfl

/-- A line up to its end, and the lines after it. -/
theorem linesFrom_line {raw : List Char} (open' : '\n' ∉ raw) (acc rest : List Char) :
    linesFrom (raw ++ '\n' :: rest) acc =
      (match raw.reverse ++ acc with
        | '\r' :: line => line.reverse
        | line => line.reverse) :: linesFrom rest [] := by
  induction raw generalizing acc with
  | nil =>
    rw [List.nil_append, linesFrom.eq_def]
    rfl
  | cons c raw ih =>
    have other : ¬ (c == '\n') = true := fun feed => open' (by simp [beq_iff_eq.mp feed])
    rw [List.cons_append, linesFrom.eq_def]
    dsimp only
    rw [if_neg other, ih (List.not_mem_of_not_mem_cons open')]
    simp

/-- The carriage return of a line end is white space anyway. -/
theorem trim_strip (line : List Char) :
    trim (match line with
      | '\r' :: line => line.reverse
      | line => line.reverse) = trim line.reverse := by
  split
  next line => rw [List.reverse_cons, trim_append_space (by decide)]
  · rfl

theorem map_trim_linesFrom {raw : List Char} (open' : '\n' ∉ raw) (rest : List Char) :
    (linesFrom (raw ++ '\n' :: rest) []).map trim = trim raw :: (linesFrom rest []).map trim := by
  rw [linesFrom_line open', List.append_nil, List.map_cons, trim_strip, List.reverse_reverse]

/-! ## Layouts -/

/-- White space that ends no line. -/
def lineSpace (c : Char) : Bool := isWhitespace c && c != '\n'

/-- The ASCII white space that ends no line, as the core's rule for PEM skips it. -/
def asciiSpace (c : Char) : Bool := c == ' ' || c == '\t' || c == '\x0c' || c == '\r'

def beginCertificate : List Char := "-----BEGIN CERTIFICATE-----".toList

def endCertificate : List Char := "-----END CERTIFICATE-----".toList

/-- One line, with its end: the text between spaces. -/
inductive LineOf (space : Char → Bool) (text : List Char) : List Char → Prop
  | mk {before after ending : List Char} (spaces : ∀ c ∈ before, space c = true)
    (spaces' : ∀ c ∈ after, space c = true) (ends : ending = ['\n'] ∨ ending = ['\r', '\n']) :
    LineOf space text (before ++ (text ++ (after ++ ending)))

/-- The lines inside a block: pieces of base64, and blank lines between them. -/
inductive Body (space : Char → Bool) : List (List Char) → List Char → Prop
  | nil : Body space [] []
  | blank {line text : List Char} {pieces : List (List Char)} (empty : LineOf space [] line)
    (body : Body space pieces text) : Body space pieces (line ++ text)
  | piece {piece line text : List Char} {pieces : List (List Char)} (some : piece ≠ [])
    (own : LineOf space piece line) (body : Body space pieces text) :
    Body space (piece :: pieces) (line ++ text)

/-- The roots of a text, one after another: PEM blocks whose base64 is split anywhere, blank lines,
and, when `lines` is set, comments and lines that carry roots. -/
inductive Layout (space : Char → Bool) (lines : Bool) (Carries : List Bytes → List Char → Prop) :
    List Bytes → List Char → Prop
  | nil : Layout space lines Carries [] []
  | blank {line text : List Char} {ders : List Bytes} (empty : LineOf space [] line)
    (rest : Layout space lines Carries ders text) : Layout space lines Carries ders (line ++ text)
  | comment {note line text : List Char} {ders : List Bytes} (on : lines = true)
    (one : '\n' ∉ note) (own : LineOf space ('#' :: note) line)
    (rest : Layout space lines Carries ders text) : Layout space lines Carries ders (line ++ text)
  | line {found ders : List Bytes} {content line text : List Char} (on : lines = true)
    (carries : Carries found content) (own : LineOf space content line)
    (rest : Layout space lines Carries ders text) :
    Layout space lines Carries (found ++ ders) (line ++ text)
  | block {der : Bytes} {ders : List Bytes} {pieces : List (List Char)}
    {opens body closes text : List Char} (filled : der ≠ [])
    (begins : LineOf space beginCertificate opens) (inside : Body space pieces body)
    (split : pieces.flatten = Rfc4648.encode der) (ends : LineOf space endCertificate closes)
    (rest : Layout space lines Carries ders text) :
    Layout space lines Carries (der :: ders) (opens ++ (body ++ (closes ++ text)))

/-- A text whose last line may lack its end. -/
def TextOf (written : List Char → Prop) (text : String) : Prop :=
  written text.toList ∨ written (text.toList ++ ['\n']) ∨ written (text.toList ++ ['\r', '\n'])

/-- PEM blocks and blank lines, with ASCII spaces. -/
def PemText (ders : List Bytes) (text : String) : Prop :=
  TextOf (Layout asciiSpace false (fun _ _ => False) ders) text

/-- What one base64 text stands for: a root that is not PEM, or the roots of a PEM text. -/
inductive Carried : List Bytes → List Char → Prop
  | root {der : Bytes} (filled : der ≠ []) (plain : isPem der = false) :
    Carried [der] (Rfc4648.encode der)
  | pem {ders : List Bytes} {text : String} (some : ders ≠ []) (written : PemText ders text) :
    Carried ders (Rfc4648.encode (utf8 text))

/-- A roots file's text. -/
def RootsText (ders : List Bytes) (text : String) : Prop :=
  TextOf (Layout lineSpace true Carried ders) text

/-- What `pem::parse` is given for a block. -/
def certificateBlock (pieces : List (List Char)) : String :=
  .ofList (beginCertificate ++ '\n' :: (pieces.flatMap (· ++ ['\n']) ++ (endCertificate ++ ['\n'])))

/-- What is relied on of the crates: `base64` decodes the standard encoding, and `pem` a block of
base64 lines between a BEGIN and an END line. -/
structure CratesRead (crates : Crates) : Prop where
  base64 : ∀ bytes, crates.base64.decodeStandard (utf8 (.ofList (Rfc4648.encode bytes))) = .ok bytes
  pem : ∀ (bytes : Bytes) (pieces : List (List Char)), bytes ≠ [] → (∀ piece ∈ pieces, piece ≠ []) →
    pieces.flatten = Rfc4648.encode bytes →
    crates.pemParse (certificateBlock pieces) = .ok ("CERTIFICATE", bytes)

/-! ## Base64 text -/

/-- A character of base64, as far as the reader of lines is concerned. -/
structure IsCode (c : Char) : Prop where
  solid : isWhitespace c = false
  dash : c ≠ '-'
  hash : c ≠ '#'

theorem isCode_encode (bytes : Bytes) : ∀ c ∈ Rfc4648.encode bytes, IsCode c := by
  have symbols : ∀ n < 64, isWhitespace (Rfc4648.symbol n) = false ∧ Rfc4648.symbol n ≠ '-' ∧
      Rfc4648.symbol n ≠ '#' := by decide +kernel
  exact Rfc4648.forall_mem_encode (fun n small => ⟨(symbols n small).1, (symbols n small).2.1,
    (symbols n small).2.2⟩) ⟨by decide, by decide, by decide⟩ bytes

/-- A line of base64 is neither a delimiter nor a comment nor blank. -/
theorem not_dashes_of_code {text : List Char} (code : ∀ c ∈ text, IsCode c) :
    dashes.isPrefixOf text = false := by
  cases text with
  | nil => rfl
  | cons c text =>
    have other : ('-' == c) = false := beq_false_of_ne (code c List.mem_cons_self).dash.symm
    rw [dashes, List.isPrefixOf_cons_cons, other, Bool.false_and]

theorem not_newline_of_code {text : List Char} (code : ∀ c ∈ text, IsCode c) : '\n' ∉ text := by
  intro mem
  have solid := (code _ mem).solid
  exact absurd solid (by decide)

theorem solid_of_code {text : List Char} (code : ∀ c ∈ text, IsCode c) : Solid text :=
  .of_forall fun c mem => (code c mem).solid

/-! ## Reading lines -/

variable {crates : Crates} {space : Char → Bool} {lines : Bool}
  {Carries : List Bytes → List Char → Prop} {entry : String → Except String (List Bytes)}

/-- The characters a layout puts around lines. -/
def Spaces (space : Char → Bool) : Prop := ∀ c, space c = true → isWhitespace c = true ∧ c ≠ '\n'

theorem spaces_lineSpace : Spaces lineSpace := by
  intro c own
  simpa [lineSpace] using own

theorem spaces_asciiSpace : Spaces asciiSpace := by
  intro c own
  simp only [asciiSpace, Bool.or_eq_true, beq_iff_eq] at own
  rcases own with ((rfl | rfl) | rfl) | rfl <;> decide

/-- A written line is read as what trimming leaves of it. -/
theorem LineOf.read {text line : List Char} (spaces : Spaces space) (own : LineOf space text line)
    (one : '\n' ∉ text) : ∃ before after : List Char, (∀ c ∈ before, isWhitespace c = true) ∧
      (∀ c ∈ after, isWhitespace c = true) ∧ ∀ rest,
        (linesFrom (line ++ rest) []).map trim =
          trim (before ++ (text ++ after)) :: (linesFrom rest []).map trim := by
  obtain @⟨before, after, ending, blank, blank', ends⟩ := own
  have blanks : ∀ c ∈ before, isWhitespace c = true := fun c mem => (spaces c (blank c mem)).1
  have outside : ∀ c ∈ before ++ (text ++ after), c ≠ '\n' := by
    simp only [List.forall_mem_append]
    exact ⟨fun c mem => (spaces c (blank c mem)).2, fun c mem same => one (same ▸ mem),
      fun c mem => (spaces c (blank' c mem)).2⟩
  rcases ends with rfl | rfl
  · refine ⟨before, after, blanks, fun c mem => (spaces c (blank' c mem)).1, fun rest => ?_⟩
    have read := map_trim_linesFrom (fun mem => outside _ mem rfl) rest
    rw [← read]
    simp
  · refine ⟨before, after ++ ['\r'], blanks, ?_, fun rest => ?_⟩
    · exact List.forall_mem_append.mpr
        ⟨fun c mem => (spaces c (blank' c mem)).1, by simp; decide⟩
    · have inside : '\n' ∉ before ++ (text ++ (after ++ ['\r'])) := by
        intro mem
        rw [← List.append_assoc text, ← List.append_assoc, List.mem_append] at mem
        rcases mem with mem | mem
        · exact outside _ mem rfl
        · exact absurd (List.mem_singleton.mp mem) (by decide)
      rw [← map_trim_linesFrom inside rest]
      simp

theorem LineOf.solid {text line : List Char} (spaces : Spaces space) (own : LineOf space text line)
    (one : '\n' ∉ text) (solid : Solid text) (rest : List Char) :
    (linesFrom (line ++ rest) []).map trim = text :: (linesFrom rest []).map trim := by
  obtain ⟨before, after, blank, blank', read⟩ := own.read spaces one
  rw [read, trim_solid solid blank blank']

/-- A blank line is passed over, in a block and outside. -/
theorem readLines_blank (rest : List (List Char)) (n : Nat) (block : Option String) :
    readLines crates lines entry ([] :: rest) n block =
      readLines crates lines entry rest (n + 1) block := by
  cases block <;> rfl

theorem readLines_append_blank (ls : List (List Char)) (n : Nat) (block : Option String) :
    readLines crates lines entry (ls ++ [[]]) n block =
      readLines crates lines entry ls n block := by
  induction ls generalizing n block with
  | nil => cases block <;> rfl
  | cons line ls ih => simp only [List.cons_append, readLines, ih]

/-- White space at the end of a text ends a line or is trimmed off one. -/
theorem map_trim_linesFrom_space {c : Char} (blank : isWhitespace c = true) (text acc : List Char) :
    (linesFrom (text ++ [c]) acc).map trim = (linesFrom text acc).map trim ∨
      (linesFrom (text ++ [c]) acc).map trim = (linesFrom text acc).map trim ++ [[]] := by
  induction text generalizing acc with
  | nil =>
    -- the last line, with its end or with one more space
    have last : (linesFrom [c] acc).map trim = [trim acc.reverse] := by
      rw [linesFrom.eq_def]
      dsimp only
      split
      · exact congrArg (fun line => [line]) (trim_strip acc)
      · rw [linesFrom, List.map_cons, List.reverse_cons, trim_append_space blank]
        · rfl
        · exact List.cons_ne_nil _ _
    rw [List.nil_append, last]
    cases acc with
    | nil => exact .inr rfl
    | cons d acc => exact .inl rfl
  | cons d text ih =>
    rw [List.cons_append, linesFrom.eq_def, linesFrom.eq_def (d :: text)]
    dsimp only
    split
    · rw [List.map_cons, List.map_cons]
      rcases ih [] with same | more
      · exact .inl (by rw [same])
      · exact .inr (by rw [more]; rfl)
    · exact ih (d :: acc)

theorem readLines_space {c : Char} (blank : isWhitespace c = true) (text : List Char) (n : Nat)
    (block : Option String) :
    readLines crates lines entry ((linesFrom (text ++ [c]) []).map trim) n block =
      readLines crates lines entry ((linesFrom text []).map trim) n block := by
  rcases map_trim_linesFrom_space blank text [] with same | more
  · rw [same]
  · rw [more, readLines_append_blank]

/-- The end of the last line does not count. -/
theorem TextOf.read {written : List Char → Prop} {text : String} {ders : List Bytes}
    (h : TextOf written text) (reads : ∀ full, written full →
      readLines crates lines entry ((linesFrom full []).map trim) 0 none = .ok ders) :
    readLines crates lines entry (trimmedLines text) 0 none = .ok ders := by
  rcases h with full | full | full
  · exact reads _ full
  · rw [trimmedLines, ← readLines_space (c := '\n') (by decide)]
    exact reads _ full
  · rw [trimmedLines, ← readLines_space (c := '\r') (by decide),
      ← readLines_space (c := '\n') (by decide), List.append_assoc]
    exact reads _ full

/-! ## Reading layouts -/

theorem readLines_piece {piece : List Char} (some' : piece ≠ []) (code : ∀ c ∈ piece, IsCode c)
    (rest : List (List Char)) (n : Nat) (open' : String) :
    readLines crates lines entry (piece :: rest) n (some open') =
      readLines crates lines entry rest (n + 1) (some (open' ++ String.ofList piece ++ "\n")) := by
  have solid : piece.any isWhitespace = false :=
    List.any_eq_false.mpr fun c mem white => by
      rw [(code c mem).solid] at white
      cases white
  simp [readLines, not_dashes_of_code code, solid, some']

theorem readLines_comment (note : List Char) (rest : List (List Char)) (n : Nat) :
    readLines crates true entry (('#' :: note) :: rest) n none =
      readLines crates true entry rest (n + 1) none := by
  have plain : dashes.isPrefixOf ('#' :: note) = false := rfl
  simp [readLines, plain]

theorem readLines_entry {content : List Char} {found : List Bytes} (some' : content ≠ [])
    (code : ∀ c ∈ content, IsCode c) (taken : entry (.ofList content) = .ok found)
    (rest : List (List Char)) (n : Nat) :
    readLines crates true entry (content :: rest) n none =
      (readLines crates true entry rest (n + 1) none).map fun ders => found ++ ders := by
  have plain := not_dashes_of_code code
  have begins : beginLine.isPrefixOf content = false := by
    rw [Bool.eq_false_iff]
    intro begins
    have head := beginLine_head begins
    exact (code '-' (List.mem_of_mem_head? head)).dash rfl
  have note : ¬ content.head? = some '#' := fun head =>
    (code '#' (List.mem_of_mem_head? head)).hash rfl
  simp [readLines, plain, some', note, begins, taken]

theorem readLines_begin (rest : List (List Char)) (n : Nat) :
    readLines crates lines entry (beginCertificate :: rest) n none =
      readLines crates lines entry rest (n + 1)
        (some (String.ofList beginCertificate ++ "\n")) := by
  have delimiter : (dashes.isPrefixOf beginCertificate && !isDelimiter beginCertificate) =
    false := by
    decide
  have begins : beginLine.isPrefixOf beginCertificate = true := by decide
  have filled : (beginCertificate.isEmpty || lines && beginCertificate.head? == some '#') =
    false := by
    cases lines <;> decide
  simp only [readLines, delimiter, filled, begins, Bool.false_eq_true, if_false, if_true]

theorem readLines_end {open' : String} {der : Bytes}
    (read : certificate crates (open' ++ String.ofList endCertificate ++ "\n") = .ok der)
    (rest : List (List Char)) (n : Nat) :
    readLines crates lines entry (endCertificate :: rest) n (some open') =
      (readLines crates lines entry rest (n + 1) none).map fun ders => der :: ders := by
  have delimiter : isDelimiter endCertificate = true := by decide
  have dashed : dashes.isPrefixOf endCertificate = true := by decide
  have filled : endCertificate.isEmpty = false := by decide
  simp only [readLines, delimiter, filled, dashed, read, Bool.not_true, Bool.and_false,
    Bool.false_and, Bool.false_eq_true, if_false, if_true]

/-- The pieces of an open block are collected, one a line. -/
theorem readLines_body (spaces : Spaces space) {pieces : List (List Char)} {body : List Char}
    (inside : Body space pieces body) (code : ∀ c ∈ pieces.flatten, IsCode c) (rest : List Char) :
    ∀ (n : Nat) (open' : List Char), ∃ n',
      readLines crates lines entry ((linesFrom (body ++ rest) []).map trim) n
          (some (.ofList open')) =
        readLines crates lines entry ((linesFrom rest []).map trim) n'
          (some (.ofList (open' ++ pieces.flatMap (· ++ ['\n'])))) := by
  induction inside with
  | nil => exact fun n open' => ⟨n, by simp⟩
  | blank empty _ ih =>
    intro n open'
    obtain ⟨n', read⟩ := ih code (n + 1) open'
    refine ⟨n', ?_⟩
    rw [List.append_assoc, empty.solid spaces (by simp) (.of_forall (by simp)), readLines_blank,
      read]
  | @piece piece line text pieces some own _ ih =>
    intro n open'
    rw [List.flatten_cons, List.forall_mem_append] at code
    obtain ⟨n', read⟩ := ih code.2 (n + 1) (open' ++ (piece ++ ['\n']))
    refine ⟨n', ?_⟩
    rw [List.append_assoc, own.solid spaces (not_newline_of_code code.1) (solid_of_code code.1),
      readLines_piece some code.1, List.flatMap_cons, ← List.append_assoc, ← read]
    simp only [String.ofList_append, String.append_assoc]

theorem pieces_some {pieces : List (List Char)} {body : List Char}
    (inside : Body space pieces body) : ∀ piece ∈ pieces, piece ≠ [] := by
  induction inside with
  | nil => simp
  | blank _ _ ih => exact ih
  | piece some _ _ ih => exact List.forall_mem_cons.mpr ⟨some, ih⟩

/-- **A layout is read to its roots.** -/
theorem readLines_layout (spaces : Spaces space) (reads : CratesRead crates)
    (carried : ∀ found content, Carries found content →
      content ≠ [] ∧ (∀ c ∈ content, IsCode c) ∧ entry (.ofList content) = .ok found)
    {ders : List Bytes} {text : List Char} (layout : Layout space lines Carries ders text) :
    ∀ n, readLines crates lines entry ((linesFrom text []).map trim) n none = .ok ders := by
  induction layout with
  | nil => exact fun _ => rfl
  | blank empty _ ih =>
    intro n
    rw [empty.solid spaces (by simp) (.of_forall (by simp)), readLines_blank, ih]
  | comment on one own _ ih =>
    intro n
    subst on
    obtain ⟨before, after, blank, blank', read⟩ := own.read spaces (by simpa using one)
    obtain ⟨rest, trimmed⟩ := @trim_head before _ '#' (by decide) blank
    rw [read, List.cons_append, trimmed, readLines_comment, ih]
  | line on carries own _ ih =>
    intro n
    subst on
    obtain ⟨some, code, taken⟩ := carried _ _ carries
    rw [own.solid spaces (not_newline_of_code code) (solid_of_code code),
      readLines_entry some code taken, ih]
    rfl
  | @block der ders pieces opens body closes text filled begins inside split ends _ ih =>
    intro n
    have code : ∀ c ∈ pieces.flatten, IsCode c := split ▸ isCode_encode der
    obtain ⟨n', collected⟩ :=
      @readLines_body crates space lines entry spaces pieces body inside code
      (closes ++ text) (n + 1) (beginCertificate ++ ['\n'])
    have opened : String.ofList beginCertificate ++ "\n" =
        String.ofList (beginCertificate ++ ['\n']) := by
      rw [String.ofList_append]
    have whole : String.ofList (beginCertificate ++ ['\n'] ++ pieces.flatMap (· ++ ['\n'])) ++
        String.ofList endCertificate ++ "\n" = certificateBlock pieces := by
      rw [certificateBlock, show "\n" = String.ofList ['\n'] from rfl, ← String.ofList_append,
        ← String.ofList_append]
      simp
    have read : certificate crates (String.ofList (beginCertificate ++ ['\n'] ++
        pieces.flatMap (· ++ ['\n'])) ++ String.ofList endCertificate ++ "\n") = .ok der := by
      rw [whole, certificate, reads.pem der pieces filled (pieces_some inside) split]
      simp [filled]
    have dash : isWhitespace '-' = false := by decide
    rw [begins.solid spaces (by decide) (.of_ends rfl rfl dash dash), readLines_begin, opened,
      collected, ends.solid spaces (by decide) (.of_ends rfl rfl dash dash), readLines_end read, ih]
    rfl

/-! ## PEM in base64 -/

/-- White space the core skips before it looks for PEM. -/
def skipped (c : Char) : Bool := asciiSpace c || c == '\n'

theorem utf8_skipped {c : Char} (own : skipped c = true) :
    ∃ b, String.utf8EncodeChar c = [b] ∧ isAsciiWhitespace b = true := by
  simp only [skipped, asciiSpace, Bool.or_eq_true, beq_iff_eq] at own
  rcases own with (((rfl | rfl) | rfl) | rfl) | rfl
  · exact ⟨0x20, by decide, by decide⟩
  · exact ⟨0x09, by decide, by decide⟩
  · exact ⟨0x0c, by decide, by decide⟩
  · exact ⟨0x0d, by decide, by decide⟩
  · exact ⟨0x0a, by decide, by decide⟩

/-- PEM by the core's rule, said of the characters. -/
theorem startsPem_utf8 {text : String} {front rest : List Char}
    (whole : text.toList = front ++ ("-----BEGIN".toList ++ rest))
    (blank : ∀ c ∈ front, skipped c = true) : startsPem (utf8 text) = true := by
  have begins : "-----BEGIN".toList.flatMap String.utf8EncodeChar = pemBegin := by decide
  have skip : ∀ bytes : Bytes, (front.flatMap String.utf8EncodeChar ++ bytes).dropWhile
      isAsciiWhitespace = bytes.dropWhile isAsciiWhitespace := by
    intro bytes
    refine dropWhile_append_of_forall fun b mem => ?_
    obtain ⟨c, own, inside⟩ := List.mem_flatMap.mp mem
    obtain ⟨b', encoded, white⟩ := utf8_skipped (blank c own)
    rw [encoded, List.mem_singleton] at inside
    exact inside ▸ white
  rw [startsPem, utf8, whole, List.flatMap_append, List.flatMap_append, begins, skip]
  rfl

theorem LineOf.blank {line : List Char} (own : LineOf asciiSpace [] line) :
    ∀ c ∈ line, skipped c = true := by
  obtain ⟨blank, blank', ends⟩ := own
  simp only [List.forall_mem_append, List.not_mem_nil, false_implies, implies_true, true_and]
  refine ⟨fun c mem => by rw [skipped, blank c mem]; rfl,
    fun c mem => by rw [skipped, blank' c mem]; rfl, ?_⟩
  rcases ends with rfl | rfl <;> exact List.all_eq_true.mp (by decide)

/-- The first thing that is not white space in a PEM text with a root is a BEGIN line. -/
theorem Layout.begins {Carries : List Bytes → List Char → Prop} {ders : List Bytes}
    {text : List Char} (layout : Layout asciiSpace false Carries ders text) (some : ders ≠ []) :
    ∃ front rest : List Char, text = front ++ ("-----BEGIN".toList ++ rest) ∧ 2 ≤ rest.length ∧
      ∀ c ∈ front, skipped c = true := by
  induction layout with
  | nil => exact absurd rfl some
  | blank empty _ ih =>
    obtain ⟨front, rest, rfl, long, blank⟩ := ih some
    exact ⟨_ ++ front, rest, by rw [List.append_assoc], long,
      List.forall_mem_append.mpr ⟨empty.blank, blank⟩⟩
  | comment on => cases on
  | line on => cases on
  | @block der ders pieces opens body closes text _ begins =>
    obtain @⟨before, after, ending, blank, -, -⟩ := begins
    refine ⟨before, " CERTIFICATE-----".toList ++ (after ++ ending) ++ (body ++ (closes ++ text)),
      ?_, ?_, fun c mem => by rw [skipped, blank c mem]; rfl⟩
    · rw [show beginCertificate = "-----BEGIN".toList ++ " CERTIFICATE-----".toList by decide]
      simp only [List.append_assoc]
    · have label : " CERTIFICATE-----".toList.length = 17 := by decide
      rw [List.length_append, List.length_append, label]
      omega

theorem PemText.startsPem {ders : List Bytes} {text : String} (written : PemText ders text)
    (some : ders ≠ []) : startsPem (utf8 text) = true := by
  have cut : ∀ ending : List Char, ending.length ≤ 2 →
      Layout asciiSpace false (fun _ _ => False) ders (text.toList ++ ending) →
      ReceiptVerifier.startsPem (utf8 text) = true := by
    intro ending short layout
    obtain ⟨front, rest, whole, long, blank⟩ := layout.begins some
    have starts : front ++ "-----BEGIN".toList <+: text.toList ++ ending := by
      rw [whole, ← List.append_assoc]
      exact List.prefix_append _ _
    have fits : (front ++ "-----BEGIN".toList).length ≤ text.toList.length := by
      have length := congrArg List.length whole
      simp only [List.length_append] at length ⊢
      omega
    have inside := List.prefix_of_prefix_length_le starts (List.prefix_append _ _) fits
    obtain ⟨tail, same⟩ := inside
    exact startsPem_utf8 (by rw [← same, List.append_assoc]) blank
  rcases written with full | full | full
  · exact cut [] (by decide) (by rwa [List.append_nil])
  · exact cut _ (by decide) full
  · exact cut _ (by decide) full

theorem readPem_text (reads : CratesRead crates) {ders : List Bytes} {text : String}
    (written : PemText ders text) : readPem crates text = .ok ders :=
  written.read fun _ layout =>
    readLines_layout spaces_asciiSpace reads (fun _ _ none => none.elim) layout 0

/-- What a base64 text stands for is what it is read to. -/
theorem Carried.read (reads : CratesRead crates) {found : List Bytes} {content : List Char}
    (carried : Carried found content) :
    content ≠ [] ∧ (∀ c ∈ content, IsCode c) ∧ readLine crates (.ofList content) = .ok found := by
  cases carried with
  | @root der filled plain =>
    refine ⟨Rfc4648.encode_ne_nil filled, isCode_encode der, ?_⟩
    rw [isPem_eq] at plain
    simp [readLine, decode, reads.base64, filled, Server.root, plain]
  | @pem _ text some written =>
    have pem := written.startsPem some
    have filled : utf8 text ≠ [] := by
      intro none
      rw [none] at pem
      exact absurd pem (by decide)
    refine ⟨Rfc4648.encode_ne_nil filled, isCode_encode _, ?_⟩
    simp [readLine, decode, reads.base64, filled, Server.root, pem, fromUtf8_utf8,
      readPem_text reads written, Except.mapError]

/-! ## Roots texts -/

theorem readEntries_carried (reads : CratesRead crates) {parts : List (List Bytes)}
    {contents : List (List Char)} (each : List.Forall₂ Carried parts contents) :
    ∀ index, Roots.readEntries crates index
      (contents.map fun content => .string (.ofList content)) = .ok parts.flatten := by
  induction each with
  | nil => exact fun _ => rfl
  | cons carried _ ih =>
    intro index
    rw [List.map_cons, Roots.readEntries, Roots.readEntry, (carried.read reads).2.2]
    simp [Except.mapError, ih, Except.map]

/-- **A roots text reads back.** Whatever layout a list of roots is written in, base64 lines and PEM
blocks with their base64 split anywhere, white space around lines, both line ends, blank lines
everywhere and comments outside the blocks, the file's text is read to that list; and so are the
entries of a managed roots line. A base64 text may carry the PEM of several roots in the place of
one root. -/
theorem roots_text_reads_back (crates : Crates) (reads : CratesRead crates) :
    (∀ (ders : List Bytes) (text : String), ders ≠ [] → RootsText ders text →
      Roots.fromFileText crates text = .ok (.configured ders)) ∧
    ∀ (parts : List (List Bytes)) (contents : List (List Char)), contents ≠ [] →
      List.Forall₂ Carried parts contents → ∀ line, crates.json.value line = .ok (.object
        [("roots", .array (contents.map fun content => .string (.ofList content)))]) →
      Roots.fromConfigJson crates line = .ok (.configured parts.flatten) := by
  constructor
  · intro ders text some written
    have read : readText crates text = .ok ders := written.read fun _ layout =>
      readLines_layout spaces_lineSpace reads (fun _ _ carried => carried.read reads) layout 0
    rw [Roots.fromFileText, read]
    simp [some]
  · intro parts contents some each line value
    have entries := readEntries_carried reads each 0
    obtain ⟨content, contents, rfl⟩ := List.exists_cons_of_ne_nil some
    rw [Roots.fromConfigJson, value]
    rw [List.map_cons] at entries ⊢
    simp [entries]

namespace Sample

/-- The contents of one CERTIFICATE block, line ends left out. -/
def pemParse (block : String) : Except String (String × Bytes) :=
  let text := block.toList.filter (· != '\n')
  if beginCertificate.isPrefixOf text && endCertificate.isSuffixOf text then
    match Rfc4648.decode ((text.drop 27).take (text.length - 52)) with
    | some bytes => .ok ("CERTIFICATE", bytes)
    | none => .error "invalid data"
  else .error "malformedframing"

/-- The crates with the whole of base64 and of such blocks. -/
def textCrates : Crates := { oneConfig with pemParse := pemParse }

theorem pemParse_certificateBlock {pieces : List (List Char)} {bytes : Bytes}
    (split : pieces.flatten = Rfc4648.encode bytes) :
    pemParse (certificateBlock pieces) = .ok ("CERTIFICATE", bytes) := by
  have code : ∀ c ∈ pieces.flatten, (c != '\n') = true := by
    intro c mem
    have solid := (isCode_encode bytes c (split ▸ mem)).solid
    rw [bne_iff_ne]
    rintro rfl
    exact absurd solid (by decide)
  have inside : (pieces.flatMap (· ++ ['\n'])).filter (· != '\n') = pieces.flatten := by
    clear split
    induction pieces with
    | nil => rfl
    | cons piece pieces ih =>
      rw [List.flatten_cons, List.forall_mem_append] at code
      rw [List.flatMap_cons, List.filter_append, List.filter_append, ih code.2,
        List.filter_eq_self.mpr code.1, List.flatten_cons]
      simp
  have text : (certificateBlock pieces).toList.filter (· != '\n') =
      beginCertificate ++ (pieces.flatten ++ endCertificate) := by
    have begins : beginCertificate.filter (· != '\n') = beginCertificate := by decide
    have ends : endCertificate.filter (· != '\n') = endCertificate := by decide
    rw [certificateBlock, String.toList_ofList, List.filter_append, begins, List.filter_cons]
    simp [inside, ends]
  have lengths : beginCertificate.length = 27 ∧ endCertificate.length = 25 := by decide
  have middle : ((beginCertificate ++ (pieces.flatten ++ endCertificate)).drop 27).take
      ((beginCertificate ++ (pieces.flatten ++ endCertificate)).length - 52) = pieces.flatten := by
    rw [← lengths.1, List.drop_left]
    have size : (beginCertificate ++ (pieces.flatten ++ endCertificate)).length - 52 =
        pieces.flatten.length := by
      simp only [List.length_append]
      omega
    rw [size, List.take_left]
  have begins : beginCertificate.isPrefixOf
      (beginCertificate ++ (pieces.flatten ++ endCertificate)) = true :=
    List.isPrefixOf_iff_prefix.mpr (List.prefix_append _ _)
  have ends : endCertificate.isSuffixOf
      (beginCertificate ++ (pieces.flatten ++ endCertificate)) = true :=
    List.isSuffixOf_iff_suffix.mpr ⟨beginCertificate ++ pieces.flatten, by rw [List.append_assoc]⟩
  simp only [pemParse, text, begins, ends, Bool.and_self, if_true, middle]
  rw [split, Rfc4648.decode_encode]

theorem textCrates_read : CratesRead textCrates where
  base64 := ReceiptVerifier.Sample.standardBase64_roundTrips
  pem _ _ _ _ split := by
    dsimp only [textCrates]
    exact pemParse_certificateBlock split

end Sample

/-- A comment, a base64 line with spaces and a CRLF end, and a block of two lines with a blank line
between them and no end to its last one. -/
theorem roots_text_reads_back_both :
    Roots.fromFileText Sample.textCrates ("# two roots\n  AQID \r\n-----BEGIN CERTIFICATE-----\n" ++
      "MA\n\nA=\n-----END CERTIFICATE-----") = .ok (.configured [[1, 2, 3], [0x30, 0x00]]) := by
  have ends : ∀ text, LineOf lineSpace text ([] ++ (text ++ ([] ++ ['\n']))) := fun _ =>
    .mk (by simp) (by simp) (.inl rfl)
  have piece : ∀ text, text ≠ [] → ∀ {pieces body}, Body lineSpace pieces body →
      Body lineSpace (text :: pieces) _ :=
        fun text some _ _ inside => .piece some (ends text) inside
  refine (roots_text_reads_back Sample.textCrates Sample.textCrates_read).1 _ _ (by decide) ?_
  have spaced : LineOf lineSpace (Rfc4648.encode [1, 2, 3])
      ([' ', ' '] ++ (Rfc4648.encode [1, 2, 3] ++ ([' '] ++ ['\r', '\n']))) :=
    .mk (List.all_eq_true.mp (by decide)) (List.all_eq_true.mp (by decide)) (.inr rfl)
  have layout : Layout lineSpace true Carried ([[1, 2, 3]] ++ [[0x30, 0x00]]) _ :=
    .comment rfl (by decide) (ends ('#' :: " two roots".toList))
      (.line rfl (.root (by decide) (by decide)) spaced
        (.block (by decide) (ends _) (piece ['M', 'A'] (by decide)
          (.blank (ends []) (piece ['A', '='] (by decide) .nil))) (by decide) (ends _) .nil))
  refine .inr (.inl ?_)
  convert layout using 1
  · rfl
  · decide +kernel

end Server

end ReceiptVerifier
