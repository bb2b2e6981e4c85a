import Mathlib.Data.Nat.Digits.Lemmas
import ReceiptVerifier.JavaWasm.HttpConn

/-!
# A reused connection reads one response at a time

`IsResponse` is a response as the bytes of a stream: a status line, header lines, the empty line and
the body that the fields frame. `exact_response`: what an exchange reads is one of these, to its
last byte, and every one of these is read. What follows is about streams alone: a stream that is
malformed, or that stops inside a response, begins with no response at all
(`Malformed.not_response`).
-/

namespace ReceiptVerifier

namespace JavaWasm

namespace HttpConn

open StreamReader (Turn Turns Exact)

/-! ## Lines -/

def IsText (text : Bytes) : Prop := 0x0D ∉ text ∧ 0x0A ∉ text

def IsLine (text : Bytes) : Prop := IsText text ∧ text.length ≤ maxLine

instance (text : Bytes) : Decidable (IsText text) :=
  inferInstanceAs (Decidable (0x0D ∉ text ∧ 0x0A ∉ text))

instance (text : Bytes) : Decidable (IsLine text) :=
  inferInstanceAs (Decidable (IsText text ∧ text.length ≤ maxLine))

/-- A line as it is sent. -/
def crlf (text : Bytes) : Bytes := text ++ [0x0D, 0x0A]

def crlfs (lines : List Bytes) : Bytes := (lines.map crlf).flatten

@[simp] theorem crlfs_nil : crlfs [] = [] := rfl

@[simp] theorem crlfs_cons (l : Bytes) (lines : List Bytes) :
    crlfs (l :: lines) = crlf l ++ crlfs lines := rfl

theorem isText_nil : IsText [] := ⟨List.not_mem_nil, List.not_mem_nil⟩

theorem isLine_nil : IsLine [] := ⟨isText_nil, Nat.zero_le _⟩

theorem isText_cons {c : UInt8} {text : Bytes} :
    IsText (c :: text) ↔ (c ≠ 0x0D ∧ c ≠ 0x0A) ∧ IsText text := by
  simp only [IsText, List.mem_cons, not_or, ne_comm (a := c), ne_eq]
  tauto

/-- A turn ends the line at CRLF and takes any other byte but a CR and a LF. -/
def LineTurn (taken : Bytes) (turn : Turn Bytes Bytes) (p : Bytes) : Prop :=
  turn = .done taken ∧ p = [0x0D, 0x0A] ∨
    ∃ c, (c ≠ 0x0D ∧ c ≠ 0x0A) ∧ taken.length < maxLine ∧ turn = .again (taken ++ [c]) ∧ p = [c]

theorem exact_lineTurn (taken : Bytes) : Exact (lineTurn taken) (LineTurn taken) := by
  refine ((StreamReader.exact_next closed).bind fun c =>
    ((StreamReader.exact_next closed).bind fun after =>
      (StreamReader.exact_pure (Turn.done taken)).unless).ite
    ((StreamReader.exact_pure (Turn.again (taken ++ [c]))).unless).unless).congr fun turn p => ?_
  constructor
  · rintro ⟨c, _, p₂, rfl, rfl, ⟨rfl, after, _, _, rfl, rfl, lf, rfl, rfl⟩ |
      ⟨cr, lf, short, rfl, rfl⟩⟩
    · rw [not_not] at lf
      exact .inl ⟨rfl, by rw [lf]; rfl⟩
    · exact .inr ⟨c, ⟨cr, lf⟩, Nat.lt_of_not_le short, rfl, List.append_nil _⟩
  · rintro (⟨rfl, rfl⟩ | ⟨c, ⟨cr, lf⟩, short, rfl, rfl⟩)
    · exact ⟨0x0D, [0x0D], [0x0A], rfl, rfl,
        .inl ⟨rfl, 0x0A, [0x0A], [], rfl, rfl, not_not.2 rfl, rfl, rfl⟩⟩
    · exact ⟨c, [c], [], rfl, rfl, .inr ⟨cr, lf, Nat.not_le_of_lt short, rfl, rfl⟩⟩

theorem turns_lineTurn {taken line p : Bytes} (h : Turns LineTurn taken line p)
    (fits : taken.length ≤ maxLine) :
    ∃ text, IsText text ∧ line = taken ++ text ∧ line.length ≤ maxLine ∧ p = crlf text := by
  induction h with
  | done g =>
    rcases g with ⟨e, rfl⟩ | ⟨c, -, -, e, -⟩
    · cases e
      exact ⟨[], isText_nil, (List.append_nil _).symm, fits, rfl⟩
    · cases e
  | again g _ ih =>
    rcases g with ⟨e, -⟩ | ⟨c, plain, short, e, rfl⟩
    · cases e
    · cases e
      obtain ⟨text, isText, rfl, bound, rfl⟩ := ih (by
        rw [List.length_append]
        exact short)
      refine ⟨c :: text, isText_cons.2 ⟨plain, isText⟩, ?_, bound, rfl⟩
      rw [List.append_assoc]
      rfl

theorem lineTurn_turns {text : Bytes} (isText : IsText text) (taken : Bytes)
    (fits : (taken ++ text).length ≤ maxLine) :
    Turns LineTurn taken (taken ++ text) (crlf text) := by
  induction text generalizing taken with
  | nil =>
    rw [List.append_nil]
    exact .done (.inl ⟨rfl, rfl⟩)
  | cons c text ih =>
    obtain ⟨plain, isText⟩ := isText_cons.1 isText
    have short : taken.length < maxLine := by
      rw [List.length_append, List.length_cons] at fits
      omega
    have rest := ih isText (taken ++ [c]) (by rwa [List.append_assoc])
    rw [List.append_assoc] at rest
    change Turns LineTurn taken _ ([c] ++ crlf text)
    exact .again (.inr ⟨c, plain, short, rfl, rfl⟩) rest

/-- `line` reads a line, whole. -/
theorem exact_line : Exact line (fun text p => IsLine text ∧ p = crlf text) := by
  refine (StreamReader.exact_loop exact_lineTurn []).congr fun text p => ⟨fun turns => ?_, ?_⟩
  · obtain ⟨text', isText, rfl, bound, rfl⟩ := turns_lineTurn turns (Nat.zero_le _)
    exact ⟨⟨isText, bound⟩, rfl⟩
  · rintro ⟨⟨isText, bound⟩, rfl⟩
    exact lineTurn_turns isText [] bound

/-- What is read after a line. -/
theorem exact_line_bind {γ : Type} {f : Bytes → InputStream γ} {H : Bytes → γ → Bytes → Prop}
    (hf : ∀ text, Exact (f text) (H text)) :
    Exact (line >>= f) (fun c p => ∃ text q, IsLine text ∧ p = crlf text ++ q ∧ H text c q) :=
  (exact_line.bind hf).congr fun c p => by
    constructor
    · rintro ⟨text, _, q, rfl, ⟨isLine, rfl⟩, g⟩
      exact ⟨text, q, isLine, rfl, g⟩
    · rintro ⟨text, q, isLine, rfl, g⟩
      exact ⟨text, crlf text, q, rfl, ⟨isLine, rfl⟩, g⟩

/-! ## Blocks and trailers -/

theorem exact_exactly (n : Nat) :
    Exact (exactly n) (fun bytes p => p = bytes ∧ bytes.length = n) := by
  induction n with
  | zero =>
    refine (StreamReader.exact_pure []).congr fun bytes p => ?_
    constructor
    · rintro ⟨rfl, rfl⟩
      exact ⟨rfl, rfl⟩
    · rintro ⟨rfl, empty⟩
      exact ⟨List.length_eq_zero_iff.1 empty, List.length_eq_zero_iff.1 empty⟩
  | succ n ih =>
    refine ((StreamReader.exact_next _).bind fun b => ih.bind fun bytes =>
      StreamReader.exact_pure (b :: bytes)).congr fun bytes p => ?_
    constructor
    · rintro ⟨b, _, _, rfl, rfl, bytes, p, _, rfl, ⟨rfl, length⟩, rfl, rfl⟩
      exact ⟨by rw [List.append_nil]; rfl, congrArg (· + 1) length⟩
    · rintro ⟨rfl, length⟩
      cases p with
      | nil => cases length
      | cons b bytes =>
        exact ⟨b, [b], bytes, rfl, rfl, bytes, bytes, [], (List.append_nil _).symm,
          ⟨rfl, Nat.succ.inj length⟩, rfl, rfl⟩

/-- Lines that are not empty, and the empty line after them. -/
def Trailers (p : Bytes) : Prop :=
  ∃ lines : List Bytes, (∀ l ∈ lines, IsLine l ∧ l ≠ []) ∧ p = crlfs lines ++ crlf []

def TrailerTurn (_ : Unit) (turn : Turn Unit Unit) (p : Bytes) : Prop :=
  ∃ text, IsLine text ∧ p = crlf text ∧ turn = if text ≠ [] then .again () else .done ()

theorem exact_trailer (u : Unit) : Exact (trailer u) (TrailerTurn u) := by
  refine (exact_line_bind fun text =>
    (StreamReader.exact_pure (Turn.again ())).ite
      (StreamReader.exact_pure (Turn.done ()))).congr fun turn p => ?_
  constructor
  · rintro ⟨text, q, isLine, rfl, ⟨some, rfl, rfl⟩ | ⟨none, rfl, rfl⟩⟩
    · exact ⟨text, isLine, List.append_nil _, (if_pos some).symm⟩
    · exact ⟨text, isLine, List.append_nil _, (if_neg none).symm⟩
  · rintro ⟨text, isLine, rfl, rfl⟩
    refine ⟨text, [], isLine, (List.append_nil _).symm, ?_⟩
    by_cases some : text ≠ []
    · exact .inl ⟨some, if_pos some, rfl⟩
    · exact .inr ⟨some, if_neg some, rfl⟩

theorem trailers_of_turns {u v : Unit} {p : Bytes} (h : Turns TrailerTurn u v p) : Trailers p := by
  induction h with
  | done g =>
    obtain ⟨text, -, rfl, e⟩ := g
    by_cases some : text ≠ []
    · rw [if_pos some] at e
      cases e
    · rw [not_not] at some
      exact ⟨[], by simp only [List.not_mem_nil, false_implies, implies_true], by rw [some]; rfl⟩
  | again g _ ih =>
    obtain ⟨text, isLine, rfl, e⟩ := g
    obtain ⟨lines, all, rfl⟩ := ih
    by_cases some : text ≠ []
    · exact ⟨text :: lines, List.forall_mem_cons.2 ⟨⟨isLine, some⟩, all⟩, by
        rw [crlfs_cons, List.append_assoc]⟩
    · rw [if_neg some] at e
      cases e

theorem exact_trailers : Exact trailers (fun _ p => Trailers p) := by
  refine (StreamReader.exact_loop exact_trailer ()).congr fun u p => ⟨trailers_of_turns, ?_⟩
  rintro ⟨lines, all, rfl⟩
  induction lines with
  | nil => exact .done ⟨[], isLine_nil, rfl, rfl⟩
  | cons text lines ih =>
    obtain ⟨⟨isLine, some⟩, all⟩ := List.forall_mem_cons.1 all
    rw [crlfs_cons, List.append_assoc]
    exact .again ⟨text, isLine, rfl, (if_pos some).symm⟩ (ih all)

/-! ## Chunks -/

/-- A chunk's size in hex, and its extension. -/
def IsSizeLine (text : Bytes) (n : Nat) : Prop :=
  IsLine text ∧ ∃ digits extension, text = digits ++ extension ∧ isSize digits = true ∧
    numeral 16 digits = n ∧ (extension = [] ∨ extension.head? = some 0x3B)

theorem ne_of_isHexDigit {b : UInt8} (h : isHexDigit b = true) : b ≠ 0x3B := by
  rintro rfl
  exact absurd h (by decide)

theorem takeWhile_sizeLine {digits extension : Bytes} (hex : isSize digits = true)
    (ext : extension = [] ∨ extension.head? = some 0x3B) :
    (digits ++ extension).takeWhile (· ≠ 0x3B) = digits := by
  have all : ∀ b ∈ digits, decide (b ≠ 0x3B) = true := by
    intro b hb
    rw [isSize, Bool.and_eq_true, List.all_eq_true] at hex
    exact decide_eq_true (ne_of_isHexDigit (hex.1 b hb))
  rw [List.takeWhile_append_of_pos all]
  have none : extension.takeWhile (· ≠ 0x3B) = [] := by
    cases extension with
    | nil => rfl
    | cons b extension =>
      obtain rfl : b = 0x3B := by simpa using ext
      rfl
  rw [none, List.append_nil]

theorem isSizeLine_iff {text : Bytes} {n : Nat} :
    IsSizeLine text n ↔ IsLine text ∧ isSize (text.takeWhile (· ≠ 0x3B)) = true ∧
      numeral 16 (text.takeWhile (· ≠ 0x3B)) = n := by
  constructor
  · rintro ⟨isLine, digits, extension, rfl, hex, value, ext⟩
    rw [takeWhile_sizeLine hex ext]
    exact ⟨isLine, hex, value⟩
  · rintro ⟨isLine, hex, value⟩
    refine ⟨isLine, _, text.dropWhile (· ≠ 0x3B), List.takeWhile_append_dropWhile.symm, hex,
      value, ?_⟩
    rcases e : text.dropWhile (· ≠ 0x3B) with - | ⟨b, rest⟩
    · exact .inl e
    · have stop := List.head?_dropWhile_not (· ≠ 0x3B) text
      rw [e] at stop
      have semicolon : b = 0x3B := by simpa only [List.head?_cons, decide_not, Bool.not_eq_false',
        decide_eq_true_eq] using stop
      exact .inr (by rw [e, List.head?_cons, semicolon])

/-- A size line says one size. -/
theorem IsSizeLine.unique {text : Bytes} {m n : Nat} (h : IsSizeLine text m)
    (h' : IsSizeLine text n) :
    m = n :=
  (isSizeLine_iff.1 h).2.2.symm.trans (isSizeLine_iff.1 h').2.2

/-- The chunked form of a body. -/
inductive Chunked : Bytes → Bytes → Prop
  | last {text p : Bytes} : IsSizeLine text 0 → Trailers p → Chunked (crlf text ++ p) []
  | chunk {text data p body : Bytes} :
    IsSizeLine text data.length → data ≠ [] → Chunked p body →
      Chunked (crlf text ++ (data ++ crlf []) ++ p) (data ++ body)

def ChunkTurn (taken : Bytes) (turn : Turn Bytes Bytes) (p : Bytes) : Prop :=
  ∃ text n q, IsSizeLine text n ∧ p = crlf text ++ q ∧ taken.length + n ≤ maxResponse ∧
    (n = 0 ∧ turn = .done taken ∧ Trailers q ∨
      ∃ data, data ≠ [] ∧ data.length = n ∧ turn = .again (taken ++ data) ∧ q = data ++ crlf [])

theorem exact_chunkOf (taken : Bytes) (n : Nat) :
    Exact (chunkOf taken n) (fun turn q => taken.length + n ≤ maxResponse ∧
      (n = 0 ∧ turn = .done taken ∧ Trailers q ∨
        ∃ data, data ≠ [] ∧ data.length = n ∧ turn = .again (taken ++ data) ∧
          q = data ++ crlf [])) := by
  refine ((exact_trailers.bind fun _ => StreamReader.exact_pure (Turn.done taken)).ite
    ((exact_exactly n).bind fun bytes => exact_line_bind fun after =>
      (StreamReader.exact_pure (Turn.again (taken ++ bytes))).unless)).unless.congr fun turn q => ?_
  constructor
  · rintro ⟨fits, ⟨zero, -, q, _, rfl, trailers, rfl, rfl⟩ |
      ⟨some, data, _, _, rfl, ⟨rfl, length⟩, after, _, -, rfl, empty, rfl, rfl⟩⟩
    · rw [List.append_nil]
      exact ⟨Nat.le_of_not_lt fits, .inl ⟨zero, rfl, trailers⟩⟩
    · rw [not_not] at empty
      subst length
      rw [List.append_nil, empty]
      exact ⟨Nat.le_of_not_lt fits,
        .inr ⟨_, mt List.length_eq_zero_iff.2 some, rfl, rfl, rfl⟩⟩
  · rintro ⟨fits, ⟨zero, rfl, trailers⟩ | ⟨data, some, rfl, rfl, rfl⟩⟩
    · exact ⟨Nat.not_lt_of_le fits,
        .inl ⟨zero, (), q, [], (List.append_nil q).symm, trailers, rfl, rfl⟩⟩
    · exact ⟨Nat.not_lt_of_le fits,
        .inr ⟨mt List.length_eq_zero_iff.1 some, data, data, crlf [], rfl,
        ⟨rfl, rfl⟩, [], [], isLine_nil, rfl, not_not.2 rfl, rfl, rfl⟩⟩

theorem exact_chunk (taken : Bytes) : Exact (chunk taken) (ChunkTurn taken) := by
  refine (exact_line_bind fun text => (exact_chunkOf taken
    (numeral 16 (text.takeWhile (· ≠ 0x3B)))).unless).congr fun turn p => ?_
  constructor
  · rintro ⟨text, q, isLine, rfl, hex, fits, rest⟩
    rw [Bool.not_eq_true', Bool.not_eq_false] at hex
    exact ⟨text, _, q, isSizeLine_iff.2 ⟨isLine, hex, rfl⟩, rfl, fits, rest⟩
  · rintro ⟨text, n, q, size, rfl, fits, rest⟩
    obtain ⟨isLine, hex, rfl⟩ := isSizeLine_iff.1 size
    refine ⟨text, q, isLine, rfl, ?_, fits, rest⟩
    rw [Bool.not_eq_true', Bool.not_eq_false]
    exact hex

theorem chunked_of_turns {taken body p : Bytes} (h : Turns ChunkTurn taken body p) :
    ∃ more, Chunked p more ∧ body = taken ++ more ∧ body.length ≤ maxResponse := by
  induction h with
  | done g =>
    obtain ⟨text, n, q, size, rfl, fits, ⟨rfl, e, trailers⟩ | ⟨data, -, -, e, -⟩⟩ := g
    · cases e
      exact ⟨[], .last size trailers, (List.append_nil _).symm, fits⟩
    · cases e
  | again g _ ih =>
    obtain ⟨text, n, q, size, rfl, -, ⟨-, e, -⟩ | ⟨data, some, rfl, e, rfl⟩⟩ := g
    · cases e
    · cases e
      obtain ⟨more, chunks, rfl, bound⟩ := ih
      exact ⟨data ++ more, .chunk size some chunks, List.append_assoc _ _ _, bound⟩

theorem Chunked.turns {p body : Bytes} (h : Chunked p body) (taken : Bytes)
    (fits : (taken ++ body).length ≤ maxResponse) : Turns ChunkTurn taken (taken ++ body) p := by
  induction h generalizing taken with
  | last size trailers =>
    rw [List.append_nil] at fits ⊢
    exact .done ⟨_, 0, _, size, rfl, fits, .inl ⟨rfl, rfl, trailers⟩⟩
  | @chunk text data p body size some _ ih =>
    have room : taken.length + data.length ≤ maxResponse := by
      rw [List.length_append, List.length_append] at fits
      omega
    have rest := ih (taken ++ data) (by rwa [List.append_assoc])
    rw [List.append_assoc] at rest
    exact .again ⟨text, _, _, size, rfl, room, .inr ⟨data, some, rfl, rfl, rfl⟩⟩ rest

/-- `chunked` reads a chunked form within the bound, to its last byte, and returns its body. -/
theorem exact_chunked :
    Exact chunked (fun body p => Chunked p body ∧ body.length ≤ maxResponse) := by
  refine (StreamReader.exact_loop exact_chunk []).congr fun body p => ⟨fun turns => ?_, ?_⟩
  · obtain ⟨more, chunks, rfl, bound⟩ := chunked_of_turns turns
    exact ⟨chunks, bound⟩
  · rintro ⟨chunks, bound⟩
    exact chunks.turns [] bound

/-! ## Fields -/

/-- A header line, and the name, in lower case, and the value of its field. -/
inductive IsField : Bytes → Bytes × Bytes → Prop
  | mk {name value : Bytes} : name ≠ [] → 0x3A ∉ name → name.head?.any blank = false →
    name.getLast?.any blank = false → IsField (name ++ 0x3A :: value) (toLowerCase name, trim value)

theorem field_eq_some_iff {text : Bytes} {f : Bytes × Bytes} :
    field text = some f ↔ IsField text f := by
  constructor
  · intro h
    have parts := List.takeWhile_append_dropWhile (p := (· ≠ 0x3A)) (l := text)
    rcases e : text.dropWhile (· ≠ 0x3A) with - | ⟨colon, value⟩
    · rw [field, e] at h
      cases h
    · have stop := List.head?_dropWhile_not (· ≠ 0x3A) text
      rw [e] at stop parts
      obtain rfl : colon = 0x3A := by simpa only [List.head?_cons, decide_not, Bool.not_eq_false',
        decide_eq_true_eq] using stop
      rw [field, e] at h
      dsimp only at h
      split at h
      · cases h
      · rename_i good
        rw [not_or, not_or, Bool.not_eq_true, Bool.not_eq_true] at good
        cases h
        have colon : (0x3A : UInt8) ∉ text.takeWhile (· ≠ 0x3A) := by
          intro mem
          have other := List.mem_takeWhile_imp mem
          simp only [ne_eq, not_true_eq_false, decide_false, Bool.false_eq_true] at other
        have made : IsField (_ ++ 0x3A :: value) (_, trim value) :=
          .mk good.1 colon good.2.2 good.2.1
        rwa [parts] at made
  · rintro ⟨some, colon, first, last⟩
    rename_i name value
    have all : ∀ b ∈ name, decide (b ≠ 0x3A) = true := by
      intro b hb
      refine decide_eq_true ?_
      rintro rfl
      exact colon hb
    have front : (name ++ 0x3A :: value).takeWhile (· ≠ 0x3A) = name := by
      rw [List.takeWhile_append_of_pos all]
      exact List.append_nil name
    have back : (name ++ 0x3A :: value).dropWhile (· ≠ 0x3A) = 0x3A :: value := by
      rw [List.dropWhile_append_of_pos all]
      rfl
    rw [field, back]
    dsimp only
    rw [front, if_neg]
    rw [not_or, not_or, Bool.not_eq_true, Bool.not_eq_true]
    exact ⟨some, last, first⟩

theorem IsField.unique {text : Bytes} {f g : Bytes × Bytes} (h : IsField text f)
    (h' : IsField text g) : f = g :=
  Option.some.inj ((field_eq_some_iff.2 h).symm.trans (field_eq_some_iff.2 h'))

theorem IsField.ne_nil {text : Bytes} {f : Bytes × Bytes} (h : IsField text f) : text ≠ [] := by
  cases h
  exact List.append_ne_nil_of_right_ne_nil _ (List.cons_ne_nil _ _)

/-- The values of the fields of a name, in order. -/
def valuesOf (name : String) (fields : List (Bytes × Bytes)) : List Bytes :=
  (fields.filter fun f => f.1 = ascii name).map Prod.snd

def AtMostOne (good : Bytes → Prop) (values : List Bytes) : Prop :=
  values = [] ∨ ∃ value, values = [value] ∧ good value

/-- The fields state at most one framing a kind, each well formed. -/
structure Stated (fields : List (Bytes × Bytes)) : Prop where
  length : AtMostOne (fun value => isLength value = true) (valuesOf "content-length" fields)
  encoding : AtMostOne (fun value => toLowerCase value = ascii "chunked")
    (valuesOf "transfer-encoding" fields)

/-- What the last field of a name says. -/
def lastOf {α : Type} (name : String) (fields : List (Bytes × Bytes)) (default : α)
    (of : Bytes → α) : α :=
  ((valuesOf name fields).getLast?.map of).getD default

/-- Whether a status line and fields close the connection. -/
def closes (statusLine : Bytes) (fields : List (Bytes × Bytes)) : Bool :=
  lastOf "connection" fields (decide (ascii "HTTP/1.0" <+: statusLine)) fun value =>
    decide (ascii "close" <:+: toLowerCase value)

/-- The head of a status line and fields. -/
def headOf (statusLine : Bytes) (fields : List (Bytes × Bytes)) : Head where
  count := fields.length
  length := (valuesOf "content-length" fields).head?.map (numeral 10)
  chunked := !(valuesOf "transfer-encoding" fields).isEmpty
  close := closes statusLine fields
  contentType := lastOf "content-type" fields [] id

theorem valuesOf_append (name : String) (fields more : List (Bytes × Bytes)) :
    valuesOf name (fields ++ more) = valuesOf name fields ++ valuesOf name more := by
  rw [valuesOf, List.filter_append, List.map_append]
  rfl

theorem valuesOf_self {name : String} {f : Bytes × Bytes} (h : f.1 = ascii name)
    (fields : List (Bytes × Bytes)) :
    valuesOf name (fields ++ [f]) = valuesOf name fields ++ [f.2] := by
  have last : valuesOf name [f] = [f.2] := by simp [valuesOf, h]
  rw [valuesOf_append, last]

theorem valuesOf_other {name : String} {f : Bytes × Bytes} (h : f.1 ≠ ascii name)
    (fields : List (Bytes × Bytes)) : valuesOf name (fields ++ [f]) = valuesOf name fields := by
  have last : valuesOf name [f] = [] := by simp [valuesOf, h]
  rw [valuesOf_append, last, List.append_nil]

theorem AtMostOne.of_append {good : Bytes → Prop} {values more : List Bytes}
    (h : AtMostOne good (values ++ more)) : AtMostOne good values := by
  rcases h with h | ⟨value, h, isGood⟩
  · exact .inl (List.append_eq_nil_iff.1 h).1
  · rcases List.append_eq_singleton_iff.1 h with ⟨none, -⟩ | ⟨one, -⟩
    · exact .inl none
    · exact .inr ⟨value, one, isGood⟩

theorem atMostOne_concat {good : Bytes → Prop} {values : List Bytes} {value : Bytes} :
    AtMostOne good (values ++ [value]) ↔ values = [] ∧ good value := by
  constructor
  · rintro (h | ⟨v, h, isGood⟩)
    · exact absurd (List.append_eq_nil_iff.1 h).2 (List.cons_ne_nil _ _)
    · rcases List.append_eq_singleton_iff.1 h with ⟨none, e⟩ | ⟨-, e⟩
      · cases e
        exact ⟨none, isGood⟩
      · cases e
  · rintro ⟨rfl, isGood⟩
    exact .inr ⟨value, rfl, isGood⟩

theorem Stated.of_append {fields more : List (Bytes × Bytes)} (h : Stated (fields ++ more)) :
    Stated fields := by
  have length := h.length
  have encoding := h.encoding
  rw [valuesOf_append] at length encoding
  exact ⟨length.of_append, encoding.of_append⟩

theorem lastOf_self {α : Type} {name : String} {f : Bytes × Bytes} (h : f.1 = ascii name)
    (fields : List (Bytes × Bytes)) (default : α) (of : Bytes → α) :
    lastOf name (fields ++ [f]) default of = of f.2 := by
  rw [lastOf, valuesOf_self h, List.getLast?_concat]
  rfl

theorem lastOf_other {α : Type} {name : String} {f : Bytes × Bytes} (h : f.1 ≠ ascii name)
    (fields : List (Bytes × Bytes)) (default : α) (of : Bytes → α) :
    lastOf name (fields ++ [f]) default of = lastOf name fields default of := by
  rw [lastOf, valuesOf_other h]
  rfl

theorem names_ne :
    ascii "content-length" ≠ ascii "transfer-encoding" ∧
      ascii "content-length" ≠ ascii "connection" ∧
    ascii "content-length" ≠ ascii "content-type" ∧ ascii "transfer-encoding" ≠ ascii "connection" ∧
    ascii "transfer-encoding" ≠ ascii "content-type" ∧
      ascii "connection" ≠ ascii "content-type" := by
  decide

theorem ite_error_eq_ok {ε α : Type} {c : Prop} [Decidable c] {e : ε} {a b : α} :
    (if c then Except.error e else .ok a) = .ok b ↔ ¬ c ∧ b = a := by
  by_cases h : c
  · rw [if_pos h]
    exact ⟨nofun, fun no => absurd h no.1⟩
  · rw [if_neg h, Except.ok.injEq]
    exact ⟨fun e => ⟨h, e.symm⟩, fun e => e.2.symm⟩

theorem length_headOf (statusLine : Bytes) (fields : List (Bytes × Bytes)) :
    (headOf statusLine fields).length =
      (valuesOf "content-length" fields).head?.map (numeral 10) := rfl

theorem encoded_headOf (statusLine : Bytes) (fields : List (Bytes × Bytes)) :
    (headOf statusLine fields).chunked = !(valuesOf "transfer-encoding" fields).isEmpty := rfl

theorem isSome_length_headOf {statusLine : Bytes} {fields : List (Bytes × Bytes)} :
    (headOf statusLine fields).length.isSome = false ↔ valuesOf "content-length" fields = [] := by
  rw [length_headOf, Option.isSome_map]
  cases valuesOf "content-length" fields with
  | nil => exact ⟨fun _ => rfl, fun _ => rfl⟩
  | cons value values => exact ⟨nofun, nofun⟩

theorem chunked_headOf {statusLine : Bytes} {fields : List (Bytes × Bytes)} :
    (headOf statusLine fields).chunked = false ↔ valuesOf "transfer-encoding" fields = [] := by
  rw [encoded_headOf]
  cases valuesOf "transfer-encoding" fields with
  | nil => exact ⟨fun _ => rfl, fun _ => rfl⟩
  | cons value values => exact ⟨nofun, nofun⟩

section set

variable (statusLine : Bytes) {fields : List (Bytes × Bytes)} (stated : Stated fields)
  {f : Bytes × Bytes} {head : Head}
include stated

theorem set_length (name : f.1 = ascii "content-length") :
    (headOf statusLine fields).set f.1 f.2 = .ok head ↔ Stated (fields ++ [f]) ∧
      head = { headOf statusLine (fields ++ [f]) with count := fields.length } := by
  obtain ⟨n₁, n₂, n₃, -, -, -⟩ := names_ne
  have encodings := valuesOf_other (name.trans_ne n₁) fields
  have now : Stated (fields ++ [f]) ↔
      valuesOf "content-length" fields = [] ∧ isLength f.2 = true := by
    have one := @atMostOne_concat (fun value => isLength value = true)
      (valuesOf "content-length" fields) f.2
    rw [← valuesOf_self name] at one
    exact ⟨fun h => one.1 h.length, fun h => ⟨one.2 h, encodings ▸ stated.encoding⟩⟩
  have taken (none : valuesOf "content-length" fields = []) :
      { headOf statusLine (fields ++ [f]) with count := fields.length } =
        { headOf statusLine fields with length := some (numeral 10 f.2) } := by
    simp only [headOf, closes, valuesOf_self name, encodings, lastOf_other (name.trans_ne n₂),
      lastOf_other (name.trans_ne n₃), none, List.nil_append, List.head?_cons, Option.map_some]
  rw [Head.set, if_pos name, ite_error_eq_ok, now, not_or, Bool.not_eq_true, Bool.not_eq_false,
    isSome_length_headOf]
  constructor
  · rintro ⟨⟨none, digits⟩, e⟩
    exact ⟨⟨none, digits⟩, e.trans (taken none).symm⟩
  · rintro ⟨⟨none, digits⟩, e⟩
    exact ⟨⟨none, digits⟩, e.trans (taken none)⟩

theorem set_encoding (name : f.1 = ascii "transfer-encoding") :
    (headOf statusLine fields).set f.1 f.2 = .ok head ↔ Stated (fields ++ [f]) ∧
      head = { headOf statusLine (fields ++ [f]) with count := fields.length } := by
  obtain ⟨n₁, -, -, n₄, n₅, -⟩ := names_ne
  have lengths := valuesOf_other (name.trans_ne n₁.symm) fields
  have now : Stated (fields ++ [f]) ↔
      valuesOf "transfer-encoding" fields = [] ∧ toLowerCase f.2 = ascii "chunked" := by
    have one := @atMostOne_concat (fun value => toLowerCase value = ascii "chunked")
      (valuesOf "transfer-encoding" fields) f.2
    rw [← valuesOf_self name] at one
    exact ⟨fun h => one.1 h.encoding, fun h => ⟨lengths ▸ stated.length, one.2 h⟩⟩
  have taken (none : valuesOf "transfer-encoding" fields = []) :
      { headOf statusLine (fields ++ [f]) with count := fields.length } =
        { headOf statusLine fields with chunked := true } := by
    simp only [headOf, closes, valuesOf_self name, lengths, lastOf_other (name.trans_ne n₄),
      lastOf_other (name.trans_ne n₅), none, List.nil_append, List.isEmpty_cons, Bool.not_false]
  rw [Head.set, if_neg (name.trans_ne n₁.symm), if_pos name, ite_error_eq_ok, now, not_or,
    Bool.not_eq_true, chunked_headOf, ne_eq, not_not]
  constructor
  · rintro ⟨⟨none, alone⟩, e⟩
    exact ⟨⟨none, alone⟩, e.trans (taken none).symm⟩
  · rintro ⟨⟨none, alone⟩, e⟩
    exact ⟨⟨none, alone⟩, e.trans (taken none)⟩

/-- A field is taken into the head if and only if what the fields state stays well formed. -/
theorem set_headOf :
    (headOf statusLine fields).set f.1 f.2 = .ok head ↔ Stated (fields ++ [f]) ∧
      head = { headOf statusLine (fields ++ [f]) with count := fields.length } := by
  by_cases length : f.1 = ascii "content-length"
  · exact set_length statusLine stated length
  by_cases encoding : f.1 = ascii "transfer-encoding"
  · exact set_encoding statusLine stated encoding
  -- the other fields state no framing
  have lengths := valuesOf_other length fields
  have encodings := valuesOf_other encoding fields
  have now : Stated (fields ++ [f]) :=
    ⟨lengths ▸ stated.length, encodings ▸ stated.encoding⟩
  have last {head' : Head}
      (e : { headOf statusLine (fields ++ [f]) with count := fields.length } = head') :
      (Except.ok head' : Except String Head) = .ok head ↔ Stated (fields ++ [f]) ∧
        head = { headOf statusLine (fields ++ [f]) with count := fields.length } := by
    rw [Except.ok.injEq, e]
    exact ⟨fun e => ⟨now, e.symm⟩, fun e => e.2.symm⟩
  rw [Head.set, if_neg length, if_neg encoding]
  by_cases connection : f.1 = ascii "connection"
  · rw [if_pos connection]
    have other := connection.trans_ne names_ne.2.2.2.2.2
    exact last (by simp only [headOf, closes, lengths, encodings, lastOf_self connection,
      lastOf_other other])
  rw [if_neg connection]
  by_cases type : f.1 = ascii "content-type"
  · rw [if_pos type]
    exact last (by simp only [headOf, closes, lengths, encodings, lastOf_other connection,
      lastOf_self type, id])
  · rw [if_neg type]
    exact last (by simp only [headOf, closes, lengths, encodings, lastOf_other connection,
      lastOf_other type])

end set

/-- A header line is taken if there is room for it and its field is. -/
theorem next_headOf (statusLine : Bytes) {fields : List (Bytes × Bytes)} (stated : Stated fields)
    {text : Bytes} {head : Head} :
    (headOf statusLine fields).next text = .ok head ↔ fields.length < maxHeaders ∧
      ∃ f, IsField text f ∧ Stated (fields ++ [f]) ∧ head = headOf statusLine (fields ++ [f]) := by
  have count : (headOf statusLine fields).count = fields.length := rfl
  rw [Head.next, count]
  by_cases full : maxHeaders ≤ fields.length
  · rw [if_pos full]
    exact ⟨nofun, fun h => absurd h.1 (Nat.not_lt_of_le full)⟩
  rw [if_neg full]
  rcases e : field text with - | ⟨name, value⟩
  · refine ⟨nofun, ?_⟩
    rintro ⟨-, f, isField, -⟩
    rw [field_eq_some_iff.2 isField] at e
    cases e
  have isField := field_eq_some_iff.1 e
  have step {head' : Head} : (headOf statusLine fields).set name value = .ok head' ↔ _ :=
    set_headOf statusLine stated (f := (name, value))
  have grown : (headOf statusLine (fields ++ [(name, value)])).count = fields.length + 1 :=
    List.length_append
  dsimp only at step ⊢
  constructor
  · intro h
    rcases taken : (headOf statusLine fields).set name value with failure | head'
    · rw [taken] at h
      cases h
    · rw [taken] at h
      obtain ⟨now, rfl⟩ := step.1 taken
      refine ⟨Nat.lt_of_not_le full, _, isField, now, ?_⟩
      cases h
      simp only [← grown]
  · rintro ⟨-, f, isField', now, rfl⟩
    obtain rfl := isField'.unique isField
    rw [step.2 ⟨now, rfl⟩]
    change Except.ok _ = _
    simp only [← grown]

def HeaderTurn (head : Head) (turn : Turn Head Head) (p : Bytes) : Prop :=
  ∃ text, IsLine text ∧ p = crlf text ∧
    (text = [] ∧ turn = .done head ∨
      text ≠ [] ∧ ∃ head', head.next text = .ok head' ∧ turn = .again head')

theorem exact_header (head : Head) : Exact (header head) (HeaderTurn head) := by
  have field (text : Bytes) {r : InputStream (Turn Head Head)}
      (failed : ∀ e, head.next text = .error e → r = StreamReader.throw e)
      (goesOn : ∀ head', head.next text = .ok head' → r = pure (.again head')) :
      Exact r
        (fun turn q => q = [] ∧ ∃ head', head.next text = .ok head' ∧ turn = .again head') := by
    rcases e : head.next text with failure | head'
    · rw [failed failure e]
      refine (StreamReader.exact_throw failure).congr fun turn q => ⟨False.elim, ?_⟩
      rintro ⟨-, head', h, -⟩
      cases h
    · rw [goesOn head' e]
      refine (StreamReader.exact_pure _).congr fun turn q => ⟨fun h => ⟨h.2, head', rfl, h.1⟩, ?_⟩
      rintro ⟨rfl, head'', h, rfl⟩
      cases h
      exact ⟨rfl, rfl⟩
  refine (exact_line_bind fun text => (StreamReader.exact_pure (Turn.done head)).ite
    (field text (fun e failed => ?_) fun head' taken => ?_)).congr fun turn p => ?_
  · rw [failed]
  · rw [taken]
  constructor
  · rintro ⟨text, q, isLine, rfl, ⟨empty, rfl, rfl⟩ | ⟨some, rfl, next⟩⟩
    · exact ⟨text, isLine, List.append_nil _, .inl ⟨empty, rfl⟩⟩
    · exact ⟨text, isLine, List.append_nil _, .inr ⟨some, next⟩⟩
  · rintro ⟨text, isLine, rfl, ⟨empty, rfl⟩ | ⟨some, next⟩⟩
    · exact ⟨text, [], isLine, (List.append_nil _).symm, .inl ⟨empty, rfl, rfl⟩⟩
    · exact ⟨text, [], isLine, (List.append_nil _).symm, .inr ⟨some, rfl, next⟩⟩

/-- Header lines with their fields. -/
structure IsHeaders (lines : List Bytes) (fields : List (Bytes × Bytes)) : Prop where
  isLine : ∀ l ∈ lines, IsLine l
  isField : List.Forall₂ IsField lines fields

theorem headers_of_turns {statusLine p : Bytes} {head head' : Head}
    (h : Turns HeaderTurn head head' p) {fields : List (Bytes × Bytes)} (stated : Stated fields)
    (fits : fields.length ≤ maxHeaders) (at_ : head = headOf statusLine fields) :
    ∃ lines more, IsHeaders lines more ∧ (fields ++ more).length ≤ maxHeaders ∧
      Stated (fields ++ more) ∧ head' = headOf statusLine (fields ++ more) ∧
      p = crlfs lines ++ crlf [] := by
  induction h generalizing fields with
  | done g =>
    subst at_
    obtain ⟨text, -, rfl, ⟨rfl, e⟩ | ⟨-, _, -, e⟩⟩ := g
    · cases e
      refine ⟨[], [], ⟨fun _ h => (List.not_mem_nil h).elim, .nil⟩, ?_, ?_, ?_, rfl⟩ <;>
        rw [List.append_nil]
      · exact fits
      · exact stated
    · cases e
  | again g _ ih =>
    subst at_
    obtain ⟨text, isLine, rfl, ⟨-, e⟩ | ⟨-, next, taken, e⟩⟩ := g
    · cases e
    · cases e
      obtain ⟨room, f, isField, stated, rfl⟩ := (next_headOf _ stated).1 taken
      obtain ⟨lines, more, isHeaders, bound, all, rfl, rfl⟩ := ih stated
        (by rw [List.length_append]; exact room) rfl
      rw [List.append_assoc] at bound all ⊢
      exact ⟨text :: lines, f :: more, ⟨List.forall_mem_cons.2 ⟨isLine, isHeaders.isLine⟩,
        .cons isField isHeaders.isField⟩, bound, all, rfl, by rw [crlfs_cons, List.append_assoc]⟩

theorem IsHeaders.turns {statusLine : Bytes} {lines : List Bytes} {more : List (Bytes × Bytes)}
    (h : IsHeaders lines more) (fields : List (Bytes × Bytes)) (stated : Stated (fields ++ more))
    (fits : (fields ++ more).length ≤ maxHeaders) :
    Turns HeaderTurn (headOf statusLine fields) (headOf statusLine (fields ++ more))
      (crlfs lines ++ crlf []) := by
  obtain ⟨isLine, isField⟩ := h
  induction isField generalizing fields with
  | nil =>
    rw [List.append_nil]
    exact .done ⟨[], isLine_nil, rfl, .inl ⟨rfl, rfl⟩⟩
  | @cons text f lines more isField _ ih =>
    obtain ⟨first, isLine⟩ := List.forall_mem_cons.1 isLine
    have split : fields ++ f :: more = fields ++ [f] ++ more := (List.append_assoc _ [f] _).symm
    rw [split] at stated fits ⊢
    have room : fields.length < maxHeaders := by
      rw [List.length_append, List.length_append, List.length_singleton] at fits
      omega
    have taken := (next_headOf statusLine stated.of_append.of_append).2
      ⟨room, f, isField, stated.of_append, rfl⟩
    rw [crlfs_cons, List.append_assoc (crlf text)]
    exact .again ⟨text, first, rfl, .inr ⟨isField.ne_nil, _, taken, rfl⟩⟩
      (ih (fields ++ [f]) stated fits isLine)

theorem stated_nil : Stated [] := ⟨.inl rfl, .inl rfl⟩

/-- The loop over the headers reads header lines and the empty line, and knows their fields. -/
theorem exact_headers (statusLine : Bytes) :
    Exact (headers (headOf statusLine [])) (fun head p => ∃ lines fields, IsHeaders lines fields ∧
      fields.length ≤ maxHeaders ∧ Stated fields ∧ head = headOf statusLine fields ∧
      p = crlfs lines ++ crlf []) := by
  refine (StreamReader.exact_loop exact_header _).congr fun head p => ⟨fun turns => ?_, ?_⟩
  · exact headers_of_turns turns stated_nil (Nat.zero_le _) rfl
  · rintro ⟨lines, fields, isHeaders, bound, stated, rfl, rfl⟩
    exact isHeaders.turns [] stated bound

/-! ## Responses -/

/-- A status line and the status it states. -/
def IsStatusLine (text : Bytes) (status : Int) : Prop :=
  ∃ minor code reason, text = ascii "HTTP/1." ++ [minor, 0x20] ++ code ++ reason ∧
    code.length = 3 ∧ ServerProcess.parseInt (latin1 code) = some status

theorem IsStatusLine.ne_nil {text : Bytes} {status : Int} (h : IsStatusLine text status) :
    text ≠ [] := by
  obtain ⟨minor, code, reason, rfl, -⟩ := h
  simp only [ne_eq, List.append_eq_nil_iff, List.cons_ne_nil, and_false, false_and,
    not_false_eq_true]

theorem length_http : (ascii "HTTP/1.").length = 7 := by decide

theorem statusOf_eq_ok_iff {text : Bytes} {status : Int} :
    statusOf text = .ok status ↔ IsStatusLine text status := by
  constructor
  · intro h
    rw [statusOf] at h
    split at h
    · cases h
    · rename_i good
      rw [not_or, not_or, not_not, Nat.not_lt, ne_eq, not_not] at good
      obtain ⟨⟨rest, rfl⟩, long, space⟩ := good
      rw [List.length_append, length_http] at long
      rw [List.getElem?_append_right (by rw [length_http]; decide), length_http] at space
      match rest, long, space with
      | minor :: sp :: code, long, space =>
        cases space
        have drop : (ascii "HTTP/1." ++ minor :: 0x20 :: code).drop 9 = code := by
          rw [List.drop_append, length_http, List.drop_eq_nil_of_le (by rw [length_http]; decide)]
          rfl
        rw [drop] at h
        split at h
        · cases h
        · rename_i value parsed
          cases h
          refine ⟨minor, code.take 3, code.drop 3, ?_, ?_, parsed⟩
          · rw [List.append_assoc _ (code.take 3), List.take_append_drop, List.append_assoc]
            rfl
          · rw [List.length_take]
            simp only [List.length_cons] at long
            omega
  · rintro ⟨minor, code, reason, rfl, three, parsed⟩
    have drop : (ascii "HTTP/1." ++ [minor, 0x20] ++ code ++ reason).drop 9 = code ++ reason := by
      rw [List.append_assoc, List.drop_left' (by rw [List.length_append, length_http]; rfl)]
    rw [statusOf, if_neg, drop, ← three, List.take_left', parsed]
    · rfl
    · rw [not_or, not_or, not_not, Nat.not_lt, ne_eq, not_not]
      refine ⟨⟨[minor, 0x20] ++ code ++ reason, by simp only [List.append_assoc]⟩, ?_, ?_⟩
      · simp only [List.length_append, length_http, three, List.length_cons, List.length_nil]
        omega
      · rw [List.append_assoc, List.append_assoc,
          List.getElem?_append_right (by rw [length_http]; decide), length_http]
        rfl

theorem IsStatusLine.unique {text : Bytes} {status status' : Int} (h : IsStatusLine text status)
    (h' : IsStatusLine text status') : status = status' :=
  Except.ok.inj ((statusOf_eq_ok_iff.2 h).symm.trans (statusOf_eq_ok_iff.2 h'))

/-- What is sent after the empty line and the body it frames. -/
inductive Framed (status : Int) (fields : List (Bytes × Bytes)) : Bytes → Bytes → Prop
  | length {digits body : Bytes} : valuesOf "content-length" fields = [digits] →
    valuesOf "transfer-encoding" fields = [] → isLength digits = true →
    numeral 10 digits = body.length → Framed status fields body body
  | chunked {encoding p body : Bytes} : valuesOf "content-length" fields = [] →
    valuesOf "transfer-encoding" fields = [encoding] → toLowerCase encoding = ascii "chunked" →
    Chunked p body → Framed status fields p body
  | empty : valuesOf "content-length" fields = [] → valuesOf "transfer-encoding" fields = [] →
    status = 204 ∨ status = 304 → Framed status fields [] []

/-- The bytes of one response, and whether it closes the connection. -/
structure IsResponse (one : Bytes) (response : Response) (close : Bool) : Prop where
  parts : ∃ statusLine lines fields p,
    one = crlf statusLine ++ (crlfs lines ++ crlf [] ++ p) ∧
    IsLine statusLine ∧ IsStatusLine statusLine response.status ∧
    IsHeaders lines fields ∧ fields.length ≤ maxHeaders ∧
    Framed response.status fields p response.body ∧
    close = closes statusLine fields ∧
    response.contentType = String.ofList (latin1 (lastOf "content-type" fields [] id))
  bounded : response.body.length ≤ maxResponse

/-- The body that a head frames. -/
def BodyOf (status : Int) (head : Head) (p body : Bytes) : Prop :=
  head.chunked = true ∧ head.length = none ∧ Chunked p body ∨
    head.chunked = false ∧ head.length = some body.length ∧ p = body ∨
    head.chunked = false ∧ head.length = none ∧ (status = 204 ∨ status = 304) ∧ p = [] ∧ body = []

theorem exact_body {method : String} (notHead : method ≠ "HEAD") (status : Int) (head : Head) :
    Exact (body method status head)
      (fun bytes p => BodyOf status head p bytes ∧ bytes.length ≤ maxResponse) := by
  obtain ⟨count, length, chunked, close, contentType⟩ := head
  simp only [body, BodyOf]
  cases chunked with
  | true =>
    cases length with
    | some n =>
      rw [if_pos ⟨rfl, rfl⟩]
      refine (StreamReader.exact_throw _).congr fun bytes p => ⟨False.elim, ?_⟩
      rintro ⟨⟨-, none, -⟩ | ⟨clear, -⟩ | ⟨clear, -⟩, -⟩
      · cases none
      · cases clear
      · cases clear
    | none =>
      rw [if_neg (fun h => Bool.noConfusion h.2), if_pos rfl]
      refine exact_chunked.congr fun bytes p => and_congr_left fun _ => ?_
      constructor
      · exact fun chunks => .inl ⟨rfl, rfl, chunks⟩
      · rintro (⟨-, -, chunks⟩ | ⟨clear, -⟩ | ⟨clear, -⟩)
        · exact chunks
        · cases clear
        · cases clear
  | false =>
    rw [if_neg (fun h => Bool.noConfusion h.1), if_neg Bool.false_ne_true]
    cases length with
    | some n =>
      refine (exact_exactly n).unless.congr fun bytes p => ?_
      constructor
      · rintro ⟨fits, rfl, rfl⟩
        exact ⟨.inr (.inl ⟨rfl, rfl, rfl⟩), Nat.le_of_not_lt fits⟩
      · rintro ⟨⟨set, -⟩ | ⟨-, e, rfl⟩ | ⟨-, none, -⟩, fits⟩
        · cases set
        · cases e
          exact ⟨Nat.not_lt_of_le fits, rfl, rfl⟩
        · cases none
    | none =>
      refine ((StreamReader.exact_pure []).ite (StreamReader.exact_throw _)).congr fun bytes p => ?_
      constructor
      · rintro (⟨bodiless | bodiless | head, rfl, rfl⟩ | ⟨-, none⟩)
        · exact ⟨.inr (.inr ⟨rfl, rfl, .inl bodiless, rfl, rfl⟩), Nat.zero_le _⟩
        · exact ⟨.inr (.inr ⟨rfl, rfl, .inr bodiless, rfl, rfl⟩), Nat.zero_le _⟩
        · exact absurd head notHead
        · exact none.elim
      · rintro ⟨⟨set, -⟩ | ⟨-, e, -⟩ | ⟨-, -, bodiless, rfl, rfl⟩, -⟩
        · cases set
        · cases e
        · exact .inl ⟨bodiless.elim .inl fun h => .inr (.inl h), rfl, rfl⟩

/-- A framing is what well-formed fields state, as the head has it. -/
theorem framed_iff {status : Int} (statusLine : Bytes) {fields : List (Bytes × Bytes)}
    {p body : Bytes} :
    Framed status fields p body ↔
      Stated fields ∧ BodyOf status (headOf statusLine fields) p body := by
  rw [BodyOf, length_headOf, encoded_headOf]
  constructor
  · intro h
    cases h with
    | length one none digits value =>
      rw [one, none]
      exact ⟨⟨.inr ⟨_, one, digits⟩, .inl none⟩, .inr (.inl ⟨rfl, congrArg some value, rfl⟩)⟩
    | chunked none one alone chunks =>
      rw [none, one]
      exact ⟨⟨.inl none, .inr ⟨_, one, alone⟩⟩, .inl ⟨rfl, rfl, chunks⟩⟩
    | empty none none' bodiless =>
      rw [none, none']
      exact ⟨⟨.inl none, .inl none'⟩, .inr (.inr ⟨rfl, rfl, bodiless, rfl, rfl⟩)⟩
  · rintro ⟨⟨none | ⟨digits, one, isLength⟩, none' | ⟨encoding, one', alone⟩⟩, framed⟩
    · rw [none, none'] at framed
      rcases framed with ⟨set, -⟩ | ⟨-, e, -⟩ | ⟨-, -, bodiless, rfl, rfl⟩
      · cases set
      · cases e
      · exact .empty none none' bodiless
    · rw [none, one'] at framed
      rcases framed with ⟨-, -, chunks⟩ | ⟨clear, -⟩ | ⟨clear, -⟩
      · exact .chunked none one' alone chunks
      · cases clear
      · cases clear
    · rw [one, none'] at framed
      rcases framed with ⟨set, -⟩ | ⟨-, value, rfl⟩ | ⟨-, none, -⟩
      · cases set
      · exact .length one none' isLength (Option.some.inj value)
      · cases none
    · rw [one, one'] at framed
      rcases framed with ⟨-, none, -⟩ | ⟨clear, -⟩ | ⟨clear, -⟩
      · cases none
      · cases clear
      · cases clear

theorem exact_answer {method : String} (notHead : method ≠ "HEAD") (statusLine : Bytes)
    (status : Int) :
    Exact (answer method statusLine status) (fun answered q => ∃ lines fields p,
      q = crlfs lines ++ crlf [] ++ p ∧ answered.1.status = status ∧ IsHeaders lines fields ∧
      fields.length ≤ maxHeaders ∧ Framed status fields p answered.1.body ∧
      answered.1.body.length ≤ maxResponse ∧ answered.2 = closes statusLine fields ∧
      answered.1.contentType = String.ofList (latin1 (lastOf "content-type" fields [] id))) := by
  refine ((exact_headers statusLine).bind fun head => (exact_body notHead status head).bind
    fun bytes => StreamReader.exact_pure (Response.mk status
      (String.ofList (latin1 head.contentType)) bytes, head.close)).congr fun answered q => ?_
  constructor
  · rintro ⟨_, _, _, rfl, ⟨lines, fields, isHeaders, bound, stated, rfl, rfl⟩, bytes, p, _, rfl,
      ⟨framed, fits⟩, rfl, rfl⟩
    rw [List.append_nil]
    exact ⟨lines, fields, p, rfl, rfl, isHeaders, bound, (framed_iff _).2 ⟨stated, framed⟩, fits,
      rfl, rfl⟩
  · obtain ⟨⟨status', contentType, bytes⟩, close⟩ := answered
    rintro ⟨lines, fields, p, rfl, rfl, isHeaders, bound, framed, fits, rfl, rfl⟩
    obtain ⟨stated, framed⟩ := (framed_iff statusLine).1 framed
    exact ⟨_, _, p, rfl, ⟨lines, fields, isHeaders, bound, stated, rfl, rfl⟩, bytes, p, [],
      (List.append_nil p).symm, ⟨framed, fits⟩, rfl, rfl⟩

/-- An exchange of a method other than `HEAD` reads one response, whole, and any response. -/
theorem exact_response {method : String} (notHead : method ≠ "HEAD") :
    Exact (response method) (fun answered one => IsResponse one answered.1 answered.2) := by
  have of (statusLine : Bytes) {r : InputStream (Response × Bool)}
      (failed : ∀ e, statusOf statusLine = .error e → r = StreamReader.throw e)
      (goesOn : ∀ status, statusOf statusLine = .ok status → r = answer method statusLine status) :
      Exact r (fun answered q => IsStatusLine statusLine answered.1.status ∧ ∃ lines fields p,
        q = crlfs lines ++ crlf [] ++ p ∧ IsHeaders lines fields ∧
        fields.length ≤ maxHeaders ∧ Framed answered.1.status fields p answered.1.body ∧
        answered.1.body.length ≤ maxResponse ∧ answered.2 = closes statusLine fields ∧
        answered.1.contentType = String.ofList (latin1 (lastOf "content-type" fields [] id))) := by
    rcases e : statusOf statusLine with failure | status
    · rw [failed failure e]
      refine (StreamReader.exact_throw failure).congr fun answered q => ⟨False.elim, ?_⟩
      rintro ⟨isStatus, -⟩
      rw [statusOf_eq_ok_iff.2 isStatus] at e
      cases e
    · rw [goesOn status e]
      refine (exact_answer notHead statusLine status).congr fun answered q => ?_
      constructor
      · rintro ⟨lines, fields, p, rfl, rfl, rest⟩
        exact ⟨statusOf_eq_ok_iff.1 e, lines, fields, p, rfl, rest⟩
      · rintro ⟨isStatus, lines, fields, p, rfl, rest⟩
        rw [statusOf_eq_ok_iff.2 isStatus] at e
        cases e
        exact ⟨lines, fields, p, rfl, rfl, rest⟩
  refine (exact_line_bind fun statusLine => of statusLine (fun e failed => ?_)
    fun status read => ?_).congr fun answered one => ?_
  · rw [failed]
  · rw [read]
  constructor
  · rintro ⟨statusLine, _, isLine, rfl, isStatus, lines, fields, p, rfl, isHeaders, bound, framed,
      fits, close, contentType⟩
    exact ⟨⟨statusLine, lines, fields, p, rfl, isLine, isStatus, isHeaders, bound, framed, close,
      contentType⟩, fits⟩
  · rintro ⟨⟨statusLine, lines, fields, p, rfl, isLine, isStatus, isHeaders, bound, framed, close,
      contentType⟩, fits⟩
    exact ⟨statusLine, _, isLine, rfl, isStatus, lines, fields, p, rfl, isHeaders, bound, framed,
      fits, close, contentType⟩

/-! ## Sending a body in chunks -/

/-- Chunks, each a size line and its data. -/
def sendChunks : List (Bytes × Bytes) → Bytes
  | [] => []
  | (text, data) :: chunks => crlf text ++ (data ++ crlf []) ++ sendChunks chunks

/-- Any split of a body, sent chunk after chunk, is a chunked form of it. -/
theorem chunked_sendChunks {chunks : List (Bytes × Bytes)}
    (sizes : ∀ c ∈ chunks, IsSizeLine c.1 c.2.length ∧ c.2 ≠ []) {text p : Bytes}
    (last : IsSizeLine text 0) (trailers : Trailers p) :
    Chunked (sendChunks chunks ++ (crlf text ++ p)) (chunks.map Prod.snd).flatten := by
  induction chunks with
  | nil => exact .last last trailers
  | cons c chunks ih =>
    obtain ⟨⟨size, some⟩, sizes⟩ := List.forall_mem_cons.1 sizes
    rw [sendChunks, List.append_assoc]
    exact .chunk size some (ih sizes)

def hexDigit (d : Nat) : UInt8 := if d < 10 then 0x30 + d.toUInt8 else 0x57 + d.toUInt8

/-- A size in hex. -/
def hex (n : Nat) : Bytes :=
  if n = 0 then [0x30] else (Nat.digits 16 n).reverse.map hexDigit

theorem hexDigit_spec : ∀ d < 16, isHexDigit (hexDigit d) = true ∧ digit (hexDigit d) = d := by
  decide

theorem numeral_hexDigits (ds : List Nat) (h : ∀ d ∈ ds, d < 16) :
    numeral 16 (ds.reverse.map hexDigit) = Nat.ofDigits 16 ds := by
  rw [numeral, List.map_reverse, List.foldl_reverse, Nat.ofDigits_eq_foldr, List.foldr_map]
  induction ds with
  | nil => rfl
  | cons d ds ih =>
    obtain ⟨first, h⟩ := List.forall_mem_cons.1 h
    rw [List.foldr_cons, List.foldr_cons, ih h, (hexDigit_spec d first).2, Nat.add_comm]
    rfl

/-- Every size a response may have is sent in at most seven hex digits. -/
theorem isSizeLine_hex {n : Nat} (fits : n ≤ maxResponse) {extension : Bytes}
    (ext : extension = [] ∨ extension.head? = some 0x3B) (isLine : IsLine (hex n ++ extension)) :
    IsSizeLine (hex n ++ extension) n := by
  have digits : ∀ d ∈ Nat.digits 16 n, d < 16 := fun d h => Nat.digits_lt_base (by decide) h
  refine ⟨isLine, hex n, extension, rfl, ?_, ?_, ext⟩
  · rw [hex]
    split
    · decide
    · rename_i positive
      have long : 1 ≤ (Nat.digits 16 n).length :=
        List.length_pos_iff.2 (Nat.digits_ne_nil_iff_ne_zero.2 positive)
      have short : (Nat.digits 16 n).length ≤ 7 :=
        (Nat.digits_length_le_iff (by decide) n).2 (Nat.lt_of_le_of_lt fits (by decide))
      rw [isSize, Bool.and_eq_true, decide_eq_true_eq, List.length_map, List.length_reverse,
        List.all_map, List.all_eq_true]
      exact ⟨fun d h => (hexDigit_spec d (digits d (List.mem_reverse.1 h))).1, long, short⟩
  · rw [hex]
    split
    · rename_i zero
      rw [zero]
      decide
    · rw [numeral_hexDigits _ digits, Nat.ofDigits_digits]

/-! ## Where a line is cut -/

/-- What a line runs into before any CRLF. -/
def Bare (b : Bytes) : Prop :=
  ∃ text, IsText text ∧ (b = text ++ [0x0A] ∨ ∃ c, c ≠ 0x0A ∧ b = text ++ [0x0D, c])

/-- The first CR or LF of a stream is in one place. -/
theorem text_unique {a b : Bytes} (ha : IsText a) (hb : IsText b) {c d : UInt8}
    (hc : c = 0x0D ∨ c = 0x0A) (hd : d = 0x0D ∨ d = 0x0A) {x y : Bytes}
    (e : a ++ c :: x = b ++ d :: y) : a = b ∧ c = d ∧ x = y := by
  induction a generalizing b with
  | nil =>
    cases b with
    | nil =>
      obtain ⟨rfl, rfl⟩ := List.cons.inj e
      exact ⟨rfl, rfl, rfl⟩
    | cons b₀ b =>
      obtain ⟨rfl, -⟩ := List.cons.inj e
      obtain ⟨⟨cr, lf⟩, -⟩ := isText_cons.1 hb
      exact absurd hc (not_or.2 ⟨cr, lf⟩)
  | cons a₀ a ih =>
    obtain ⟨⟨cr, lf⟩, ha⟩ := isText_cons.1 ha
    cases b with
    | nil =>
      obtain ⟨rfl, -⟩ := List.cons.inj e
      exact absurd hd (not_or.2 ⟨cr, lf⟩)
    | cons b₀ b =>
      obtain ⟨rfl, after⟩ := List.cons.inj e
      obtain ⟨rfl, rest⟩ := ih ha (isText_cons.1 hb).2 after
      exact ⟨rfl, rest⟩

theorem crlf_append (text x : Bytes) : crlf text ++ x = text ++ 0x0D :: 0x0A :: x := by
  rw [crlf, List.append_assoc]
  rfl

theorem crlf_unique {a b x y : Bytes} (ha : IsText a) (hb : IsText b)
    (e : crlf a ++ x = crlf b ++ y) : a = b ∧ x = y := by
  rw [crlf_append, crlf_append] at e
  obtain ⟨rfl, -, rest⟩ := text_unique ha hb (.inl rfl) (.inl rfl) e
  exact ⟨rfl, (List.cons.inj rest).2⟩

theorem Bare.ne_crlf {b text x y : Bytes} (h : Bare b) (isText : IsText text) :
    b ++ x ≠ crlf text ++ y := by
  intro e
  rw [crlf_append] at e
  obtain ⟨text', isText', rfl | ⟨c, plain, rfl⟩⟩ := h
  · rw [List.append_assoc] at e
    obtain ⟨-, clash, -⟩ := text_unique isText' isText (.inr rfl) (.inl rfl) e
    exact absurd clash (by decide)
  · rw [List.append_assoc] at e
    obtain ⟨-, -, rest⟩ := text_unique isText' isText (.inl rfl) (.inl rfl) e
    exact plain (List.cons.inj rest).1

/-- The lines before an empty line are in one place, and so is what follows them. -/
theorem crlfs_unique {as bs : List Bytes} {x y : Bytes} (ha : ∀ l ∈ as, IsText l ∧ l ≠ [])
    (hb : ∀ l ∈ bs, IsText l ∧ l ≠ [])
    (e : crlfs as ++ crlf [] ++ x = crlfs bs ++ crlf [] ++ y) : as = bs ∧ x = y := by
  induction as generalizing bs with
  | nil =>
    cases bs with
    | nil => exact ⟨rfl, List.append_cancel_left e⟩
    | cons b bs =>
      obtain ⟨⟨text, some⟩, -⟩ := List.forall_mem_cons.1 hb
      rw [crlfs_cons, List.append_assoc (crlf b), List.append_assoc (crlf b)] at e
      exact absurd (crlf_unique isText_nil text e).1.symm some
  | cons a as ih =>
    obtain ⟨⟨text, some⟩, ha⟩ := List.forall_mem_cons.1 ha
    rw [crlfs_cons, List.append_assoc (crlf a), List.append_assoc (crlf a)] at e
    cases bs with
    | nil => exact absurd (crlf_unique text isText_nil e).1 some
    | cons b bs =>
      obtain ⟨⟨text', -⟩, hb'⟩ := List.forall_mem_cons.1 hb
      rw [crlfs_cons, List.append_assoc (crlf b), List.append_assoc (crlf b)] at e
      obtain ⟨rfl, after⟩ := crlf_unique text text' e
      obtain ⟨rfl, rest⟩ := ih ha hb' after
      exact ⟨rfl, rest⟩

/-- A line that is not ended by CRLF is not among lines that are. -/
theorem Bare.ne_crlfs {b : Bytes} (h : Bare b) {as bs : List Bytes} {x y : Bytes}
    (ha : ∀ l ∈ as, IsText l ∧ l ≠ []) (hb : ∀ l ∈ bs, IsText l ∧ l ≠ []) :
    crlfs as ++ b ++ x ≠ crlfs bs ++ crlf [] ++ y := by
  induction as generalizing bs with
  | nil =>
    cases bs with
    | nil => exact h.ne_crlf isText_nil
    | cons b' bs =>
      rw [crlfs_cons, List.append_assoc (crlf b'), List.append_assoc (crlf b')]
      exact h.ne_crlf (List.forall_mem_cons.1 hb).1.1
  | cons a as ih =>
    obtain ⟨⟨text, some⟩, ha⟩ := List.forall_mem_cons.1 ha
    rw [crlfs_cons, List.append_assoc (crlf a), List.append_assoc (crlf a)]
    intro e
    cases bs with
    | nil => exact some (crlf_unique text isText_nil e).1
    | cons b' bs =>
      obtain ⟨⟨text', -⟩, hb⟩ := List.forall_mem_cons.1 hb
      rw [crlfs_cons, List.append_assoc (crlf b'), List.append_assoc (crlf b')] at e
      exact ih ha hb (crlf_unique text text' e).2

/-! ## Malformed streams -/

/-- A chunked form with a bare CR or LF in a line. -/
inductive BareChunks : Bytes → Prop
  | size {b : Bytes} : Bare b → BareChunks b
  | after {text data b : Bytes} : IsSizeLine text data.length → data ≠ [] → Bare b →
    BareChunks (crlf text ++ (data ++ b))
  | trailer {text b : Bytes} {lines : List Bytes} : IsSizeLine text 0 →
    (∀ l ∈ lines, IsText l ∧ l ≠ []) → Bare b → BareChunks (crlf text ++ (crlfs lines ++ b))
  | chunk {text data m : Bytes} : IsSizeLine text data.length → data ≠ [] → BareChunks m →
    BareChunks (crlf text ++ (data ++ crlf []) ++ m)

theorem IsSizeLine.isText {text : Bytes} {n : Nat} (h : IsSizeLine text n) : IsText text := h.1.1

theorem Trailers.ne_bare {p b x y : Bytes} (h : Trailers p) (hb : Bare b) {lines : List Bytes}
    (all : ∀ l ∈ lines, IsText l ∧ l ≠ []) : crlfs lines ++ (b ++ x) ≠ p ++ y := by
  rw [← List.append_assoc]
  obtain ⟨lines', all', rfl⟩ := h
  exact hb.ne_crlfs all fun l hl => ⟨(all' l hl).1.1, (all' l hl).2⟩

/-- Two size lines in one place state one size. -/
theorem IsSizeLine.crlf_unique {a b x y : Bytes} {n k : Nat} (ha : IsSizeLine a n)
    (hb : IsSizeLine b k) (e : crlf a ++ x = crlf b ++ y) : n = k ∧ x = y := by
  obtain ⟨rfl, after⟩ := HttpConn.crlf_unique ha.isText hb.isText e
  exact ⟨ha.unique hb, after⟩

/-- Data of one length is cut off at one place. -/
theorem data_unique {a b x y : Bytes} (length : a.length = b.length) (e : a ++ x = b ++ y) :
    a = b ∧ x = y :=
  List.append_inj e length

theorem BareChunks.not_chunked {m p body x y : Bytes} (h : BareChunks m)
    (chunked : Chunked p body) :
    m ++ x ≠ p ++ y := by
  induction h generalizing p body with
  | size bare =>
    cases chunked with
    | last size _ =>
      rw [List.append_assoc]
      exact bare.ne_crlf size.isText
    | chunk size _ _ =>
      simp only [List.append_assoc]
      exact bare.ne_crlf size.isText
  | after size some bare =>
    intro e
    cases chunked with
    | last size' _ =>
      simp only [List.append_assoc] at e
      exact some (List.length_eq_zero_iff.1 (size.crlf_unique size' e).1)
    | chunk size' _ _ =>
      simp only [List.append_assoc] at e
      obtain ⟨length, after⟩ := size.crlf_unique size' e
      obtain ⟨-, after⟩ := data_unique length after
      exact bare.ne_crlf isText_nil after
  | trailer size all bare =>
    intro e
    cases chunked with
    | last size' trailers =>
      simp only [List.append_assoc] at e
      exact trailers.ne_bare bare all (size.crlf_unique size' e).2
    | chunk size' some' _ =>
      simp only [List.append_assoc] at e
      exact some' (List.length_eq_zero_iff.1 (size.crlf_unique size' e).1.symm)
  | chunk size some _ ih =>
    intro e
    cases chunked with
    | last size' _ =>
      simp only [List.append_assoc] at e
      exact some (List.length_eq_zero_iff.1 (size.crlf_unique size' e).1)
    | chunk size' _ chunked =>
      simp only [List.append_assoc] at e
      obtain ⟨length, after⟩ := size.crlf_unique size' e
      obtain ⟨-, after⟩ := data_unique length after
      exact ih chunked (List.append_cancel_left after)

/-- A status line, header lines with their fields, and the empty line. -/
inductive Headed (statusLine : Bytes) (fields : List (Bytes × Bytes)) : Bytes → Prop
  | mk {lines : List Bytes} : IsText statusLine → (∀ l ∈ lines, IsText l) →
    List.Forall₂ IsField lines fields →
      Headed statusLine fields (crlfs (statusLine :: lines) ++ crlf [])

/-- What a stream may begin with that is no response and cannot become one. -/
inductive Malformed : Bytes → Prop
  /-- A CR or a LF in the status line or a header line. -/
  | bareHead {lines : List Bytes} {b : Bytes} : (∀ l ∈ lines, IsText l ∧ l ≠ []) → Bare b →
    Malformed (crlfs lines ++ b)
  /-- The same in a chunk's size line, after a chunk, or in a trailer. -/
  | bareChunk {statusLine head m : Bytes} {fields : List (Bytes × Bytes)} :
    Headed statusLine fields head → valuesOf "transfer-encoding" fields ≠ [] → BareChunks m →
    Malformed (head ++ m)
  | repeatedLength {statusLine head : Bytes} {fields : List (Bytes × Bytes)} :
    Headed statusLine fields head → 1 < (valuesOf "content-length" fields).length → Malformed head
  /-- A length with a sign, or with anything else that is not a digit. -/
  | signedLength {statusLine head value : Bytes} {fields : List (Bytes × Bytes)} {b : UInt8} :
    Headed statusLine fields head → value ∈ valuesOf "content-length" fields → b ∈ value →
    isDigit b = false → Malformed head
  | both {statusLine head : Bytes} {fields : List (Bytes × Bytes)} :
    Headed statusLine fields head → valuesOf "content-length" fields ≠ [] →
    valuesOf "transfer-encoding" fields ≠ [] → Malformed head
  | neither {statusLine head : Bytes} {fields : List (Bytes × Bytes)} {status : Int} :
    Headed statusLine fields head → IsStatusLine statusLine status → status ≠ 204 → status ≠ 304 →
    valuesOf "content-length" fields = [] → valuesOf "transfer-encoding" fields = [] →
    Malformed head

theorem fields_unique {lines : List Bytes} {fields fields' : List (Bytes × Bytes)}
    (h : List.Forall₂ IsField lines fields) (h' : List.Forall₂ IsField lines fields') :
    fields = fields' := by
  have right : Relator.RightUnique IsField := fun _ _ _ f f' => f.unique f'
  exact List.right_unique_forall₂' right h h'

theorem forall_ne_nil {lines : List Bytes} {fields : List (Bytes × Bytes)}
    (text : ∀ l ∈ lines, IsText l) (h : List.Forall₂ IsField lines fields) :
    ∀ l ∈ lines, IsText l ∧ l ≠ [] := by
  have some := ((List.forall₂_and_left lines fields).1 (h.imp fun _ _ f => ⟨f.ne_nil, f⟩)).1
  exact fun l hl => ⟨text l hl, some l hl⟩

/-- A response that begins as a stream does has the head the stream has. -/
theorem Headed.unique {statusLine statusLine' head p x y : Bytes} {lines' : List Bytes}
    {fields fields' : List (Bytes × Bytes)} (h : Headed statusLine fields head)
    (isLine : IsLine statusLine') (h' : IsHeaders lines' fields')
    (e : head ++ x = crlf statusLine' ++ (crlfs lines' ++ crlf [] ++ p) ++ y) :
    statusLine = statusLine' ∧ fields = fields' ∧ x = p ++ y := by
  obtain ⟨isText, text, isField⟩ := h
  rw [crlfs_cons, List.append_assoc (crlf statusLine), List.append_assoc (crlf statusLine),
    List.append_assoc (crlf statusLine')] at e
  obtain ⟨rfl, after⟩ := crlf_unique isText isLine.1 e
  rw [List.append_assoc _ p] at after
  obtain ⟨rfl, rest⟩ := crlfs_unique (forall_ne_nil text isField)
    (forall_ne_nil (fun l hl => (h'.isLine l hl).1) h'.isField) after
  exact ⟨rfl, fields_unique isField h'.isField, rest⟩

theorem Framed.stated {status : Int} {fields : List (Bytes × Bytes)} {p body : Bytes}
    (h : Framed status fields p body) : Stated fields := ((framed_iff []).1 h).1

/-- No response begins a malformed stream. -/
theorem Malformed.not_response {m one x y : Bytes} {response : Response} {close : Bool}
    (h : Malformed m) (isResponse : IsResponse one response close) : m ++ x ≠ one ++ y := by
  obtain ⟨status, contentType, body⟩ := response
  obtain ⟨⟨statusLine, lines, fields, p, rfl, isLine, isStatus, isHeaders, -, framed, -, -⟩, -⟩ :=
    isResponse
  intro e
  cases h with
  | bareHead all bare =>
    have text := forall_ne_nil (fun l hl => (isHeaders.isLine l hl).1) isHeaders.isField
    have some := isStatus.ne_nil
    refine bare.ne_crlfs all (List.forall_mem_cons.2 ⟨⟨isLine.1, some⟩, text⟩) (x := x)
      (y := p ++ y) ?_
    rw [crlfs_cons, e]
    simp only [List.append_assoc]
  | bareChunk head encoded chunks =>
    rw [List.append_assoc] at e
    obtain ⟨-, rfl, rest⟩ := head.unique isLine isHeaders e
    cases framed with
    | length _ none => exact encoded none
    | chunked _ _ _ chunked => exact chunks.not_chunked chunked rest
    | empty _ none => exact encoded none
  | repeatedLength head twice =>
    obtain ⟨-, rfl, -⟩ := head.unique isLine isHeaders e
    rcases framed.stated.length with none | ⟨value, one, -⟩
    · rw [none] at twice
      exact absurd twice (Nat.not_lt_zero 1)
    · rw [one] at twice
      exact absurd twice (Nat.lt_irrefl 1)
  | signedLength head mem sign notDigit =>
    obtain ⟨-, rfl, -⟩ := head.unique isLine isHeaders e
    rcases framed.stated.length with none | ⟨value, one, digits⟩
    · rw [none] at mem
      cases mem
    · rw [one, List.mem_singleton] at mem
      subst mem
      rw [isLength, Bool.and_eq_true, List.all_eq_true] at digits
      exact Bool.false_ne_true (notDigit.symm.trans (digits.1 _ sign))
  | both head length encoded =>
    obtain ⟨-, rfl, -⟩ := head.unique isLine isHeaders e
    cases framed with
    | length _ none => exact encoded none
    | chunked none => exact length none
    | empty none => exact length none
  | neither head isStatus' ne₁ ne₂ none none' =>
    obtain ⟨rfl, rfl, -⟩ := head.unique isLine isHeaders e
    cases framed with
    | length one =>
      rw [none] at one
      cases one
    | chunked _ one =>
      rw [none'] at one
      cases one
    | empty _ _ bodiless =>
      have same := isStatus'.unique isStatus
      subst same
      exact bodiless.elim ne₁ ne₂

/-- Two streams that are one begin alike. -/
theorem append_of_map {a b : Bytes} {s t : Input} (e : a.map .ok ++ s = b.map .ok ++ t) :
    ∃ x y, a ++ x = b ++ y := by
  have inj {p q : Bytes} (h : p.map .ok = (q.map .ok : Input)) : p = q :=
    List.map_injective_iff.2 (fun _ _ e => Except.ok.inj e) h
  rcases List.append_eq_append_iff.1 e with ⟨c, front, -⟩ | ⟨c, front, -⟩
  · obtain ⟨p₁, p₂, rfl, e₁, -⟩ := List.map_eq_append_iff.1 front
    exact ⟨p₂, [], by rw [inj e₁, List.append_nil]⟩
  · obtain ⟨p₁, p₂, rfl, e₁, -⟩ := List.map_eq_append_iff.1 front
    exact ⟨[], p₂, by rw [inj e₁, List.append_nil]⟩

/-! ## Exchanges -/

section exchange

variable (conn : HttpConn) {request : Request} (notHead : request.method ≠ "HEAD")

/-- What an exchange took off the stream, by what it returned or threw and `reusable()` after it. -/
def Took (outcome : Except String Response × Bool) (piece : Input) : Prop :=
  match outcome.1 with
  | .ok response => ∃ one close, piece = one.map .ok ∧ IsResponse one response close ∧
      outcome.2 = !close
  | .error _ => outcome.2 = false

include notHead

/-- An exchange that returns took one response; one that throws leaves a connection that is not
reusable. -/
theorem exists_took (written : Option String) :
    ∃ piece, conn.input = piece ++ (conn.exchange request written).2.input ∧
      Took ((conn.exchange request written).1, (conn.exchange request written).2.reusable)
        piece := by
  cases written with
  | some failure => exact ⟨[], rfl, rfl⟩
  | none =>
    rw [exchange]
    rcases e : (response request.method).read conn.input with ⟨failure | ⟨answered, close⟩, rest⟩
    · obtain ⟨piece, split⟩ := forward_response request.method conn.input
      rw [e] at split
      exact ⟨piece, split.symm, rfl⟩
    · obtain ⟨one, split, isResponse⟩ := (exact_response notHead).sound e
      exact ⟨one.map .ok, split, one, close, rfl, isResponse, rfl⟩

/-- A response on the stream is returned, and what follows it is left. -/
theorem exchange_of_response {one : Bytes} {answered : Response} {close : Bool} {rest : Input}
    (isResponse : IsResponse one answered close) (begins : conn.input = one.map .ok ++ rest) :
    conn.exchange request none = (.ok answered,
      { conn with
        input := rest, out := conn.out ++ request.bytes conn.target, reusable := !close }) := by
  have read := (exact_response notHead).complete (a := (answered, close)) isResponse rest
  rw [exchange, begins, read]

/-- An exchange that finds no response on the stream throws, and leaves a connection that is not
reusable. -/
theorem exchange_throws (written : Option String)
    (none : ∀ one answered close rest, conn.input = one.map .ok ++ rest →
      ¬ IsResponse one answered close) :
    (∃ failure, (conn.exchange request written).1 = .error failure) ∧
      (conn.exchange request written).2.reusable = false := by
  obtain ⟨piece, split, took⟩ := exists_took conn notHead written
  rcases e : (conn.exchange request written).1 with failure | answered
  · rw [Took, e] at took
    exact ⟨⟨failure, rfl⟩, took⟩
  · rw [Took, e] at took
    obtain ⟨one, close, rfl, isResponse, -⟩ := took
    exact absurd isResponse (none one answered close _ split)

end exchange

/-- Exchanges take consecutive pieces of the stream. -/
theorem exists_pieces {calls : List (Request × Option String)}
    (notHead : ∀ call ∈ calls, call.1.method ≠ "HEAD") (conn : HttpConn) :
    ∃ pieces : List Input, conn.input = pieces.flatten ++ (conn.exchanges calls).2.input ∧
      List.Forall₂ Took (conn.exchanges calls).1 pieces := by
  induction calls generalizing conn with
  | nil => exact ⟨[], rfl, .nil⟩
  | cons call calls ih =>
    obtain ⟨first, notHead⟩ := List.forall_mem_cons.1 notHead
    obtain ⟨piece, split, took⟩ := exists_took conn first call.2
    obtain ⟨pieces, rest, all⟩ := ih notHead (conn.exchange call.1 call.2).2
    refine ⟨piece :: pieces, ?_, .cons took all⟩
    rw [split, rest, List.flatten_cons, List.append_assoc]
    rfl

/-- Responses one after another are returned one after another. -/
theorem exchanges_of_responses {calls : List (Request × Option String)}
    (notHead : ∀ call ∈ calls, call.1.method ≠ "HEAD") (sent : ∀ call ∈ calls, call.2 = none)
    (conn : HttpConn) {ones : List Bytes} {outcomes : List (Response × Bool)} {rest : Input}
    (many : ones.length = calls.length)
    (all : List.Forall₂ (fun one outcome => IsResponse one outcome.1 !outcome.2) ones outcomes)
    (input : conn.input = ones.flatten.map .ok ++ rest) :
    (conn.exchanges calls).1 = outcomes.map (fun outcome => (.ok outcome.1, outcome.2)) ∧
      (conn.exchanges calls).2.input = rest := by
  induction calls generalizing conn ones outcomes with
  | nil =>
    obtain rfl := List.length_eq_zero_iff.1 many
    cases all
    exact ⟨rfl, input⟩
  | cons call calls ih =>
    obtain ⟨first, notHead'⟩ := List.forall_mem_cons.1 notHead
    obtain ⟨written, sent'⟩ := List.forall_mem_cons.1 sent
    obtain ⟨request, failure⟩ := call
    subst written
    cases all with
    | nil => cases many
    | @cons one outcome ones outcomes isResponse all =>
      rw [List.flatten_cons, List.map_append, List.append_assoc] at input
      have now := exchange_of_response conn first isResponse input
      have later := ih notHead' sent' (conn.exchange request none).2 (Nat.succ.inj many) all
        (by rw [now])
      rw [exchanges]
      refine ⟨?_, later.2⟩
      rw [List.map_cons, ← later.1, now, Bool.not_not]

/-- **A reused connection never drifts.** Exchanges of methods other than `HEAD` take consecutive
pieces of the stream, and each that returns takes exactly one response, whose framed bytes within
the bound are the body it returns; responses in a row are returned in that order. Any split of a
body within the bound into chunks reads back to it. A stream that begins with something malformed,
or that stops inside a response, is never returned from, and the connection is then not reusable. -/
theorem connection_never_drifts (conn : HttpConn) (calls : List (Request × Option String))
    (notHead : ∀ call ∈ calls, call.1.method ≠ "HEAD") :
    (∃ pieces : List Input, conn.input = pieces.flatten ++ (conn.exchanges calls).2.input ∧
      List.Forall₂ Took (conn.exchanges calls).1 pieces) ∧
    (∀ (ones : List Bytes) (outcomes : List (Response × Bool)) (rest : Input),
      (∀ call ∈ calls, call.2 = none) → ones.length = calls.length →
      List.Forall₂ (fun one outcome => IsResponse one outcome.1 !outcome.2) ones outcomes →
      conn.input = ones.flatten.map .ok ++ rest →
      (conn.exchanges calls).1 = outcomes.map (fun outcome => (.ok outcome.1, outcome.2)) ∧
        (conn.exchanges calls).2.input = rest) ∧
    (∀ (chunks : List (Bytes × Bytes)) (text p : Bytes) (rest : Input),
      (∀ c ∈ chunks, IsSizeLine c.1 c.2.length ∧ c.2 ≠ []) → IsSizeLine text 0 → Trailers p →
      (chunks.map Prod.snd).flatten.length ≤ maxResponse →
      chunked.read ((sendChunks chunks ++ (crlf text ++ p)).map .ok ++ rest) =
        (.ok (chunks.map Prod.snd).flatten, rest)) ∧
    (∀ (n : Nat) (extension : Bytes), n ≤ maxResponse →
      (extension = [] ∨ extension.head? = some 0x3B) → IsLine (hex n ++ extension) →
      IsSizeLine (hex n ++ extension) n) ∧
    (∀ call ∈ calls, ∀ (m : Bytes) (s : Input), Malformed m → conn.input = m.map .ok ++ s →
      (∃ failure, (conn.exchange call.1 call.2).1 = .error failure) ∧
        (conn.exchange call.1 call.2).2.reusable = false) ∧
    (∀ call ∈ calls, ∀ (m q : Bytes) (answered : Response) (close : Bool) (s : Input),
      IsResponse (m ++ q) answered close → q ≠ [] → (∀ b rest, s ≠ .ok b :: rest) →
      conn.input = m.map .ok ++ s →
      (∃ failure, (conn.exchange call.1 call.2).1 = .error failure) ∧
        (conn.exchange call.1 call.2).2.reusable = false) := by
  refine ⟨exists_pieces notHead conn, ?_, ?_, ?_, ?_, ?_⟩
  · intro ones outcomes rest sent many all input
    exact exchanges_of_responses notHead sent conn many all input
  · intro chunks text p rest sizes last trailers fits
    exact exact_chunked.complete ⟨chunked_sendChunks sizes last trailers, fits⟩ rest
  · intro n extension fits ext isLine
    exact isSizeLine_hex fits ext isLine
  · intro call mem m s malformed input
    refine exchange_throws conn (notHead call mem) call.2 fun one answered close rest begins
      isResponse => ?_
    obtain ⟨x, y, e⟩ := append_of_map (input.symm.trans begins)
    exact malformed.not_response isResponse e
  · intro call mem m q answered close s whole inside stops input
    refine exchange_throws conn (notHead call mem) call.2 fun one answered' close' rest begins
      isResponse => ?_
    obtain ⟨failure, throws⟩ := (exact_response (notHead call mem)).throws_inside
      (a := (answered, close)) whole inside stops
    have returns :=
      (exact_response (notHead call mem)).complete (a := (answered', close')) isResponse rest
    rw [← input, begins, returns] at throws
    cases throws

theorem connection_never_drifts_two :
    ((HttpConn.mk ⟨"127.0.0.1", 8080, false, "", none, 0⟩
      ([ascii "HTTP/1.1 200 OK\r\nContent-Length: 2\r\n\r\nhi",
        ascii "HTTP/1.1 200 OK\r\nTransfer-Encoding: chunked\r\n\r\n2;x\r\nok\r\n0\r\nT: 1\r\n\r\n"
        ].flatten.map .ok) [] true).exchanges
          [(⟨"GET", "/", [], none⟩, none), (⟨"POST", "/", [], none⟩, none)]).1 =
      [(.ok ⟨200, "", ascii "hi"⟩, true), (.ok ⟨200, "", ascii "ok"⟩, true)] := by
  have status : IsStatusLine (ascii "HTTP/1.1 200 OK") 200 :=
    ⟨0x31, ascii "200", ascii " OK", by decide, by decide, by decide⟩
  have field (name value : Bytes) (h : IsLine (name ++ 0x3A :: value))
      (h' : IsField (name ++ 0x3A :: value) (toLowerCase name, trim value)) :
      IsHeaders [name ++ 0x3A :: value] [(toLowerCase name, trim value)] :=
    ⟨List.forall_mem_singleton.2 h, .cons h' .nil⟩
  have first : IsResponse (ascii "HTTP/1.1 200 OK\r\nContent-Length: 2\r\n\r\nhi")
      ⟨200, "", ascii "hi"⟩ !true :=
    ⟨⟨_, _, _, ascii "hi", by decide, by decide, status,
      field (ascii "Content-Length") (ascii " 2") (by decide)
        (.mk (by decide) (by decide) (by decide) (by decide)),
      by decide, @Framed.length _ _ (ascii "2") _ (by decide) (by decide) (by decide) (by decide),
      by decide, by decide⟩, by decide⟩
  have size : IsSizeLine (ascii "2;x") 2 :=
    ⟨by decide, ascii "2", ascii ";x", by decide, by decide, by decide, .inr (by decide)⟩
  have zero : IsSizeLine (ascii "0") 0 :=
    ⟨by decide, ascii "0", [], by decide, by decide, by decide, .inl rfl⟩
  have chunks : Chunked (ascii "2;x\r\nok\r\n0\r\nT: 1\r\n\r\n") (ascii "ok") :=
    @Chunked.chunk _ (ascii "ok") _ _ size (by decide)
      (.last zero ⟨[ascii "T: 1"], by decide, by decide⟩)
  have second : IsResponse
      (ascii "HTTP/1.1 200 OK\r\nTransfer-Encoding: chunked\r\n\r\n2;x\r\nok\r\n0\r\nT: 1\r\n\r\n")
      ⟨200, "", ascii "ok"⟩ !true :=
    ⟨⟨_, _, _, _, by decide, by decide, status,
      field (ascii "Transfer-Encoding") (ascii " chunked") (by decide)
        (.mk (by decide) (by decide) (by decide) (by decide)),
      by decide, .chunked (by decide) rfl (by decide) chunks, by decide, by decide⟩, by decide⟩
  exact ((connection_never_drifts _ _ (by decide)).2.1 _ [(_, true), (_, true)] [] (by decide) rfl
    (.cons first (.cons second .nil)) (List.append_nil _).symm).1

end HttpConn

end JavaWasm

end ReceiptVerifier
