import ReceiptVerifier.Openssl.Payload
import ReceiptVerifier.Verify.Envelope

/-!
# What the helpers find in a walked value

`children` and `octetStringExact` measure values again, with a recursion and a depth bound of their
own. On a value the walk accepted they see the one tree the walk saw: `children_encode` and
`octetStringWithin_eq` compute both from it, and that no chunk goes unseen follows.
-/

namespace ReceiptVerifier

namespace Openssl

open Ber (Header Tree eoc isLongLength)

variable {g : Asn1GetObject}

/-! ## `children` -/

theorem sizeOfValue_eq {t : Tree} {tail : Bytes} (wf : t.WF (headerReader g) tail)
    (depth : t.depth ≤ helperDepth) (count : t.count ≤ usizeMax) :
    sizeOfValue g (t.encode ++ tail) = some ⟨t.encode.length, Tree.two_le_length wf⟩ := by
  have reads : Reads g ⟨helperDepth, .ber, none⟩ usizeMax tail 0 0 (usizeMax - t.count) t :=
    ⟨wf, .inr (by rwa [Nat.zero_add]), Nat.add_sub_of_le count,
      (accepts_plain_iff t 0 wf).mpr (by simp)⟩
  rw [sizeOfValue, value_complete t _ _ _ _ _ ⟨t.encode.length, Tree.two_le_length wf⟩ reads rfl]

/-- What follows the last value inside a value, in the slice they are read from. -/
def following (indefinite : Bool) (tail : Bytes) : Bytes :=
  if indefinite then eoc ++ tail else []

theorem inner_eq_following {t : Tree} {tail : Bytes} (wf : t.WF (headerReader g) tail) :
    t.inner tail = following t.header.indefinite tail := by
  cases t with
  | primitive h hd content =>
    cases indefinite : h.indefinite with
    | false => simp [Tree.inner, Tree.header, following, indefinite]
    | true =>
      have constructed := ((headerReader g).indefinite_constructed wf.1 indefinite).1
      exact absurd (wf.2.1.symm.trans constructed) Bool.false_ne_true
  | definite h hd ts => simp [Tree.inner, Tree.header, following, wf.2.2.1]
  | indefinite h hd ts => simp [Tree.inner, Tree.header, following, wf.2.2.1]

/-- What the loop of `children` sees: the values, and where they stop. -/
theorem childrenFrom_eq {indefinite : Bool} {tail : Bytes} : ∀ ts : List Tree,
    Tree.WFAll (headerReader g) (following indefinite tail) ts →
    (∀ t ∈ ts, t.depth ≤ helperDepth ∧ t.count ≤ usizeMax) →
    (indefinite = true → ∀ t ∈ ts, ¬ eoc <+: t.encode) →
    childrenFrom g indefinite (Tree.encodeAll ts ++ following indefinite tail) =
      some (ts.map Tree.encode)
  | [], _, _, _ => by
    cases indefinite <;> (rw [Tree.encodeAll, following, childrenFrom.eq_def]; rfl)
  | t :: ts, ⟨wf, wfAll⟩, bounds, noEoc => by
    obtain ⟨⟨depth, count⟩, later⟩ := List.forall_mem_cons.mp bounds
    have next := childrenFrom_eq ts wfAll later
      fun stops => (List.forall_mem_cons.mp (noEoc stops)).2
    rw [Tree.encodeAll, List.append_assoc]
    have stays : ¬ (indefinite = true ∧
        eoc <+: t.encode ++ (Tree.encodeAll ts ++ following indefinite tail)) :=
          fun ⟨stops, here⟩ =>
      Tree.not_eoc_append wf (List.forall_mem_cons.mp (noEoc stops)).1 _ here
    obtain ⟨first, more, cons⟩ := Tree.encode_append_eq_cons wf
      (Tree.encodeAll ts ++ following indefinite tail)
    have sized := sizeOfValue_eq wf depth count
    rw [cons] at sized stays ⊢
    rw [childrenFrom, if_neg (by rwa [Bool.and_eq_true, isPrefixOf_eoc_iff]), sized]
    dsimp only
    rw [← cons, List.drop_left, List.take_left, next]
    rfl

/-- **`children` finds the children.** -/
theorem children_encode {t : Tree} {tail : Bytes} (wf : t.WF (headerReader g) tail)
    (depth : t.depth ≤ helperDepth) (count : t.count ≤ usizeMax) :
    children g (t.encode ++ tail) =
      if t.header.constructed then some (t.children.map Tree.encode) else none := by
  have bounds : ∀ c ∈ t.children, c.depth ≤ helperDepth ∧ c.count ≤ usizeMax := fun c mem =>
    ⟨Nat.le_trans (Nat.le_of_lt (Tree.depth_children c mem)) depth,
      Nat.le_trans (Nat.le_of_lt (Tree.count_children c mem)) count⟩
  have read : header g (t.encode ++ tail) = some t.header := Tree.header_encode wf
  rw [children, read]
  cases t with
  | primitive h hd content =>
    have primitive : h.constructed = false := wf.2.1
    simp only [Tree.header, primitive, if_true, Bool.false_eq_true, if_false]
  | definite h hd ts =>
    obtain ⟨_, constructed, definite, headLength, contentLength, wfAll⟩ := wf
    simp only [Tree.header, constructed, definite, Bool.true_eq_false, Bool.false_eq_true, if_true,
      if_false]
    rw [headLength, contentLength, Tree.encode, List.append_assoc, List.drop_left, List.take_left,
      ← List.append_nil (Tree.encodeAll ts)]
    exact @childrenFrom_eq g false tail ts wfAll bounds
      fun stops => absurd stops Bool.false_ne_true
  | indefinite h hd ts =>
    obtain ⟨_, constructed, indefinite, headLength, wfAll, noEoc⟩ := wf
    simp only [Tree.header, constructed, indefinite, Bool.true_eq_false, if_true, if_false]
    rw [headLength, Tree.encode, List.append_assoc, List.drop_left, List.append_assoc]
    exact childrenFrom_eq ts wfAll bounds fun _ => noEoc

/-! ## `octetStringExact` -/

/-- A header of a universal `OCTET STRING`. -/
def isOctetString (h : Header) : Bool :=
  h.cls == vAsn1Universal && h.tag == vAsn1OctetString

/-- `octetStringWithin` once the header is read. -/
theorem octetStringWithin_of_header {input : Bytes} {h : Header} (e : header g input = some h)
    (depthLeft : Nat) :
    octetStringWithin g input depthLeft =
      if isOctetString h = false then .error .foreign
      else if h.constructed = false then
        .ok ⟨definiteSize h, Nat.le_add_right_of_le ((headerReader g).two_le_head e)⟩
      else
        match depthLeft with
        | 0 => .error .malformed
        | depthLeft + 1 =>
          match
            if h.indefinite then chunksUntilEoc g (input.drop h.head) depthLeft
            else chunksFilling g ((input.drop h.head).take h.content) depthLeft with
          | .error err => .error err
          | .ok walked =>
            .ok ⟨h.head + walked, Nat.le_add_right_of_le ((headerReader g).two_le_head e)⟩ := by
  have foreign : (h.tag ≠ vAsn1OctetString ∨ h.cls ≠ vAsn1Universal) ↔ isOctetString h = false := by
    rw [isOctetString, Bool.and_eq_false_iff, beq_eq_false_iff_ne, beq_eq_false_iff_ne, or_comm]
  rw [octetStringWithin]
  split
  · rename_i headerNone
    cases headerNone.symm.trans e
  · rename_i h' headerSome
    obtain rfl : h' = h := Option.some.inj (headerSome.symm.trans e)
    exact if_congr foreign rfl rfl

/-- The size of a value before `tail`, or that it holds a foreign chunk. -/
def Measured (g : Asn1GetObject) (tail : Bytes) (t : Tree) : Prop :=
  ∀ (depthLeft : Nat) (size : Size), t.depth ≤ depthLeft → size.1 = t.encode.length →
    octetStringWithin g (t.encode ++ tail) depthLeft =
      if t.allHeaders isOctetString then .ok size else .error .foreign

theorem chunksUntilEoc_eq {depthLeft : Nat} {tail : Bytes} : ∀ ts : List Tree,
    Tree.WFAll (headerReader g) (eoc ++ tail) ts →
    (∀ p ∈ Tree.placed (eoc ++ tail) ts, Measured g p.2 p.1) → Tree.depthAll ts ≤ depthLeft →
    (∀ t ∈ ts, ¬ eoc <+: t.encode) →
    chunksUntilEoc g (Tree.encodeAll ts ++ (eoc ++ tail)) depthLeft =
      if Tree.allHeadersAll isOctetString ts then .ok (Tree.encodeAll ts ++ eoc).length
      else .error .foreign
  | [], _, _, _, _ => by
    rw [Tree.encodeAll, List.nil_append, eoc, List.cons_append, chunksUntilEoc]
    rfl
  | t :: ts, wf, each, depth, noEoc => by
    obtain ⟨own, later⟩ := List.forall_mem_cons.mp each
    obtain ⟨ownEoc, laterEoc⟩ := List.forall_mem_cons.mp noEoc
    obtain ⟨ownDepth, laterDepth⟩ := Nat.max_le.mp depth
    have stays := Tree.not_eoc_append wf.1 ownEoc (Tree.encodeAll ts ++ (eoc ++ tail))
    have first := own depthLeft ⟨t.encode.length, Tree.two_le_length wf.1⟩ ownDepth rfl
    have next := chunksUntilEoc_eq ts wf.2 later laterDepth laterEoc
    obtain ⟨octet, more, cons⟩ :=
      Tree.encode_append_eq_cons wf.1 (Tree.encodeAll ts ++ (eoc ++ tail))
    rw [Tree.encodeAll, List.append_assoc]
    rw [cons] at first stays ⊢
    rw [chunksUntilEoc, if_neg (by rwa [isPrefixOf_eoc_iff]), first, Tree.allHeadersAll]
    cases t.allHeaders isOctetString with
    | false => rfl
    | true =>
      simp only [if_true, Bool.true_and]
      rw [← cons, List.drop_left, next]
      cases Tree.allHeadersAll isOctetString ts with
      | false => rfl
      | true => simp

theorem chunksFilling_eq {depthLeft : Nat} : ∀ ts : List Tree,
    Tree.WFAll (headerReader g) [] ts → (∀ p ∈ Tree.placed [] ts, Measured g p.2 p.1) →
    Tree.depthAll ts ≤ depthLeft →
    chunksFilling g (Tree.encodeAll ts) depthLeft =
      if Tree.allHeadersAll isOctetString ts then .ok (Tree.encodeAll ts).length
      else .error .foreign
  | [], _, _, _ => by
    rw [Tree.encodeAll, chunksFilling]
    rfl
  | t :: ts, wf, each, depth => by
    obtain ⟨own, later⟩ := List.forall_mem_cons.mp each
    obtain ⟨ownDepth, laterDepth⟩ := Nat.max_le.mp depth
    have two := Tree.two_le_length wf.1
    have first := own depthLeft ⟨t.encode.length, two⟩ ownDepth rfl
    have next := chunksFilling_eq ts wf.2 later laterDepth
    obtain ⟨octet, more, cons⟩ := Tree.encode_append_eq_cons wf.1 (Tree.encodeAll ts)
    rw [List.append_nil, cons] at first
    rw [Tree.encodeAll, cons, chunksFilling, first, Tree.allHeadersAll]
    cases t.allHeaders isOctetString with
    | false => rfl
    | true =>
      simp only [if_true, Bool.true_and]
      rw [← cons, List.drop_left, next]
      cases Tree.allHeadersAll isOctetString ts with
      | false => rfl
      | true => simp

/-- **`octetStringWithin` looks at every chunk.** -/
theorem octetStringWithin_eq (t : Tree) {tail : Bytes} (wf : t.WF (headerReader g) tail) :
    Measured g tail t := by
  induction t using Tree.induction_children generalizing tail with
  | own t ih =>
    have each : ∀ p ∈ Tree.placed (t.inner tail) t.children, Measured g p.2 p.1 := fun p mem =>
      ih p.1 (Tree.mem_of_mem_placed p mem) (Tree.wfAll_iff.mp (Tree.wf_children wf) p mem)
    intro depthLeft size depth sized
    have read : header g (t.encode ++ tail) = some t.header := Tree.header_encode wf
    rw [octetStringWithin_of_header read]
    cases t with
    | primitive h hd content =>
      obtain ⟨_, primitive, headLength, contentLength⟩ := wf
      have whole : definiteSize h = size.1 := by
        rw [definiteSize, headLength, contentLength, sized, Tree.encode, List.length_append]
      simp only [Tree.header, Tree.allHeaders, primitive, if_true]
      rcases Bool.eq_false_or_eq_true (isOctetString h) with octet | foreign
      · simpa [octet] using Subtype.ext whole
      · simp [foreign]
    | definite h hd ts =>
      obtain ⟨_, constructed, definite, headLength, contentLength, wfAll⟩ := wf
      obtain ⟨depthLeft, rfl⟩ : ∃ d, depthLeft = d + 1 := ⟨depthLeft - 1, by
        rw [Tree.depth] at depth; omega⟩
      have inside : Tree.depthAll ts ≤ depthLeft := by rw [Tree.depth] at depth; omega
      have content : (((Tree.definite h hd ts).encode ++ tail).drop h.head).take h.content =
          Tree.encodeAll ts := by
        rw [headLength, contentLength, Tree.encode, List.append_assoc, List.drop_left,
          List.take_left]
      have chunks := chunksFilling_eq ts wfAll each inside
      simp only [Tree.header, Tree.allHeaders, constructed, definite, Bool.true_eq_false,
        Bool.false_eq_true, if_false, content, chunks]
      rcases Bool.eq_false_or_eq_true (isOctetString h) with octet | foreign
      · rcases Bool.eq_false_or_eq_true (Tree.allHeadersAll isOctetString ts) with all | some
        · simp [octet, all, Subtype.ext_iff, sized, headLength, Tree.encode]
        · simp [octet, some]
      · simp [foreign]
    | indefinite h hd ts =>
      obtain ⟨_, constructed, indefinite, headLength, wfAll, noEoc⟩ := wf
      obtain ⟨depthLeft, rfl⟩ : ∃ d, depthLeft = d + 1 := ⟨depthLeft - 1, by
        rw [Tree.depth] at depth; omega⟩
      have inside : Tree.depthAll ts ≤ depthLeft := by rw [Tree.depth] at depth; omega
      have content : ((Tree.indefinite h hd ts).encode ++ tail).drop h.head =
          Tree.encodeAll ts ++ (eoc ++ tail) := by
        rw [headLength, Tree.encode, List.append_assoc, List.drop_left, List.append_assoc]
      have chunks := chunksUntilEoc_eq ts wfAll each inside noEoc
      simp only [Tree.header, Tree.allHeaders, constructed, indefinite, Bool.true_eq_false, if_true,
        if_false, content, chunks]
      rcases Bool.eq_false_or_eq_true (isOctetString h) with octet | foreign
      · rcases Bool.eq_false_or_eq_true (Tree.allHeadersAll isOctetString ts) with all | some
        · simp [octet, all, Subtype.ext_iff, sized, headLength, Tree.encode]
        · simp [octet, some]
      · simp [foreign]

theorem octetStringExact_eq {t : Tree} (wf : t.WF (headerReader g) [])
    (depth : t.depth ≤ helperDepth) : octetStringExact g t.encode =
      if t.allHeaders isOctetString then .ok () else .error .foreign := by
  have measured := octetStringWithin_eq t wf helperDepth
    ⟨t.encode.length, Tree.two_le_length wf⟩ depth rfl
  rw [List.append_nil] at measured
  rw [octetStringExact, octetString, measured]
  cases t.allHeaders isOctetString with
  | false => rfl
  | true => exact if_pos rfl

/-! ## The parts of a constructed value -/

/-- The octets are one value by the plain walk where they stand, `tail` following them. -/
def IsValueBefore (g : Asn1GetObject) (tail v : Bytes) : Prop :=
  ∃ depth nodes size left,
    Walker.value g ⟨depth, .ber, none⟩ nodes (v ++ tail) 0 0 = .ok (size, left) ∧
      size.1 = v.length

/-- Slices one after another, each beside what follows it. -/
def standing (after : Bytes) : List Bytes → List (Bytes × Bytes)
  | [] => []
  | part :: parts => (part, parts.flatten ++ after) :: standing after parts

/-- The values a constructed value before `tail` consists of, each one value where it stands, with
nothing before, between or after them but the end-of-contents octets of an indefinite length. -/
structure Parts (g : Asn1GetObject) (tail v : Bytes) (h : Header) (parts : List Bytes) : Prop where
  read : header g (v ++ tail) = some h
  constructed : h.constructed = true
  within : h.head ≤ v.length
  whole : v = v.take h.head ++ (parts.flatten ++ if h.indefinite then eoc else [])
  length : h.indefinite = false → h.content = parts.flatten.length
  values : ∀ p ∈ standing (following h.indefinite tail) parts, IsValueBefore g p.2 p.1
  stops : h.indefinite = true → ∀ part ∈ parts, ¬ eoc <+: part

/-- A value that `children`, given it alone, divides into its parts, and each of them again, down to
the primitive ones. Nothing is found in a value that is nothing but a header and alone is not read:
it has no parts. -/
inductive Divided (g : Asn1GetObject) : Bytes → Bytes → Prop
  | primitive {tail v : Bytes} {h : Header} (read : header g (v ++ tail) = some h)
    (primitive : h.constructed = false) (whole : definiteSize h = v.length) : Divided g tail v
  | bare {tail v : Bytes} {h : Header} (own : Parts g tail v h []) (whole : h.head = v.length)
    (long : isLongLength v = true) (unread : header g v = none) : Divided g tail v
  | constructed {tail v : Bytes} {h : Header} {parts : List Bytes} (own : Parts g tail v h parts)
    (found : children g v = some parts)
    (each : ∀ p ∈ standing (following h.indefinite tail) parts, Divided g p.2 p.1) :
    Divided g tail v

/-- A universal `OCTET STRING` before `tail`, and so is every chunk of it at every depth. -/
inductive OctetStrings (g : Asn1GetObject) : Bytes → Bytes → Prop
  | primitive {tail v : Bytes} {h : Header} (read : header g (v ++ tail) = some h)
    (string : isOctetString h = true) (primitive : h.constructed = false) : OctetStrings g tail v
  | constructed {tail v : Bytes} {h : Header} {chunks : List Bytes} (own : Parts g tail v h chunks)
    (string : isOctetString h = true)
    (each : ∀ p ∈ standing (following h.indefinite tail) chunks, OctetStrings g p.2 p.1) :
    OctetStrings g tail v

theorem isValueBefore_iff {tail v : Bytes} :
    IsValueBefore g tail v ↔ ∃ t : Tree, t.WF (headerReader g) tail ∧ t.encode = v := by
  constructor
  · rintro ⟨depth, nodes, size, left, accepted, sized⟩
    obtain ⟨t, rest, same, reads, whole⟩ := value_eq_ok_iff.mp accepted
    obtain ⟨rfl, rfl⟩ := List.append_inj same (sized.symm.trans whole.symm)
    exact ⟨t, reads.wf, rfl⟩
  · rintro ⟨t, wf, rfl⟩
    exact ⟨t.depth, t.count, ⟨t.encode.length, Tree.two_le_length wf⟩, 0,
      value_complete t _ _ _ _ _ _ ⟨wf, .inr (Nat.le_of_eq (Nat.zero_add _)), Nat.add_zero _,
        (accepts_plain_iff t 0 wf).mpr (by simp)⟩ rfl, rfl⟩

theorem standing_encode (after : Bytes) (ts : List Tree) :
    standing after (ts.map Tree.encode) = (Tree.placed after ts).map fun p =>
      (p.1.encode, p.2) := by
  induction ts with
  | nil => rfl
  | cons t ts ih =>
    rw [List.map_cons, standing, ih, ← Tree.encodeAll_eq_flatten, Tree.placed, List.map_cons]

/-- A property of the parts, each where it stands, is one of the values they encode. -/
theorem forall_standing_iff {after : Bytes} {ts : List Tree} {P : Bytes × Bytes → Prop} :
    (∀ p ∈ standing after (ts.map Tree.encode), P p) ↔
      ∀ p ∈ Tree.placed after ts, P (p.1.encode, p.2) := by
  rw [standing_encode, List.forall_mem_map]

theorem exists_trees_standing {after : Bytes} {parts : List Bytes}
    (values : ∀ p ∈ standing after parts, IsValueBefore g p.2 p.1) :
    ∃ ts : List Tree, ts.map Tree.encode = parts ∧ Tree.WFAll (headerReader g) after ts := by
  induction parts with
  | nil => exact ⟨[], rfl, trivial⟩
  | cons part parts ih =>
    obtain ⟨value, later⟩ := List.forall_mem_cons.mp values
    obtain ⟨t, wf, rfl⟩ := isValueBefore_iff.mp value
    obtain ⟨ts, rfl, wfAll⟩ := ih later
    rw [← Tree.encodeAll_eq_flatten] at wf
    exact ⟨t :: ts, rfl, wf, wfAll⟩

theorem parts_of_tree {t : Tree} {tail : Bytes} (wf : t.WF (headerReader g) tail)
    (constructed : t.header.constructed = true) :
    Parts g tail t.encode t.header (t.children.map Tree.encode) where
  read := Tree.header_encode wf
  constructed := constructed
  within := by
    rw [Tree.head_length wf]
    exact (Tree.head_starts t).length_le
  whole := by
    rw [← Tree.encodeAll_eq_flatten]
    cases t with
    | primitive => exact absurd (wf.2.1.symm.trans constructed) Bool.false_ne_true
    | definite h hd ts =>
      obtain ⟨_, _, definite, headLength, _, _⟩ := wf
      simp [Tree.header, Tree.children, Tree.encode, definite, headLength]
    | indefinite h hd ts =>
      obtain ⟨_, _, indefinite, headLength, _, _⟩ := wf
      simp [Tree.header, Tree.children, Tree.encode, indefinite, headLength]
  length definite := by
    rw [← Tree.encodeAll_eq_flatten]
    cases t with
    | primitive => exact absurd (wf.2.1.symm.trans constructed) Bool.false_ne_true
    | definite => exact wf.2.2.2.2.1
    | indefinite => exact absurd (definite.symm.trans wf.2.2.1) Bool.false_ne_true
  values := by
    rw [← inner_eq_following wf, forall_standing_iff]
    exact fun p mem => isValueBefore_iff.mpr
      ⟨p.1, Tree.wfAll_iff.mp (Tree.wf_children wf) p mem, rfl⟩
  stops indefinite := by
    rintro _ mem
    obtain ⟨c, inside, rfl⟩ := List.mem_map.mp mem
    exact Tree.not_eoc_of_indefinite wf indefinite c inside

/-- A value has no other parts. -/
theorem Parts.eq_of_tree {t : Tree} {tail : Bytes} (wf : t.WF (headerReader g) tail) {h : Header}
    {parts : List Bytes} (own : Parts g tail t.encode h parts) :
    h = t.header ∧ parts = t.children.map Tree.encode := by
  obtain ⟨read, constructed, within, whole, length, values, stops⟩ := own
  have headLength : h.head = (t.encode.take h.head).length := by
    rw [List.length_take, Nat.min_eq_left within]
  obtain ⟨ts, rfl, wfAll⟩ := exists_trees_standing values
  rw [← Tree.encodeAll_eq_flatten] at whole length
  have same : ∀ t' : Tree, t'.WF (headerReader g) tail → t'.encode = t.encode → t' = t :=
    fun t' wf' encoded => Tree.unambiguous t' t tail tail wf' wf (congrArg (· ++ tail) encoded)
  cases indefinite : h.indefinite with
  | false =>
    rw [indefinite, if_neg Bool.false_ne_true, List.append_nil] at whole
    rw [indefinite] at wfAll
    have tree := same (.definite h (t.encode.take h.head) ts)
      ⟨whole ▸ read, constructed, indefinite, headLength, length indefinite, wfAll⟩ whole.symm
    exact ⟨congrArg Tree.header tree, congrArg (fun t => t.children.map Tree.encode) tree⟩
  | true =>
    rw [indefinite, if_pos rfl] at whole
    rw [indefinite] at wfAll
    have tree := same (.indefinite h (t.encode.take h.head) ts)
      ⟨whole ▸ read, constructed, indefinite, headLength, wfAll,
        fun c mem => stops indefinite c.encode (List.mem_map_of_mem mem)⟩ whole.symm
    exact ⟨congrArg Tree.header tree, congrArg (fun t => t.children.map Tree.encode) tree⟩

/-- A value that is nothing but a header has no values inside. -/
theorem children_of_bare {t : Tree} {tail : Bytes} (wf : t.WF (headerReader g) tail)
    (bare : t.IsBare) : t.children = [] := by
  have nothing := bare.1
  cases t with
  | primitive => rfl
  | definite h hd ts =>
    cases ts with
    | nil => rfl
    | cons c cs =>
      have empty : Tree.encodeAll (c :: cs) = [] := List.append_right_eq_self.mp nothing
      exact absurd (List.append_eq_nil_iff.mp empty).1
        (Tree.encode_ne_nil (Tree.wf_children wf).1)
  | indefinite h hd ts =>
    have empty : Tree.encodeAll ts ++ eoc = [] := List.append_right_eq_self.mp nothing
    exact absurd (List.append_eq_nil_iff.mp empty).2 (by decide)

theorem divided_encode (t : Tree) {tail : Bytes} (wf : t.WF (headerReader g) tail)
    (depth : t.depth ≤ helperDepth) (count : t.count ≤ usizeMax) : Divided g tail t.encode := by
  induction t using Tree.induction_children generalizing tail with
  | own t ih =>
    cases constructed : t.header.constructed with
    | false =>
      refine .primitive (Tree.header_encode wf) constructed ?_
      cases t with
      | primitive h hd content =>
        rw [definiteSize, Tree.header, wf.2.2.1, wf.2.2.2, Tree.encode, List.length_append]
      | definite => exact absurd (constructed.symm.trans wf.2.1) Bool.false_ne_true
      | indefinite => exact absurd (constructed.symm.trans wf.2.1) Bool.false_ne_true
    | true =>
      have own := parts_of_tree wf constructed
      obtain alone | ⟨bare, unread⟩ := wf.alone_or_bare
      · have found := children_encode alone depth count
        rw [List.append_nil, constructed, if_pos rfl] at found
        refine .constructed own found ?_
        rw [← inner_eq_following wf, forall_standing_iff]
        intro p mem
        have inside := Tree.mem_of_mem_placed p mem
        exact ih p.1 inside (Tree.wfAll_iff.mp (Tree.wf_children wf) p mem)
          (Nat.le_trans (Nat.le_of_lt (Tree.depth_children p.1 inside)) depth)
          (Nat.le_trans (Nat.le_of_lt (Tree.count_children p.1 inside)) count)
      · rw [children_of_bare wf bare] at own
        exact .bare own (by rw [Tree.head_length wf, bare.1]) (bare.1 ▸ bare.2) unread

theorem octetStrings_encode_iff (t : Tree) {tail : Bytes} (wf : t.WF (headerReader g) tail) :
    OctetStrings g tail t.encode ↔ t.allHeaders isOctetString = true := by
  induction t using Tree.induction_children generalizing tail with
  | own t ih =>
    have read : header g (t.encode ++ tail) = some t.header := Tree.header_encode wf
    rw [Tree.allHeaders_eq, Bool.and_eq_true, List.all_eq_true]
    constructor
    · rintro (⟨read', string, primitive⟩ | ⟨own, string, each⟩)
      · obtain rfl := Option.some.inj (read'.symm.trans read)
        refine ⟨string, ?_⟩
        cases t with
        | primitive => exact fun c mem => absurd mem List.not_mem_nil
        | definite => exact absurd (primitive.symm.trans wf.2.1) Bool.false_ne_true
        | indefinite => exact absurd (primitive.symm.trans wf.2.1) Bool.false_ne_true
      · obtain ⟨rfl, rfl⟩ := own.eq_of_tree wf
        rw [← inner_eq_following wf, forall_standing_iff] at each
        refine ⟨string, fun c mem => ?_⟩
        obtain ⟨p, placed, rfl⟩ := Tree.exists_mem_placed (t.inner tail) mem
        exact (ih p.1 mem (Tree.wfAll_iff.mp (Tree.wf_children wf) p placed)).mp (each p placed)
    · rintro ⟨string, all⟩
      cases constructed : t.header.constructed with
      | false => exact .primitive read string constructed
      | true =>
        refine .constructed (parts_of_tree wf constructed) string ?_
        rw [← inner_eq_following wf, forall_standing_iff]
        intro p mem
        have inside := Tree.mem_of_mem_placed p mem
        exact (ih p.1 inside (Tree.wfAll_iff.mp (Tree.wf_children wf) p mem)).mpr (all p.1 inside)

/-- `children` of a walked value, given it alone: its parts, unless there is nothing to find. -/
theorem found_or_unread {t : Tree} {tail : Bytes} (wf : t.WF (headerReader g) tail)
    (depth : t.depth ≤ helperDepth) (count : t.count ≤ usizeMax) :
    (children g t.encode = some (t.children.map Tree.encode) ∧
        Parts g tail t.encode t.header (t.children.map Tree.encode)) ∨
      children g t.encode = none ∧ t.children = [] ∧
        (t.header.constructed = false ∨ Parts g tail t.encode t.header []) := by
  cases constructed : t.header.constructed with
  | false =>
    have empty : t.children = [] := by
      cases t with
      | primitive => rfl
      | definite => exact absurd (constructed.symm.trans wf.2.1) Bool.false_ne_true
      | indefinite => exact absurd (constructed.symm.trans wf.2.1) Bool.false_ne_true
    refine .inr ⟨?_, empty, .inl rfl⟩
    obtain alone | ⟨-, unread⟩ := wf.alone_or_bare
    · have found := children_encode alone depth count
      rwa [List.append_nil, constructed, if_neg Bool.false_ne_true] at found
    · have unread : header g t.encode = none := unread
      rw [children, unread]
  | true =>
    have own := parts_of_tree wf constructed
    obtain alone | ⟨bare, unread⟩ := wf.alone_or_bare
    · have found := children_encode alone depth count
      rw [List.append_nil, constructed, if_pos rfl] at found
      exact .inl ⟨found, own⟩
    · have unread : header g t.encode = none := unread
      have empty := children_of_bare wf bare
      rw [empty] at own
      exact .inr ⟨by rw [children, unread], empty, .inr own⟩

/-- What holds of whatever parts a value has holds of the values inside it. -/
theorem forall_parts_iff {t : Tree} {tail : Bytes} (wf : t.WF (headerReader g) tail)
    {P : Header → List Bytes → Prop} :
    (∀ h parts, Parts g tail t.encode h parts → P h parts) ↔
      (t.header.constructed = true → P t.header (t.children.map Tree.encode)) := by
  constructor
  · exact fun all constructed => all _ _ (parts_of_tree wf constructed)
  · intro own h parts found
    obtain ⟨rfl, rfl⟩ := found.eq_of_tree wf
    exact own found.constructed

/-! ## The chunk check -/

variable {ssl : OpenSsl}

/-- What the check asks of one entry. -/
theorem entriesAreOctetStrings_eq_ok_iff (entries : List Bytes) :
    entriesAreOctetStrings ssl entries = .ok () ↔
      ∀ entry ∈ entries, ∀ value, entryValue ssl entry = some value →
        ∀ h, header ssl.asn1 value = some h → h.constructed = true → isOctetString h = true →
          octetStringExact ssl.asn1 value = .ok () := by
  induction entries with
  | nil => simp [entriesAreOctetStrings]
  | cons entry entries ih =>
    rw [List.forall_mem_cons, ← ih, entriesAreOctetStrings]
    cases entryValue ssl entry with
    | none => simp
    | some value =>
      cases read : header ssl.asn1 value with
      | none => simp [read]
      | some h =>
        have asked : (h.constructed && h.cls == vAsn1Universal && h.tag == vAsn1OctetString) =
            (h.constructed && isOctetString h) := Bool.and_assoc _ _ _
        simp only [read, asked, Option.some.injEq, forall_eq']
        cases h.constructed with
        | false => simp
        | true =>
          cases isOctetString h with
          | false => simp
          | true => cases octetStringExact ssl.asn1 value <;> simp

/-- The field of an entry the check looks at is the third value inside it. -/
theorem entryValue_encode {t : Tree} {tail : Bytes} (wf : t.WF (headerReader ssl.asn1) tail)
    (depth : t.depth ≤ helperDepth) (count : t.count ≤ usizeMax) :
    entryValue ssl t.encode = t.children[2]?.map Tree.encode := by
  obtain ⟨found, -⟩ | ⟨missing, empty, -⟩ := found_or_unread wf depth count
  · rw [entryValue, found, Option.bind_some, List.getElem?_map]
  · rw [entryValue, missing, empty]
    rfl

/-- What the check asks of a field: a value that is nothing but a header has no chunk to see. -/
theorem field_checked_iff {t : Tree} {tail : Bytes} (wf : t.WF (headerReader g) tail)
    (depth : t.depth ≤ helperDepth) :
    (∀ h, header g t.encode = some h → h.constructed = true → isOctetString h = true →
        octetStringExact g t.encode = .ok ()) ↔
      (t.header.constructed = true → isOctetString t.header = true →
        t.allHeaders isOctetString = true) := by
  obtain alone | ⟨bare, unread⟩ := wf.alone_or_bare
  · have read := Tree.header_encode alone
    rw [List.append_nil] at read
    have read : header g t.encode = some t.header := read
    simp only [read, Option.some.injEq, forall_eq', octetStringExact_eq alone depth]
    cases t.allHeaders isOctetString <;> simp
  · have unread : header g t.encode = none := unread
    refine iff_of_true (fun h read => ?_) fun _ string => ?_
    · cases unread.symm.trans read
    · rw [Tree.allHeaders_eq, string, children_of_bare wf bare]
      rfl

/-- Every third field of an entry of a SET that is a constructed `OCTET STRING` is one throughout,
each value read where it stands. -/
def ThirdFieldsAreOctetStrings (g : Asn1GetObject) (set : Bytes) : Prop :=
  ∀ h entries, Parts g [] set h entries → ∀ e ∈ standing (following h.indefinite []) entries,
    ∀ h' fields, Parts g e.2 e.1 h' fields →
      ∀ p, (standing (following h'.indefinite e.2) fields)[2]? = some p →
        ∀ k, header g (p.1 ++ p.2) = some k → k.constructed = true → isOctetString k = true →
          OctetStrings g p.2 p.1

theorem thirdFieldsAreOctetStrings_encode_iff {t : Tree} (wf : t.WF (headerReader g) []) :
    ThirdFieldsAreOctetStrings g t.encode ↔ ∀ c ∈ t.children, ∀ d, c.children[2]? = some d →
      d.header.constructed = true → isOctetString d.header = true →
        d.allHeaders isOctetString = true := by
  have wfOf : ∀ p ∈ Tree.placed (t.inner []) t.children, p.1.WF (headerReader g) p.2 :=
    Tree.wfAll_iff.mp (Tree.wf_children wf)
  have entry_iff : ∀ p ∈ Tree.placed (t.inner []) t.children,
      ((∀ h' fields, Parts g p.2 p.1.encode h' fields →
        ∀ q, (standing (following h'.indefinite p.2) fields)[2]? = some q →
          ∀ k, header g (q.1 ++ q.2) = some k → k.constructed = true → isOctetString k = true →
            OctetStrings g q.2 q.1) ↔
        ∀ d, p.1.children[2]? = some d → d.header.constructed = true →
          isOctetString d.header = true → d.allHeaders isOctetString = true) := by
    intro p mem
    have wfP := wfOf p mem
    have fieldsOf := Tree.wfAll_iff.mp (Tree.wf_children wfP)
    rw [forall_parts_iff wfP]
    simp only [← inner_eq_following wfP, standing_encode, List.getElem?_map]
    constructor
    · intro all d third constructed string
      obtain ⟨q, placed, rfl⟩ :=
        Option.map_eq_some_iff.mp ((Tree.getElem?_placed (p.1.inner p.2) _ 2).trans third)
      have wfD := fieldsOf q (List.mem_of_getElem? placed)
      have within := Tree.constructed_of_mem_children wfP (List.mem_of_getElem? third)
      exact (octetStrings_encode_iff q.1 wfD).mp (all within (q.1.encode, q.2) (by rw [placed]; rfl)
        q.1.header (Tree.header_encode wfD) constructed string)
    · intro all _ q third k read constructed string
      obtain ⟨d, placed, rfl⟩ := Option.map_eq_some_iff.mp third
      have wfD := fieldsOf d (List.mem_of_getElem? placed)
      obtain rfl : d.1.header = k := Option.some.inj ((Tree.header_encode wfD).symm.trans read)
      exact (octetStrings_encode_iff d.1 wfD).mpr
        (all d.1 (by rw [← Tree.getElem?_placed (p.1.inner p.2), placed]; rfl) constructed string)
  rw [ThirdFieldsAreOctetStrings, forall_parts_iff wf, ← inner_eq_following wf]
  constructor
  · intro all c mem
    have within := Tree.constructed_of_mem_children wf mem
    obtain ⟨p, placed, rfl⟩ := Tree.exists_mem_placed (t.inner []) mem
    exact (entry_iff p placed).mp (forall_standing_iff.mp (all within) p placed)
  · intro all _
    exact forall_standing_iff.mpr fun p placed =>
      (entry_iff p placed).mpr (all p.1 (Tree.mem_of_mem_placed p placed))

/-- The check on a constructed value: whether every third field that is a constructed `OCTET STRING`
is one throughout. -/
theorem valuesAreOctetStrings_encode_iff {t : Tree} (wf : t.WF (headerReader ssl.asn1) [])
    (depth : t.depth ≤ helperDepth) (count : t.count ≤ usizeMax) :
    valuesAreOctetStrings ssl t.encode = .ok () ↔ ThirdFieldsAreOctetStrings ssl.asn1 t.encode := by
  rw [thirdFieldsAreOctetStrings_encode_iff wf]
  obtain ⟨found, -⟩ | ⟨missing, empty, -⟩ := found_or_unread wf depth count
  · rw [valuesAreOctetStrings, found]
    dsimp only
    rw [entriesAreOctetStrings_eq_ok_iff, List.forall_mem_map]
    refine forall₂_congr fun c mem => ?_
    obtain ⟨p, placed, rfl⟩ := Tree.exists_mem_placed (t.inner []) mem
    have wfC := Tree.wfAll_iff.mp (Tree.wf_children wf) p placed
    have shallow := Nat.le_of_lt (Tree.depth_children p.1 mem)
    have few := Nat.le_of_lt (Tree.count_children p.1 mem)
    simp only [entryValue_encode wfC (Nat.le_trans shallow depth) (Nat.le_trans few count),
      Option.map_eq_some_iff, forall_exists_index, and_imp, forall_apply_eq_imp_iff₂]
    refine forall₂_congr fun d third => ?_
    have inside := List.mem_of_getElem? third
    obtain ⟨q, placed', rfl⟩ := Tree.exists_mem_placed (p.1.inner p.2) inside
    exact field_checked_iff (Tree.wfAll_iff.mp (Tree.wf_children wfC) q placed')
      (Nat.le_trans (Nat.le_of_lt (Tree.depth_children q.1 inside)) (Nat.le_trans shallow depth))
  · rw [valuesAreOctetStrings, missing, empty]
    simp

/-- **The chunk check is never skipped.** On a value a walk of depth 256 at most accepted,
`children` divides every constructed value into exactly its parts, but for one that is nothing but a
header and alone is not read; `valuesAreOctetStrings` accepts exactly when every constructed `OCTET
STRING` in the third field of an entry has only `OCTET STRING` chunks; and it passes over a SET, an
entry or a field only when that is not constructed, has fewer than three fields, or has nothing
inside. -/
theorem chunks_never_skipped (ssl : OpenSsl) {der : Bytes} {budget : Budget} {headers : Headers}
    {primitive : Option (Bytes → Bool)} (depth : budget.depth ≤ 256)
    (nodes : budget.nodes ≤ usizeMax)
    (accepted : walkExact ssl.asn1 der budget headers primitive = .ok ()) :
    Divided ssl.asn1 [] der ∧
    (valuesAreOctetStrings ssl der = .ok () ↔ ThirdFieldsAreOctetStrings ssl.asn1 der) ∧
    (children ssl.asn1 der = none → ∃ h, header ssl.asn1 der = some h ∧ h.constructed = false) ∧
    ∀ entries, children ssl.asn1 der = some entries → ∃ h, Parts ssl.asn1 [] der h entries ∧
      ∀ e ∈ standing (following h.indefinite []) entries,
        (children ssl.asn1 e.1 = none → ∃ h', header ssl.asn1 (e.1 ++ e.2) = some h' ∧
          (h'.constructed = false ∨ Parts ssl.asn1 e.2 e.1 h' [])) ∧
        (∀ fields, children ssl.asn1 e.1 = some fields → entryValue ssl e.1 = none →
          ∃ h', Parts ssl.asn1 e.2 e.1 h' fields ∧ fields.length < 3) ∧
        ∀ value, entryValue ssl e.1 = some value → (∃ k, header ssl.asn1 value = some k) ∨
          ∃ after k, header ssl.asn1 (value ++ after) = some k ∧ k.head = value.length := by
  obtain ⟨t, wf, rfl, deep, count, -⟩ := walkExact_eq_ok_iff.mp accepted
  have depth' : t.depth ≤ helperDepth := Nat.le_trans deep depth
  have count' : t.count ≤ usizeMax := Nat.le_trans count nodes
  have read := Tree.header_encode wf
  rw [List.append_nil] at read
  have own := children_encode wf depth' count'
  rw [List.append_nil] at own
  refine ⟨divided_encode t wf depth' count', valuesAreOctetStrings_encode_iff wf depth' count',
    fun missing => ⟨t.header, read, ?_⟩, fun entries found => ?_⟩
  · cases constructed : t.header.constructed with
    | false => rfl
    | true =>
      rw [missing, constructed] at own
      cases own
  · cases constructed : t.header.constructed with
    | false =>
      rw [found, constructed] at own
      cases own
    | true =>
      obtain rfl : entries = t.children.map Tree.encode := by
        rw [found, constructed] at own
        exact Option.some.inj own
      refine ⟨t.header, parts_of_tree wf constructed, ?_⟩
      rw [← inner_eq_following wf]
      refine forall_standing_iff.mpr fun p placed => ?_
      have mem := Tree.mem_of_mem_placed p placed
      have wfC := Tree.wfAll_iff.mp (Tree.wf_children wf) p placed
      have shallow := Nat.le_trans (Nat.le_of_lt (Tree.depth_children p.1 mem)) depth'
      have few := Nat.le_trans (Nat.le_of_lt (Tree.count_children p.1 mem)) count'
      have field := entryValue_encode wfC shallow few
      have answer := found_or_unread wfC shallow few
      refine ⟨fun missing => ?_, fun fields some none => ?_, fun value some => ?_⟩
      · obtain ⟨some, -⟩ | ⟨-, -, nothing⟩ := answer
        · cases missing.symm.trans some
        · exact ⟨p.1.header, Tree.header_encode wfC, nothing⟩
      · obtain ⟨found', own⟩ | ⟨missing, -⟩ := answer
        · obtain rfl := Option.some.inj (some.symm.trans found')
          rw [entryValue, some, Option.bind_some, List.getElem?_eq_none_iff] at none
          exact ⟨p.1.header, own, Nat.lt_succ_of_le none⟩
        · cases missing.symm.trans some
      · rw [field] at some
        obtain ⟨d, third, rfl⟩ := Option.map_eq_some_iff.mp some
        obtain ⟨q, placed', rfl⟩ :=
          Tree.exists_mem_placed (p.1.inner p.2) (List.mem_of_getElem? third)
        have wfD := Tree.wfAll_iff.mp (Tree.wf_children wfC) q placed'
        obtain alone | ⟨bare, -⟩ := wfD.alone_or_bare
        · have read := Tree.header_encode alone
          rw [List.append_nil] at read
          exact .inl ⟨q.1.header, read⟩
        · exact .inr ⟨q.2, q.1.header, Tree.header_encode wfD, by rw [Tree.head_length wfD, bare.1]⟩

/-- A SET of an entry that is nothing but a header and an attribute whose value joins an OCTET
STRING and a UTF8String. -/
theorem chunks_never_skipped_foreign :
    Divided Sample.openSsl.asn1 []
      [0x31, 19, 0x30, 0x81, 0, 0x30, 14, 2, 1, 5, 2, 1, 1, 0x24, 6, 4, 1, 0x61, 0x0c, 1, 0x62] ∧
    ¬ ThirdFieldsAreOctetStrings Sample.openSsl.asn1
      [0x31, 19, 0x30, 0x81, 0, 0x30, 14, 2, 1, 5, 2, 1, 1, 0x24, 6, 4, 1, 0x61, 0x0c, 1,
        0x62] := by
  have accepted : walkExact Sample.openSsl.asn1
      [0x31, 19, 0x30, 0x81, 0, 0x30, 14, 2, 1, 5, 2, 1, 1, 0x24, 6, 4, 1, 0x61, 0x0c, 1, 0x62]
      ⟨32, 10⟩ .short (some Sample.openSsl.decodesAsAny) = .ok () := by decide +kernel
  have ⟨divided, checked, _⟩ := chunks_never_skipped Sample.openSsl (by decide) (by decide) accepted
  exact ⟨divided, fun all => absurd (checked.mpr all) (by decide +kernel)⟩

/-- A SEQUENCE in the long form of length zero, before an INTEGER: in its SEQUENCE it is one value,
but cut out it is none, and `children` finds nothing in it. -/
theorem header_alone_not_divided :
    walkExact lowTag [0x30, 6, 0x30, 0x81, 0, 2, 1, 5] ⟨256, 100⟩ .ber none = .ok () ∧
    (header lowTag [0x30, 6, 0x30, 0x81, 0, 2, 1, 5]).any (·.constructed) = true ∧
    children lowTag [0x30, 6, 0x30, 0x81, 0, 2, 1, 5] = some [[0x30, 0x81, 0], [2, 1, 5]] ∧
    (header lowTag [0x30, 0x81, 0, 2, 1, 5]).any (·.constructed) = true ∧
    children lowTag [0x30, 0x81, 0] = none ∧ sizeOfValue lowTag [0x30, 0x81, 0] = none ∧
    ¬ IsValue lowTag [0x30, 0x81, 0] := by
  refine ⟨by decide +kernel, by decide +kernel, by decide +kernel, by decide +kernel,
    by decide +kernel, by decide +kernel, fun value => ?_⟩
  obtain ⟨t, wf, encoded⟩ := isValue_iff.mp value
  have unread : header lowTag [0x30, 0x81, 0] = none := by decide +kernel
  have read := Tree.header_encode wf
  rw [List.append_nil, encoded] at read
  cases unread.symm.trans read

end Openssl

end ReceiptVerifier
