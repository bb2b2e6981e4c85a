import Mathlib.Data.List.Basic
import Mathlib.Tactic.Common

/-!
# BER values under a header reader

A tag-length-value encoding read through an arbitrary header decoder. `HeaderReader` says what is
relied on: a header takes at least two octets, its definite content lies within the input, an
indefinite length is constructed, and the answer depends on the header's own octets alone. A reader
may ask for one octet more after a length in the long form, so a header is read where it stands:
before its value's other octets and those that follow them in the same slice.

`Tree` is the value such octets encode: a primitive value, or a constructed one of definite length
(its children fill the content) or of indefinite length (its children stop at `00 00`).
`Tree.WF` ties every header of a tree to the reader, before a given tail; `Tree.WF.retail` changes
the tail, and `Tree.unambiguous` shows that at most one well-formed tree starts an input.
-/

namespace Ber

/-- One header: what the identifier and the length octets say. -/
structure Header where
  tag : Nat
  cls : Nat
  constructed : Bool
  indefinite : Bool
  /-- Octets of the identifier and the length. -/
  head : Nat
  /-- Octets of the content; 0 for an indefinite length. -/
  content : Nat
  /-- The identifier is in high-tag-number form. -/
  highTagForm : Bool
deriving DecidableEq, Repr

/-- How many octets follow the initial length octet, for an identifier of one octet. -/
def lengthOctets : List UInt8 → Nat
  | _ :: b :: _ => b.toNat - 0x80
  | _ => 0

/-- The octets from the initial length octet on. -/
def fromLength : List UInt8 → List UInt8
  | [] => []
  | b :: rest => if b &&& 0x1f = 0x1f then (rest.dropWhile fun c => 0x80 ≤ c).drop 1 else rest

/-- The length is in the long form: its initial octet announces others. -/
def isLongLength (head : List UInt8) : Bool :=
  (fromLength head).head?.any fun b => 0x80 < b

/-- A header decoder and what is relied on about it. -/
structure HeaderReader where
  header : List UInt8 → Option Header
  two_le_head : ∀ {i h}, header i = some h → 2 ≤ h.head
  fits : ∀ {i h}, header i = some h → h.head + h.content ≤ i.length
  indefinite_constructed : ∀ {i h}, header i = some h → h.indefinite = true →
    h.constructed = true ∧ h.content = 0
  /-- The constructed bit of the identifier. -/
  constructed_iff : ∀ {b i h}, header (b :: i) = some h →
    (h.constructed = true ↔ b &&& 0x20 ≠ 0)
  highTagForm_iff : ∀ {i h}, header i = some h →
    (h.highTagForm = true ↔ ∃ b ∈ i.head?, b &&& 0x1f = 0x1f)
  short_head : ∀ {i h}, header i = some h → h.highTagForm = false → h.head = 2 + lengthOctets i
  /-- Only the header's octets decide the answer, and that the content is there, or an octet after a
  length in the long form. -/
  header_congr : ∀ {i j h}, header i = some h → j.take h.head = i.take h.head →
    h.head + h.content ≤ j.length → (isLongLength (i.take h.head) = true → h.head < j.length) →
    header j = some h

/-- The end-of-contents octets. -/
def eoc : List UInt8 := [0, 0]

/-- A value, each header beside the octets it was read from. -/
inductive Tree where
  | primitive (header : Header) (head content : List UInt8)
  | definite (header : Header) (head : List UInt8) (children : List Tree)
  | indefinite (header : Header) (head : List UInt8) (children : List Tree)

namespace Tree

mutual

/-- The octets of a value. -/
def encode : Tree → List UInt8
  | .primitive _ head content => head ++ content
  | .definite _ head children => head ++ encodeAll children
  | .indefinite _ head children => head ++ (encodeAll children ++ eoc)

def encodeAll : List Tree → List UInt8
  | [] => []
  | t :: ts => t.encode ++ encodeAll ts

end

mutual

/-- How many constructed values nest, the value itself counted. -/
def depth : Tree → Nat
  | .primitive .. => 0
  | .definite _ _ children => 1 + depthAll children
  | .indefinite _ _ children => 1 + depthAll children

def depthAll : List Tree → Nat
  | [] => 0
  | t :: ts => max t.depth (depthAll ts)

end

mutual

/-- How many values there are, end-of-contents octets not counted. -/
def count : Tree → Nat
  | .primitive .. => 1
  | .definite _ _ children => 1 + countAll children
  | .indefinite _ _ children => 1 + countAll children

def countAll : List Tree → Nat
  | [] => 0
  | t :: ts => t.count + countAll ts

end

/-- The header of the outermost value. -/
def header : Tree → Header
  | .primitive h .. => h
  | .definite h .. => h
  | .indefinite h .. => h

/-- The octets of the outermost header. -/
def head : Tree → List UInt8
  | .primitive _ hd _ => hd
  | .definite _ hd _ => hd
  | .indefinite _ hd _ => hd

mutual

/-- A property of every header of a value, at any depth, and of the octets it is written in. -/
def AllHeads (P : List UInt8 → Prop) : Tree → Prop
  | .primitive _ hd _ => P hd
  | .definite _ hd children => P hd ∧ AllHeadsAll P children
  | .indefinite _ hd children => P hd ∧ AllHeadsAll P children

def AllHeadsAll (P : List UInt8 → Prop) : List Tree → Prop
  | [] => True
  | t :: ts => t.AllHeads P ∧ AllHeadsAll P ts

end

/-- The values inside a value. -/
def children : Tree → List Tree
  | .primitive .. => []
  | .definite _ _ children => children
  | .indefinite _ _ children => children

mutual

/-- Whether every header of a value, at any depth, passes a test. -/
def allHeaders (p : Header → Bool) : Tree → Bool
  | .primitive h .. => p h
  | .definite h _ children => p h && allHeadersAll p children
  | .indefinite h _ children => p h && allHeadersAll p children

def allHeadersAll (p : Header → Bool) : List Tree → Bool
  | [] => true
  | t :: ts => t.allHeaders p && allHeadersAll p ts

end

variable (r : HeaderReader)

mutual

/-- Every header is the one the reader reads where it stands, `tail` following the value; a
primitive value has a definite length, a definite constructed value is filled by its children, and
no child of an indefinite one starts with the end-of-contents octets. -/
def WF (tail : List UInt8) : Tree → Prop
  | .primitive h hd content =>
    r.header (hd ++ content ++ tail) = some h ∧ h.constructed = false ∧ h.head = hd.length ∧
      h.content = content.length
  | .definite h hd children =>
    r.header (hd ++ encodeAll children ++ tail) = some h ∧ h.constructed = true ∧
      h.indefinite = false ∧ h.head = hd.length ∧ h.content = (encodeAll children).length ∧
      WFAll [] children
  | .indefinite h hd children =>
    r.header (hd ++ (encodeAll children ++ eoc) ++ tail) = some h ∧ h.constructed = true ∧
      h.indefinite = true ∧ h.head = hd.length ∧ WFAll (eoc ++ tail) children ∧
      ∀ t ∈ children, ¬ eoc <+: t.encode

def WFAll (tail : List UInt8) : List Tree → Prop
  | [] => True
  | t :: ts => t.WF (encodeAll ts ++ tail) ∧ WFAll tail ts

end

variable {r}

/-! ## What the reader sees of a well-formed value -/

section

variable {tail : List UInt8}

theorem header_encode {t : Tree} (h : t.WF r tail) :
    r.header (t.encode ++ tail) = some t.header := by
  cases t <;> exact h.1

theorem head_length {t : Tree} (h : t.WF r tail) : t.header.head = t.head.length := by
  cases t with
  | primitive => exact h.2.2.1
  | definite => exact h.2.2.2.1
  | indefinite => exact h.2.2.2.1

theorem head_starts (t : Tree) : t.head <+: t.encode := by
  cases t <;> exact List.prefix_append _ _

theorem two_le_length {t : Tree} (h : t.WF r tail) : 2 ≤ t.encode.length :=
  calc 2 ≤ t.header.head := r.two_le_head (header_encode h)
    _ = t.head.length := head_length h
    _ ≤ t.encode.length := (head_starts t).length_le

theorem encode_ne_nil {t : Tree} (h : t.WF r tail) : t.encode ≠ [] := by
  intro e
  have := two_le_length h
  rw [e] at this
  exact absurd this (by decide)

theorem encode_append_eq_cons {t : Tree} (h : t.WF r tail) (more : List UInt8) :
    ∃ octet rest, t.encode ++ more = octet :: rest :=
  List.exists_cons_of_ne_nil (List.append_ne_nil_of_left_ne_nil (encode_ne_nil h) more)

/-- What follows a value does not make end-of-contents octets of it. -/
theorem not_eoc_append {t : Tree} (h : t.WF r tail) (own : ¬ eoc <+: t.encode)
    (more : List UInt8) : ¬ eoc <+: t.encode ++ more := fun stop =>
  own (List.prefix_of_prefix_length_le stop (List.prefix_append _ _) (two_le_length h))

theorem head_eq_take {t : Tree} (h : t.WF r tail) (more : List UInt8) :
    t.head = (t.encode ++ more).take t.header.head := by
  rw [head_length h]
  exact List.prefix_iff_eq_take.mp ((head_starts t).trans (List.prefix_append _ _))

/-- The content, of a definite length, is the rest of the value. -/
theorem head_add_content {t : Tree} (h : t.WF r tail) (definite : t.header.indefinite = false) :
    t.header.head + t.header.content = t.encode.length := by
  cases t with
  | primitive h' hd content =>
    rw [header, h.2.2.1, h.2.2.2, encode, List.length_append]
  | definite h' hd children =>
    rw [header, h.2.2.2.1, h.2.2.2.2.1, encode, List.length_append]
  | indefinite => exact absurd (h.2.2.1.symm.trans definite) Bool.noConfusion

end

/-! ## What follows a value -/

/-- Nothing but a header, its length in the long form: it may need an octet after it to be read. -/
def IsBare (t : Tree) : Prop := t.encode = t.head ∧ isLongLength t.head = true

/-- The header is read before another tail too, unless it is all there is. -/
theorem header_retail {t : Tree} {tail tail' : List UInt8} (wf : t.WF r tail)
    (more : t.IsBare → tail' ≠ []) : r.header (t.encode ++ tail') = some t.header := by
  have starts := (head_starts t).length_le
  have headLength := head_length wf
  refine r.header_congr (header_encode wf) ?_ ?_ fun long => ?_
  · rw [← head_eq_take wf, ← head_eq_take wf]
  · rw [List.length_append]
    cases indefinite : t.header.indefinite with
    | false =>
      have := head_add_content wf indefinite
      omega
    | true =>
      have := (r.indefinite_constructed (header_encode wf) indefinite).2
      omega
  · rw [← head_eq_take wf] at long
    rw [List.length_append, headLength]
    by_cases whole : t.encode = t.head
    · have positive := List.length_pos_iff.mpr (more ⟨whole, long⟩)
      omega
    · have longer : t.head.length ≠ t.encode.length := fun same =>
        whole ((head_starts t).eq_of_length same).symm
      omega

mutual

/-- A value whose own header is read before another tail is well formed there. -/
theorem WF.of_header : ∀ {t : Tree} {tail tail' : List UInt8}, t.WF r tail →
    r.header (t.encode ++ tail') = some t.header → t.WF r tail'
  | .primitive .., _, _, wf, read => ⟨read, wf.2⟩
  | .definite .., _, _, wf, read => ⟨read, wf.2⟩
  | .indefinite .., _, _, ⟨_, constructed, length, headLength, inside, noEoc⟩, read =>
    ⟨read, constructed, length, headLength, WFAll.retail inside nofun, noEoc⟩

/-- Values one after another do not mind what follows the last, if anything does. -/
theorem WFAll.retail : ∀ {ts : List Tree} {tail tail' : List UInt8}, WFAll r tail ts →
    tail' ≠ [] → WFAll r tail' ts
  | [], _, _, _, _ => trivial
  | _ :: _, _, _, wf, more =>
    ⟨wf.1.of_header (header_retail wf.1 fun _ => List.append_ne_nil_of_right_ne_nil _ more),
      WFAll.retail wf.2 more⟩

end

/-- A value does not mind what follows it, unless it is nothing but a header. -/
theorem WF.retail {t : Tree} {tail tail' : List UInt8} (wf : t.WF r tail)
    (more : t.IsBare → tail' ≠ []) : t.WF r tail' :=
  wf.of_header (header_retail wf more)

/-- A value read alone is read before anything. -/
theorem WF.extend {t : Tree} (wf : t.WF r []) (tail : List UInt8) : t.WF r tail := by
  cases tail with
  | nil => exact wf
  | cons octet rest => exact wf.retail fun _ => List.cons_ne_nil octet rest

/-- A value is read alone too, or it is nothing but a header that alone is not read. -/
theorem WF.alone_or_bare {t : Tree} {tail : List UInt8} (wf : t.WF r tail) :
    t.WF r [] ∨ t.IsBare ∧ r.header t.encode = none := by
  by_cases bare : t.IsBare
  · cases alone : r.header t.encode with
    | none => exact .inr ⟨bare, rfl⟩
    | some h =>
      refine .inl ?_
      cases tail with
      | nil => exact wf
      | cons octet rest =>
        have fits := r.fits alone
        have longer : h.head < (t.encode ++ octet :: rest).length := by
          rw [List.length_append, List.length_cons]; omega
        have again := r.header_congr alone (List.take_append_of_le_length (by omega))
          (by rw [List.length_append]; omega) fun _ => longer
        obtain rfl := Option.some.inj (again.symm.trans (header_encode wf))
        exact wf.of_header (by rwa [List.append_nil])
  · exact .inl (wf.retail fun all => absurd all bare)

/-! ## The values inside a value -/

theorem encodeAll_eq_flatten (ts : List Tree) : encodeAll ts = (ts.map encode).flatten := by
  induction ts with
  | nil => rfl
  | cons t ts ih => rw [encodeAll, ih, List.map_cons, List.flatten_cons]

/-- Values one after another, each beside what follows it. -/
def placed (tail : List UInt8) : List Tree → List (Tree × List UInt8)
  | [] => []
  | t :: ts => (t, encodeAll ts ++ tail) :: placed tail ts

theorem map_fst_placed (tail : List UInt8) (ts : List Tree) :
    (placed tail ts).map Prod.fst = ts := by
  induction ts with
  | nil => rfl
  | cons t ts ih => rw [placed, List.map_cons, ih]

theorem getElem?_placed (tail : List UInt8) (ts : List Tree) (n : Nat) :
    (placed tail ts)[n]?.map Prod.fst = ts[n]? := by
  rw [← List.getElem?_map, map_fst_placed]

theorem mem_of_mem_placed {ts : List Tree} {tail : List UInt8} :
    ∀ p ∈ placed tail ts, p.1 ∈ ts := fun p mem => by
  rw [← map_fst_placed tail ts]
  exact List.mem_map_of_mem mem

theorem exists_mem_placed {ts : List Tree} (tail : List UInt8) {t : Tree} (mem : t ∈ ts) :
    ∃ p ∈ placed tail ts, p.1 = t := by
  rw [← map_fst_placed tail ts] at mem
  exact List.mem_map.mp mem

theorem wfAll_iff {ts : List Tree} {tail : List UInt8} :
    WFAll r tail ts ↔ ∀ p ∈ placed tail ts, p.1.WF r p.2 := by
  induction ts with
  | nil => simp [WFAll, placed]
  | cons t ts ih => rw [WFAll, ih, placed, List.forall_mem_cons]

theorem wf_of_wfAll {before after : List Tree} {t : Tree} {tail : List UInt8}
    (wf : WFAll r tail (before ++ t :: after)) : t.WF r (encodeAll after ++ tail) := by
  induction before with
  | nil => exact wf.1
  | cons c before ih => exact ih wf.2

theorem wfAll_of_alone {ts : List Tree} (alone : ∀ t ∈ ts, t.WF r []) (tail : List UInt8) :
    WFAll r tail ts :=
  wfAll_iff.mpr fun p mem => (alone p.1 (mem_of_mem_placed p mem)).extend p.2

theorem allHeadersAll_eq_all (p : Header → Bool) (ts : List Tree) :
    allHeadersAll p ts = ts.all (allHeaders p) := by
  induction ts with
  | nil => rfl
  | cons t ts ih => rw [allHeadersAll, ih, List.all_cons]

theorem allHeaders_eq (p : Header → Bool) (t : Tree) :
    t.allHeaders p = (p t.header && t.children.all (allHeaders p)) := by
  cases t with
  | primitive => simp [allHeaders, header, children]
  | definite => rw [allHeaders, allHeadersAll_eq_all]; rfl
  | indefinite => rw [allHeaders, allHeadersAll_eq_all]; rfl

/-- What follows the last value inside a value, in the slice they are read from. -/
def inner (tail : List UInt8) : Tree → List UInt8
  | .primitive .. => []
  | .definite .. => []
  | .indefinite .. => eoc ++ tail

theorem wf_children {t : Tree} {tail : List UInt8} (wf : t.WF r tail) :
    WFAll r (t.inner tail) t.children := by
  cases t with
  | primitive => trivial
  | definite => exact wf.2.2.2.2.2
  | indefinite => exact wf.2.2.2.2.1

/-- Only a constructed value has values inside. -/
theorem constructed_of_mem_children {t : Tree} {tail : List UInt8} (wf : t.WF r tail) {c : Tree}
    (mem : c ∈ t.children) : t.header.constructed = true := by
  cases t with
  | primitive => exact absurd mem List.not_mem_nil
  | definite => exact wf.2.1
  | indefinite => exact wf.2.1

theorem depth_le_depthAll {ts : List Tree} : ∀ t ∈ ts, t.depth ≤ depthAll ts := by
  induction ts with
  | nil => exact fun _ mem => absurd mem List.not_mem_nil
  | cons t ts ih =>
    rw [depthAll, List.forall_mem_cons]
    exact ⟨Nat.le_max_left _ _, fun c mem => Nat.le_trans (ih c mem) (Nat.le_max_right _ _)⟩

theorem count_le_countAll {ts : List Tree} : ∀ t ∈ ts, t.count ≤ countAll ts := by
  induction ts with
  | nil => exact fun _ mem => absurd mem List.not_mem_nil
  | cons t ts ih =>
    rw [countAll, List.forall_mem_cons]
    exact ⟨Nat.le_add_right _ _, fun c mem => Nat.le_trans (ih c mem) (Nat.le_add_left _ _)⟩

theorem depth_children {t : Tree} : ∀ c ∈ t.children, c.depth < t.depth := by
  intro c mem
  cases t with
  | primitive => exact absurd mem List.not_mem_nil
  | definite => exact Nat.lt_one_add_iff.mpr (depth_le_depthAll c mem)
  | indefinite => exact Nat.lt_one_add_iff.mpr (depth_le_depthAll c mem)

theorem count_children {t : Tree} : ∀ c ∈ t.children, c.count < t.count := by
  intro c mem
  cases t with
  | primitive => exact absurd mem List.not_mem_nil
  | definite => exact Nat.lt_one_add_iff.mpr (count_le_countAll c mem)
  | indefinite => exact Nat.lt_one_add_iff.mpr (count_le_countAll c mem)

/-- Induction on the values inside. -/
theorem induction_children {P : Tree → Prop} (own : ∀ t, (∀ c ∈ t.children, P c) → P t) (t : Tree) :
    P t :=
  own t fun c _ => induction_children own c
termination_by t.count
decreasing_by exact count_children c ‹_›

/-- A value inside an indefinite one does not start with the end-of-contents octets. -/
theorem not_eoc_of_indefinite {t : Tree} {tail : List UInt8} (wf : t.WF r tail)
    (indefinite : t.header.indefinite = true) :
    ∀ c ∈ t.children, ¬ eoc <+: c.encode := by
  cases t with
  | primitive => exact fun _ mem => absurd mem List.not_mem_nil
  | definite => exact absurd (wf.2.2.1.symm.trans indefinite) Bool.false_ne_true
  | indefinite => exact wf.2.2.2.2.2

/-! ## At most one value starts an input -/

mutual

/-- **Unambiguity**: two well-formed values that start one input are the same value. -/
theorem unambiguous : ∀ (t t' : Tree) (tail tail' : List UInt8), t.WF r tail → t'.WF r tail' →
    t.encode ++ tail = t'.encode ++ tail' → t = t' := by
  intro t t' tail tail' h h' same
  have hh : t.header = t'.header :=
    Option.some.inj
      ((header_encode h).symm.trans ((congrArg r.header same).trans (header_encode h')))
  have hd : t.head = t'.head := by rw [head_eq_take h tail, head_eq_take h' tail', hh, same]
  match t, t' with
  | .primitive o hd₁ c, .primitive o' hd₂ c' =>
    obtain rfl : o = o' := hh
    obtain rfl : hd₁ = hd₂ := hd
    have hl : (hd₁ ++ c).length = (hd₁ ++ c').length := by
      simp only [List.length_append, ← h.2.2.2, ← h'.2.2.2]
    rw [List.append_cancel_left (List.append_inj_left same hl)]
  | .definite o hd₁ ts, .definite o' hd₂ ts' =>
    obtain rfl : o = o' := hh
    obtain rfl : hd₁ = hd₂ := hd
    have hl : (hd₁ ++ encodeAll ts).length = (hd₁ ++ encodeAll ts').length := by
      simp only [List.length_append, ← h.2.2.2.2.1, ← h'.2.2.2.2.1]
    rw [unambiguousAll ts ts' h.2.2.2.2.2 h'.2.2.2.2.2
      (List.append_cancel_left (List.append_inj_left same hl))]
  | .indefinite o hd₁ ts, .indefinite o' hd₂ ts' =>
    obtain rfl : o = o' := hh
    obtain rfl : hd₁ = hd₂ := hd
    simp only [encode, List.append_assoc, List.append_cancel_left_eq] at same
    rw [unambiguousEoc ts ts' tail tail' h.2.2.2.2.1 h'.2.2.2.2.1 h.2.2.2.2.2 h'.2.2.2.2.2 same]
  | .primitive o _ _, .definite o' _ _ =>
    obtain rfl : o = o' := hh
    exact absurd (h.2.1.symm.trans h'.2.1) (by decide)
  | .primitive o _ _, .indefinite o' _ _ =>
    obtain rfl : o = o' := hh
    exact absurd (h.2.1.symm.trans h'.2.1) (by decide)
  | .definite o _ _, .primitive o' _ _ =>
    obtain rfl : o = o' := hh
    exact absurd (h.2.1.symm.trans h'.2.1) (by decide)
  | .definite o _ _, .indefinite o' _ _ =>
    obtain rfl : o = o' := hh
    exact absurd (h.2.2.1.symm.trans h'.2.2.1) (by decide)
  | .indefinite o _ _, .primitive o' _ _ =>
    obtain rfl : o = o' := hh
    exact absurd (h.2.1.symm.trans h'.2.1) (by decide)
  | .indefinite o _ _, .definite o' _ _ =>
    obtain rfl : o = o' := hh
    exact absurd (h.2.2.1.symm.trans h'.2.2.1) (by decide)

/-- Values that fill the same octets are the same values. -/
theorem unambiguousAll : ∀ (ts ts' : List Tree), WFAll r [] ts → WFAll r [] ts' →
    encodeAll ts = encodeAll ts' → ts = ts'
  | [], [], _, _, _ => rfl
  | [], t' :: ts', _, h', e =>
    absurd (List.append_eq_nil_iff.mp e.symm).1 (encode_ne_nil h'.1)
  | t :: ts, [], h, _, e =>
    absurd (List.append_eq_nil_iff.mp e).1 (encode_ne_nil h.1)
  | t :: ts, t' :: ts', h, h', e => by
    rw [encodeAll, encodeAll] at e
    have ht : t = t' := unambiguous t t' _ _ h.1 h'.1 (by rw [List.append_nil, List.append_nil, e])
    subst ht
    rw [unambiguousAll ts ts' h.2 h'.2 (List.append_cancel_left e)]

/-- Values that stop at end-of-contents octets are the same values. -/
theorem unambiguousEoc : ∀ (ts ts' : List Tree) (tail tail' : List UInt8),
    WFAll r (eoc ++ tail) ts → WFAll r (eoc ++ tail') ts' →
    (∀ t ∈ ts, ¬ eoc <+: t.encode) → (∀ t ∈ ts', ¬ eoc <+: t.encode) →
    encodeAll ts ++ (eoc ++ tail) = encodeAll ts' ++ (eoc ++ tail') → ts = ts'
  | [], [], _, _, _, _, _, _, _ => rfl
  | [], t' :: ts', tail, tail', _, h', _, n', same => by
    rw [encodeAll, encodeAll, List.nil_append, List.append_assoc] at same
    exact absurd (same ▸ List.prefix_append eoc tail)
      (not_eoc_append h'.1 (n' t' List.mem_cons_self) _)
  | t :: ts, [], tail, tail', h, _, n, _, same => by
    rw [encodeAll, encodeAll, List.nil_append, List.append_assoc] at same
    exact absurd (same ▸ List.prefix_append eoc tail')
      (not_eoc_append h.1 (n t List.mem_cons_self) _)
  | t :: ts, t' :: ts', tail, tail', h, h', n, n', same => by
    rw [encodeAll, encodeAll, List.append_assoc, List.append_assoc] at same
    have ht : t = t' := unambiguous t t' _ _ h.1 h'.1 same
    subst ht
    rw [unambiguousEoc ts ts' tail tail' h.2 h'.2 (fun u hu => n u (List.mem_cons_of_mem _ hu))
      (fun u hu => n' u (List.mem_cons_of_mem _ hu)) (List.append_cancel_left same)]

end

end Tree

end Ber
