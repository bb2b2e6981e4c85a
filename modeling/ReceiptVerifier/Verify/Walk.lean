import ReceiptVerifier.Openssl.Walk

/-!
# What the header walk accepts

`Walker.Accepts` is the walk's verdict said of a tree: which header forms it takes and which values
its check is asked about, with no budget and no octets in hand. `value_eq_ok_iff` is the exactness
of the walk against it, in both directions, and everything else here follows from that.
-/

namespace ReceiptVerifier

namespace Openssl

open Ber (Header HeaderReader Tree eoc fromLength isLongLength lengthOctets)

variable {g : Asn1GetObject} {w : Walker}

/-! ## One step of the walk -/

theorem isPrefixOf_eoc_iff {input : Bytes} : eoc.isPrefixOf input = true ↔ eoc <+: input :=
  List.isPrefixOf_iff_prefix

/-- `value` once the header is read. -/
theorem value_of_header {input : Bytes} {h : Header} (e : header g input = some h)
    (n depth string : Nat) :
    w.value g (n + 1) input depth string =
      if w.refusesForm h then .error .malformed
      else if h.constructed = false then
        if w.refusesPrimitive h string (input.take (definiteSize h)) then .error .malformed
        else .ok (⟨definiteSize h, Nat.le_add_right_of_le ((headerReader g).two_le_head e)⟩, n)
      else if depth ≥ w.maxDepth then .error .tooDeep
      else
        match w.level h string with
        | none => .error .malformed
        | some level =>
          match
            if h.indefinite then w.untilEoc g n (input.drop h.head) (depth + 1) level
            else w.filling g n ((input.drop h.head).take h.content) (depth + 1) level with
          | .error err => .error err
          | .ok (walked, left) =>
            if w.refusesString level (input.take (h.head + walked)) then .error .malformed
            else
              .ok (⟨h.head + walked, Nat.le_add_right_of_le ((headerReader g).two_le_head e)⟩,
                left) := by
  rw [Walker.value]
  split
  · rename_i headerNone
    cases headerNone.symm.trans e
  · rename_i h' headerSome
    obtain rfl : h' = h := Option.some.inj (headerSome.symm.trans e)
    rfl

/-- Everything `value` can do when it accepts. -/
theorem value_eq_ok_cases {nodes : Nat} {input : Bytes} {depth string : Nat} {size : Size}
    {left : Nat} :
    w.value g nodes input depth string = .ok (size, left) ↔
      ∃ n h, nodes = n + 1 ∧ header g input = some h ∧ w.refusesForm h = false ∧
        ((h.constructed = false ∧
            w.refusesPrimitive h string (input.take (definiteSize h)) = false ∧
            definiteSize h = size.1 ∧ n = left) ∨
          (h.constructed = true ∧ depth < w.maxDepth ∧
            ∃ level walked, w.level h string = some level ∧
              (if h.indefinite then w.untilEoc g n (input.drop h.head) (depth + 1) level
                else w.filling g n ((input.drop h.head).take h.content) (depth + 1) level) =
                .ok (walked, left) ∧
              w.refusesString level (input.take (h.head + walked)) = false ∧
              h.head + walked = size.1)) := by
  obtain ⟨size, two⟩ := size
  cases nodes with
  | zero => simp [Walker.value]
  | succ n =>
    cases headerSome : header g input with
    | none =>
      rw [Walker.value]
      split
      · simp
      · rename_i headerSome'
        cases headerSome'.symm.trans headerSome
    | some h =>
      rw [value_of_header headerSome]
      simp only [Nat.add_right_cancel_iff, Option.some.injEq, exists_eq_left', exists_and_left]
      cases w.refusesForm h
      · cases h.constructed
        · cases w.refusesPrimitive h string (input.take (definiteSize h)) <;>
            simp [Subtype.ext_iff]
        · by_cases deep : depth ≥ w.maxDepth
          · simp [deep, Nat.not_lt.mpr deep]
          · have shallow : depth < w.maxDepth := Nat.lt_of_not_le deep
            cases w.level h string with
            | none => simp [deep]
            | some level =>
              simp only [Bool.true_eq_false, ↓reduceIte, deep, shallow, false_and, true_and,
                false_or, Option.some.injEq, exists_eq_left']
              generalize (if h.indefinite = true then _ else _ : Except WalkError (Nat × Nat)) =
                children
              cases children with
              | error err => simp
              | ok walked =>
                obtain ⟨walked, mid⟩ := walked
                cases refused : w.refusesString level (input.take (h.head + walked)) <;>
                  simp +contextual [refused, and_comm]
      · simp

theorem value_nil {nodes depth string : Nat} {answer : Size × Nat} :
    w.value g nodes [] depth string ≠ .ok answer := by
  intro accepted
  obtain ⟨_, h, _, headerSome, _⟩ := value_eq_ok_cases.mp accepted
  simp [header] at headerSome

/-- Everything the loop of an indefinite length can do when it accepts. -/
theorem untilEoc_eq_ok_cases {nodes : Nat} {rest : Bytes} {depth level walked left : Nat} :
    w.untilEoc g nodes rest depth level = .ok (walked, left) ↔
      (eoc <+: rest ∧ 2 = walked ∧ nodes = left) ∨
      (¬ eoc <+: rest ∧ ∃ size mid more, w.value g nodes rest depth level = .ok (size, mid) ∧
        w.untilEoc g mid (rest.drop size.1) depth level = .ok (more, left) ∧
        size.1 + more = walked) := by
  cases rest with
  | nil =>
    have noEoc : ¬ eoc <+: ([] : Bytes) := by decide
    simp only [noEoc, false_and, false_or, not_false_eq_true, true_and]
    constructor
    · rw [Walker.untilEoc.eq_def]
      by_cases empty : nodes = 0 <;> simp [empty]
    · rintro ⟨_, _, _, accepted, _⟩
      exact absurd accepted value_nil
  | cons first rest =>
    rw [Walker.untilEoc]
    by_cases stop : eoc <+: first :: rest
    · simp [isPrefixOf_eoc_iff.mpr stop, stop]
    · simp only [isPrefixOf_eoc_iff, stop, ↓reduceIte, false_and, false_or, not_false_eq_true,
        true_and]
      cases w.value g nodes (first :: rest) depth level with
      | error err => simp
      | ok read =>
        obtain ⟨size, mid⟩ := read
        cases later : w.untilEoc g mid ((first :: rest).drop size.1) depth level with
        | error err => simp [later]
        | ok read =>
          obtain ⟨more, left'⟩ := read
          simp [later, and_comm]

/-- Everything the loop of a definite length can do when it accepts. -/
theorem filling_eq_ok_cases {nodes : Nat} {rest : Bytes} {depth level walked left : Nat} :
    w.filling g nodes rest depth level = .ok (walked, left) ↔
      (rest = [] ∧ 0 = walked ∧ nodes = left) ∨
      (rest ≠ [] ∧ ¬ (w.primitive.isSome = true ∧ eoc <+: rest) ∧
        ∃ size mid more, w.value g nodes rest depth level = .ok (size, mid) ∧
          w.filling g mid (rest.drop size.1) depth level = .ok (more, left) ∧
          size.1 + more = walked) := by
  cases rest with
  | nil =>
    rw [Walker.filling.eq_def]
    simp
  | cons first rest =>
    rw [Walker.filling]
    by_cases stop : w.primitive.isSome = true ∧ eoc <+: first :: rest
    · simp [isPrefixOf_eoc_iff.mpr stop.2, stop.1, stop.2]
    · simp only [Bool.and_eq_true, isPrefixOf_eoc_iff, stop, ↓reduceIte, reduceCtorEq, false_and,
        false_or, not_false_eq_true, true_and, ne_eq]
      cases w.value g nodes (first :: rest) depth level with
      | error err => simp
      | ok read =>
        obtain ⟨size, mid⟩ := read
        cases later : w.filling g mid ((first :: rest).drop size.1) depth level with
        | error err => simp [later]
        | ok read =>
          obtain ⟨more, left'⟩ := read
          simp [later, and_comm]

/-! ## The verdict on a tree -/

mutual

/-- The walk's verdict on a value that is a chunk of a constructed string of `string` levels,
budgets apart: every header has an accepted form, and the check accepts what it is asked about. -/
def Walker.Accepts (w : Walker) (string : Nat) : Tree → Prop
  | .primitive h hd content =>
    w.refusesForm h = false ∧ w.refusesPrimitive h string (hd ++ content) = false
  | .definite h hd children =>
    w.refusesForm h = false ∧ ∃ level, w.level h string = some level ∧
      Walker.AcceptsAll w level children ∧
      (w.primitive.isSome = true → ∀ t ∈ children, ¬ eoc <+: t.encode) ∧
      w.refusesString level (hd ++ Tree.encodeAll children) = false
  | .indefinite h hd children =>
    w.refusesForm h = false ∧ ∃ level, w.level h string = some level ∧
      Walker.AcceptsAll w level children ∧
      w.refusesString level (hd ++ (Tree.encodeAll children ++ eoc)) = false

def Walker.AcceptsAll (w : Walker) (level : Nat) : List Tree → Prop
  | [] => True
  | t :: ts => Walker.Accepts w level t ∧ Walker.AcceptsAll w level ts

end

/-- `nesting` constructed values fit inside `depth` others. -/
def Walker.Fits (w : Walker) (depth nesting : Nat) : Prop :=
  nesting = 0 ∨ depth + nesting ≤ w.maxDepth

theorem fits_max {depth a b : Nat} :
    w.Fits depth (max a b) ↔ w.Fits depth a ∧ w.Fits depth b := by
  unfold Walker.Fits
  omega

theorem fits_succ {depth a : Nat} :
    w.Fits depth (1 + a) ↔ depth < w.maxDepth ∧ w.Fits (depth + 1) a := by
  unfold Walker.Fits
  omega

/-- `t` is a value the walk accepts before `tail`, spending `nodes` down to `left`. -/
structure Reads (g : Asn1GetObject) (w : Walker) (nodes : Nat) (tail : Bytes)
    (depth string left : Nat) (t : Tree) : Prop where
  wf : t.WF (headerReader g) tail
  fits : w.Fits depth t.depth
  spends : t.count + left = nodes
  accepts : w.Accepts string t

/-- `ts` are the values the walk accepts one after another before `tail`, spending `nodes` down to
`left`. -/
structure ReadsAll (g : Asn1GetObject) (w : Walker) (nodes : Nat) (tail : Bytes)
    (depth level left : Nat) (ts : List Tree) : Prop where
  wf : Tree.WFAll (headerReader g) tail ts
  fits : w.Fits depth (Tree.depthAll ts)
  spends : Tree.countAll ts + left = nodes
  accepts : w.AcceptsAll level ts

theorem ReadsAll.nil {nodes : Nat} {tail : Bytes} {depth level : Nat} :
    ReadsAll g w nodes tail depth level nodes [] where
  wf := trivial
  fits := .inl rfl
  spends := Nat.zero_add nodes
  accepts := trivial

theorem readsAll_cons {nodes : Nat} {tail : Bytes} {depth level left : Nat} {t : Tree}
    {ts : List Tree} :
    ReadsAll g w nodes tail depth level left (t :: ts) ↔
      ∃ mid, Reads g w nodes (Tree.encodeAll ts ++ tail) depth level mid t ∧
        ReadsAll g w mid tail depth level left ts := by
  constructor
  · rintro ⟨wf, fits, spends, accepts⟩
    rw [Tree.countAll] at spends
    obtain ⟨fitsHead, fitsTail⟩ := fits_max.mp fits
    exact ⟨Tree.countAll ts + left, ⟨wf.1, fitsHead, by omega, accepts.1⟩,
      ⟨wf.2, fitsTail, rfl, accepts.2⟩⟩
  · rintro ⟨mid, head, tail⟩
    refine ⟨⟨head.wf, tail.wf⟩, fits_max.mpr ⟨head.fits, tail.fits⟩, ?_,
      ⟨head.accepts, tail.accepts⟩⟩
    rw [Tree.countAll, Nat.add_assoc, tail.spends, head.spends]

/-! ## Soundness -/

/-- A header, the content after it and what follows are the input. -/
theorem take_append_content_append {input content tail : Bytes} {head : Nat}
    (after : input.drop head = content ++ tail) : input.take head ++ content ++ tail = input := by
  rw [List.append_assoc, ← after, List.take_append_drop]

theorem head_append_eq_take {input content tail : Bytes} {head : Nat}
    (after : input.drop head = content ++ tail) :
    input.take (head + content.length) = input.take head ++ content := by
  rw [List.take_add, after, List.take_left]

mutual

theorem value_sound (nodes : Nat) (input : Bytes) (depth string : Nat) (size : Size) (left : Nat)
    (accepted : w.value g nodes input depth string = .ok (size, left)) :
    ∃ t tail, input = t.encode ++ tail ∧ Reads g w nodes tail depth string left t ∧
      t.encode.length = size.1 := by
  obtain ⟨n, h, rfl, headerSome, form, shape⟩ := value_eq_ok_cases.mp accepted
  have fits := (headerReader g).fits headerSome
  have headLength : (input.take h.head).length = h.head := by rw [List.length_take]; omega
  have content : input.drop h.head =
      (input.drop h.head).take h.content ++ (input.drop h.head).drop h.content :=
    (List.take_append_drop _ _).symm
  obtain ⟨primitive, check, sized, rfl⟩ | ⟨constructed, shallow, level, walked, leveled, children,
    check, sized⟩ := shape
  · have contentLength : ((input.drop h.head).take h.content).length = h.content := by
      rw [List.length_take, List.length_drop]; omega
    have whole := head_append_eq_take content
    rw [contentLength] at whole
    refine ⟨.primitive h (input.take h.head) ((input.drop h.head).take h.content), _,
      (take_append_content_append content).symm,
      ⟨⟨?_, primitive, headLength.symm, contentLength.symm⟩, .inl rfl, ?_, form, ?_⟩, ?_⟩
    · rwa [take_append_content_append content]
    · rw [Tree.count, Nat.add_comm]
    · rwa [← whole]
    · rw [Tree.encode, List.length_append, headLength, contentLength, ← sized, definiteSize]
  · by_cases indefinite : h.indefinite = true
    · rw [if_pos indefinite] at children
      obtain ⟨ts, tail, after, reads, walkedLength, noEoc⟩ :=
        untilEoc_sound n (input.drop h.head) (depth + 1) level walked left children
      rw [← List.append_assoc] at after
      have walkedLength : (Tree.encodeAll ts ++ eoc).length = walked := by
        rw [List.length_append, ← walkedLength]; rfl
      have whole := head_append_eq_take after
      rw [walkedLength] at whole
      refine ⟨.indefinite h (input.take h.head) ts, tail,
        (take_append_content_append after).symm, ⟨⟨?_, constructed, indefinite, headLength.symm,
        reads.wf, noEoc⟩, fits_succ.mpr ⟨shallow, reads.fits⟩, ?_, form, level, leveled,
        reads.accepts, ?_⟩, ?_⟩
      · rwa [take_append_content_append after]
      · rw [Tree.count, ← reads.spends]; omega
      · rwa [← whole]
      · rw [Tree.encode, List.length_append, headLength, walkedLength, sized]
    · rw [if_neg indefinite] at children
      obtain ⟨ts, fills, reads, walkedLength, noEoc⟩ := filling_sound n
        ((input.drop h.head).take h.content) (depth + 1) level walked left children
      have contentLength : walked = h.content := by
        rw [← walkedLength, List.length_take, List.length_drop]; omega
      rw [fills] at content walkedLength
      have whole := head_append_eq_take content
      rw [walkedLength] at whole
      refine ⟨.definite h (input.take h.head) ts, _, (take_append_content_append content).symm,
        ⟨⟨?_, constructed, Bool.not_eq_true _ ▸ indefinite, headLength.symm,
        contentLength.symm.trans walkedLength.symm, reads.wf⟩,
        fits_succ.mpr ⟨shallow, reads.fits⟩, ?_, form, level, leveled, reads.accepts, noEoc, ?_⟩,
          ?_⟩
      · rwa [take_append_content_append content]
      · rw [Tree.count, ← reads.spends]; omega
      · rwa [← whole]
      · rw [Tree.encode, List.length_append, headLength, walkedLength, sized]
termination_by 2 * input.length
decreasing_by
  all_goals
    have two := (headerReader g).two_le_head headerSome
    simp only [List.length_take, List.length_drop]
    omega

theorem untilEoc_sound (nodes : Nat) (rest : Bytes) (depth level walked left : Nat)
    (accepted : w.untilEoc g nodes rest depth level = .ok (walked, left)) :
    ∃ ts tail, rest = Tree.encodeAll ts ++ (eoc ++ tail) ∧
      ReadsAll g w nodes (eoc ++ tail) depth level left ts ∧
      (Tree.encodeAll ts).length + 2 = walked ∧ ∀ t ∈ ts, ¬ eoc <+: t.encode := by
  obtain ⟨⟨tail, stop⟩, rfl, rfl⟩ | ⟨go, size, mid, more, read, later, rfl⟩ :=
    untilEoc_eq_ok_cases.mp accepted
  · exact ⟨[], tail, stop.symm, .nil, rfl, by simp⟩
  · obtain ⟨t, after, starts, ht, sized⟩ := value_sound nodes rest depth level size mid read
    have within : size.1 ≤ rest.length := by
      rw [starts, List.length_append, sized]; exact Nat.le_add_right _ _
    obtain ⟨ts, tail, rest', hts, walkedLength, noEoc⟩ :=
      untilEoc_sound mid (rest.drop size.1) depth level more left later
    rw [starts, ← sized, List.drop_left] at rest'
    subst rest'
    refine ⟨t :: ts, tail, ?_, readsAll_cons.mpr ⟨mid, ht, hts⟩, ?_, ?_⟩
    · rw [starts, Tree.encodeAll, List.append_assoc]
    · rw [Tree.encodeAll, List.length_append]; omega
    · exact List.forall_mem_cons.mpr
        ⟨fun e => go (e.trans (starts ▸ List.prefix_append _ _)), noEoc⟩
termination_by 2 * rest.length + 1
decreasing_by
  · omega
  · have := size.2
    simp only [List.length_drop]
    omega

theorem filling_sound (nodes : Nat) (rest : Bytes) (depth level walked left : Nat)
    (accepted : w.filling g nodes rest depth level = .ok (walked, left)) :
    ∃ ts, rest = Tree.encodeAll ts ∧ ReadsAll g w nodes [] depth level left ts ∧
      rest.length = walked ∧
      (w.primitive.isSome = true → ∀ t ∈ ts, ¬ eoc <+: t.encode) := by
  obtain ⟨rfl, rfl, rfl⟩ | ⟨_, go, size, mid, more, read, later, rfl⟩ :=
    filling_eq_ok_cases.mp accepted
  · exact ⟨[], rfl, .nil, rfl, by simp⟩
  · obtain ⟨t, after, starts, ht, sized⟩ := value_sound nodes rest depth level size mid read
    have within : size.1 ≤ rest.length := by
      rw [starts, List.length_append, sized]; exact Nat.le_add_right _ _
    obtain ⟨ts, fills, hts, walkedLength, noEoc⟩ :=
      filling_sound mid (rest.drop size.1) depth level more left later
    rw [List.length_drop] at walkedLength
    rw [starts, ← sized, List.drop_left] at fills
    subst fills
    rw [← List.append_nil (Tree.encodeAll ts)] at ht
    refine ⟨t :: ts, starts, readsAll_cons.mpr ⟨mid, ht, hts⟩, by omega, fun checked => ?_⟩
    exact List.forall_mem_cons.mpr
      ⟨fun e => go ⟨checked, e.trans (starts ▸ List.prefix_append _ _)⟩, noEoc checked⟩
termination_by 2 * rest.length + 1
decreasing_by
  · omega
  · have := size.2
    simp only [List.length_drop]
    omega

end

/-! ## Completeness -/

mutual

theorem value_complete : ∀ (t : Tree) (nodes : Nat) (tail : Bytes) (depth string left : Nat)
    (size : Size), Reads g w nodes tail depth string left t → size.1 = t.encode.length →
    w.value g nodes (t.encode ++ tail) depth string = .ok (size, left) := by
  intro t nodes tail depth string left size reads sized
  have headerSome : header g (t.encode ++ tail) = some t.header := Tree.header_encode reads.wf
  obtain ⟨wf, fits, spends, accepts⟩ := reads
  match t, wf, accepts with
  | .primitive h hd content, ⟨_, primitive, headLength, contentLength⟩, ⟨form, check⟩ =>
    have whole : definiteSize h = (hd ++ content).length := by
      rw [definiteSize, headLength, contentLength, List.length_append]
    refine value_eq_ok_cases.mpr ⟨left, h, ?_, headerSome, form, .inl ⟨primitive, ?_, ?_, rfl⟩⟩
    · rw [← spends, Tree.count, Nat.add_comm]
    · rwa [whole, Tree.encode, List.take_left]
    · rw [whole, sized, Tree.encode]
  | .definite h hd ts, ⟨_, constructed, definite, headLength, contentLength, wfAll⟩,
      ⟨form, level, leveled, acceptsAll, noEoc, check⟩ =>
    have ⟨shallow, fitsAll⟩ := fits_succ.mp fits
    refine value_eq_ok_cases.mpr ⟨Tree.countAll ts + left, h, ?_, headerSome, form, .inr
      ⟨constructed, shallow, level, (Tree.encodeAll ts).length, leveled, ?_, ?_, ?_⟩⟩
    · rw [← spends, Tree.count]; omega
    · rw [definite, if_neg Bool.false_ne_true, headLength, contentLength, Tree.encode,
        List.append_assoc, List.drop_left, List.take_left]
      exact filling_complete ts _ _ _ _ ⟨wfAll, fitsAll, rfl, acceptsAll⟩ noEoc
    · rwa [headLength, ← List.length_append, Tree.encode, List.take_left]
    · rw [headLength, ← List.length_append, sized, Tree.encode]
  | .indefinite h hd ts, ⟨_, constructed, indefinite, headLength, wfAll, noEoc⟩,
      ⟨form, level, leveled, acceptsAll, check⟩ =>
    have ⟨shallow, fitsAll⟩ := fits_succ.mp fits
    refine value_eq_ok_cases.mpr ⟨Tree.countAll ts + left, h, ?_, headerSome, form, .inr
      ⟨constructed, shallow, level, (Tree.encodeAll ts ++ eoc).length, leveled, ?_, ?_, ?_⟩⟩
    · rw [← spends, Tree.count]; omega
    · rw [indefinite, if_pos rfl, headLength, Tree.encode, List.append_assoc, List.drop_left,
        List.append_assoc]
      exact untilEoc_complete ts _ _ _ _ _ ⟨wfAll, fitsAll, rfl, acceptsAll⟩ noEoc
    · rwa [headLength, ← List.length_append, Tree.encode, List.take_left]
    · rw [headLength, ← List.length_append, sized, Tree.encode]

theorem untilEoc_complete : ∀ (ts : List Tree) (nodes : Nat) (tail : Bytes)
    (depth level left : Nat), ReadsAll g w nodes (eoc ++ tail) depth level left ts →
    (∀ t ∈ ts, ¬ eoc <+: t.encode) →
    w.untilEoc g nodes (Tree.encodeAll ts ++ (eoc ++ tail)) depth level =
      .ok ((Tree.encodeAll ts ++ eoc).length, left)
  | [], nodes, tail, depth, level, left, reads, _ => by
    refine untilEoc_eq_ok_cases.mpr (.inl ⟨List.prefix_append eoc tail, rfl, ?_⟩)
    rw [← reads.spends, Tree.countAll, Nat.zero_add]
  | t :: ts, nodes, tail, depth, level, left, reads, noEoc => by
    obtain ⟨mid, first, later⟩ := readsAll_cons.mp reads
    obtain ⟨noEocFirst, noEocLater⟩ := List.forall_mem_cons.mp noEoc
    have two := Tree.two_le_length first.wf
    rw [Tree.encodeAll, List.append_assoc]
    refine untilEoc_eq_ok_cases.mpr (.inr ⟨Tree.not_eoc_append first.wf noEocFirst _,
      ⟨t.encode.length, two⟩, mid, (Tree.encodeAll ts ++ eoc).length, ?_, ?_, ?_⟩)
    · exact value_complete t _ _ _ _ _ _ first rfl
    · rw [List.drop_left]
      exact untilEoc_complete ts mid tail depth level left later noEocLater
    · simp only [List.length_append, Nat.add_assoc]

theorem filling_complete : ∀ (ts : List Tree) (nodes depth level left : Nat),
    ReadsAll g w nodes [] depth level left ts →
    (w.primitive.isSome = true → ∀ t ∈ ts, ¬ eoc <+: t.encode) →
    w.filling g nodes (Tree.encodeAll ts) depth level = .ok ((Tree.encodeAll ts).length, left)
  | [], nodes, depth, level, left, reads, _ => by
    refine filling_eq_ok_cases.mpr (.inl ⟨rfl, rfl, ?_⟩)
    rw [← reads.spends, Tree.countAll, Nat.zero_add]
  | t :: ts, nodes, depth, level, left, reads, noEoc => by
    obtain ⟨mid, first, later⟩ := readsAll_cons.mp reads
    have two := Tree.two_le_length first.wf
    rw [List.append_nil] at first
    rw [Tree.encodeAll]
    refine filling_eq_ok_cases.mpr (.inr ⟨?_, ?_, ⟨t.encode.length, two⟩, mid,
      (Tree.encodeAll ts).length, ?_, ?_, ?_⟩)
    · exact fun empty => Tree.encode_ne_nil first.wf (List.append_eq_nil_iff.mp empty).1
    · rintro ⟨checked, stop⟩
      exact Tree.not_eoc_append first.wf (List.forall_mem_cons.mp (noEoc checked)).1
        (Tree.encodeAll ts) stop
    · exact value_complete t _ _ _ _ _ _ first rfl
    · rw [List.drop_left]
      exact filling_complete ts mid depth level left later
        fun checked => (List.forall_mem_cons.mp (noEoc checked)).2
    · rw [List.length_append]

end

/-- **Exactness of the walk**: `value` accepts exactly the values that start the input, fit both
budgets and pass the verdict, and answers their size and what is left of the node budget. -/
theorem value_eq_ok_iff {nodes : Nat} {input : Bytes} {depth string : Nat} {size : Size}
    {left : Nat} :
    w.value g nodes input depth string = .ok (size, left) ↔
      ∃ t tail, input = t.encode ++ tail ∧ Reads g w nodes tail depth string left t ∧
        t.encode.length = size.1 := by
  constructor
  · exact value_sound nodes input depth string size left
  · rintro ⟨t, tail, rfl, reads, sized⟩
    exact value_complete t nodes tail depth string left size reads sized.symm

/-- The whole input is one value that fits both budgets and passes the verdict. -/
theorem walkExact_eq_ok_iff {input : Bytes} {budget : Budget} {headers : Headers}
    {primitive : Option (Bytes → Bool)} :
    walkExact g input budget headers primitive = .ok () ↔
      ∃ t : Tree, t.WF (headerReader g) [] ∧ t.encode = input ∧ t.depth ≤ budget.depth ∧
        t.count ≤ budget.nodes ∧ Walker.Accepts ⟨budget.depth, headers, primitive⟩ 0 t := by
  constructor
  · intro accepted
    unfold walkExact at accepted
    cases read : Walker.value g ⟨budget.depth, headers, primitive⟩ budget.nodes input 0 0 with
    | error err => simp [read] at accepted
    | ok answer =>
      obtain ⟨size, left⟩ := answer
      simp only [read] at accepted
      split at accepted
      · rename_i all
        obtain ⟨t, tail, rfl, reads, sized⟩ := value_eq_ok_iff.mp read
        obtain rfl : tail = [] := by
          rw [List.length_append, sized] at all
          exact List.length_eq_zero_iff.mp (by omega)
        have fits := reads.fits
        have spends := reads.spends
        simp only [Walker.Fits] at fits
        exact ⟨t, reads.wf, (List.append_nil _).symm, by omega, by omega, reads.accepts⟩
      · cases accepted
  · rintro ⟨t, wf, rfl, depth, count, accepts⟩
    have read : Walker.value g ⟨budget.depth, headers, primitive⟩ budget.nodes t.encode 0 0 =
        .ok (⟨t.encode.length, Tree.two_le_length wf⟩, budget.nodes - t.count) :=
      value_eq_ok_iff.mpr ⟨t, [], (List.append_nil _).symm,
        ⟨wf, .inr (by simpa using depth), by omega, accepts⟩, rfl⟩
    simp [walkExact, read]

/-! ## Bounded BER -/

/-- An identifier in high-tag-number form. -/
def IsHighTag (head : Bytes) : Prop := ∃ b ∈ head.head?, b &&& 0x1f = 0x1f

/-- A header `Headers::Short` accepts: a low tag number, and at most four octets announced by the
initial length octet. -/
def IsShortHead (head : Bytes) : Prop := ¬ IsHighTag head ∧ lengthOctets head ≤ 4

theorem isLongForm_eq_false_iff {t : Tree} {tail : Bytes} (wf : t.WF (headerReader g) tail) :
    isLongForm t.header = false ↔ IsShortHead t.head := by
  have read := Tree.header_encode wf
  have two := (headerReader g).two_le_head read
  rw [Tree.head_length wf] at two
  obtain ⟨content, whole⟩ := Tree.head_starts t
  obtain ⟨a, b, rest, split⟩ : ∃ a b rest, t.head = a :: b :: rest := by
    match t.head, two with
    | a :: b :: rest, _ => exact ⟨a, b, rest, rfl⟩
  have high := (headerReader g).highTagForm_iff read
  have short := (headerReader g).short_head read
  rw [← whole, split] at high short
  rw [IsShortHead, IsHighTag, split, isLongForm, Bool.or_eq_false_iff]
  simp only [List.cons_append, List.head?_cons, Option.mem_def, Option.some.injEq,
    exists_eq_left'] at high ⊢
  rw [← high, Bool.not_eq_true]
  refine and_congr_right fun low => ?_
  have headLength : t.header.head = 2 + lengthOctets (a :: b :: rest) := short low
  rw [decide_eq_false_iff_not, headLength]
  omega

theorem refusesForm_eq_false_iff {h : Header} :
    w.refusesForm h = false ↔ (w.headers = .short → isLongForm h = false) := by
  unfold Walker.refusesForm
  cases w.headers <;> simp

theorem level_plain (depth : Nat) (headers : Headers) (h : Header) (string : Nat) :
    ∃ level, Walker.level ⟨depth, headers, none⟩ h string = some level := by
  by_cases inside : string > 0
  · exact ⟨string + 1, if_pos inside⟩
  · exact ⟨0, by simp [Walker.level, inside]⟩

mutual

/-- Without a check, the verdict is the header forms alone. -/
theorem accepts_plain_iff {depth : Nat} {headers : Headers} : ∀ (t : Tree) (string : Nat)
    {tail : Bytes}, t.WF (headerReader g) tail → (Walker.Accepts ⟨depth, headers, none⟩ string t ↔
      (headers = .short → t.AllHeads IsShortHead))
  | .primitive h hd content, string, _, wf => by
    have form := isLongForm_eq_false_iff wf
    simp only [Tree.header, Tree.head] at form
    simp [Walker.Accepts, refusesForm_eq_false_iff, Walker.refusesPrimitive, Tree.AllHeads, form]
  | .definite h hd ts, string, _, wf => by
    have form := isLongForm_eq_false_iff wf
    simp only [Tree.header, Tree.head] at form
    obtain ⟨level, leveled⟩ := level_plain depth headers h string
    simp [Walker.Accepts, refusesForm_eq_false_iff, Walker.refusesString, Tree.AllHeads, form,
      leveled, acceptsAll_plain_iff ts level wf.2.2.2.2.2, imp_and]
  | .indefinite h hd ts, string, _, wf => by
    have form := isLongForm_eq_false_iff wf
    simp only [Tree.header, Tree.head] at form
    obtain ⟨level, leveled⟩ := level_plain depth headers h string
    simp [Walker.Accepts, refusesForm_eq_false_iff, Walker.refusesString, Tree.AllHeads, form,
      leveled, acceptsAll_plain_iff ts level wf.2.2.2.2.1, imp_and]

theorem acceptsAll_plain_iff {depth : Nat} {headers : Headers} : ∀ (ts : List Tree) (level : Nat)
    {tail : Bytes}, Tree.WFAll (headerReader g) tail ts →
    (Walker.AcceptsAll ⟨depth, headers, none⟩ level ts ↔
      (headers = .short → Tree.AllHeadsAll IsShortHead ts))
  | [], level, _, _ => by simp [Walker.AcceptsAll, Tree.AllHeadsAll]
  | t :: ts, level, _, wf => by
    rw [Walker.AcceptsAll, accepts_plain_iff t level wf.1, acceptsAll_plain_iff ts level wf.2,
      Tree.AllHeadsAll, imp_and]

end

/-- The value of `size` octets that starts the input is nothing but a header, its length of zero in
the long form: the decoder asks for an octet after it. -/
def IsBareHeader (g : Asn1GetObject) (input : Bytes) (size : Nat) : Prop :=
  (∃ h, header g input = some h ∧ h.head = size) ∧ isLongLength (input.take size) = true

/-- A header of a definite length is the same whatever follows the content. -/
theorem header_take_append {input : Bytes} {h : Header} (headerSome : header g input = some h)
    {tail : Bytes} (more : IsBareHeader g input (definiteSize h) → tail ≠ []) :
    header g (input.take (definiteSize h) ++ tail) = some h := by
  have fits := (headerReader g).fits headerSome
  have whole : (input.take (definiteSize h)).length = definiteSize h := by
    rw [List.length_take]; exact Nat.min_eq_left fits
  have within : h.head ≤ definiteSize h := Nat.le_add_right _ _
  refine (headerReader g).header_congr headerSome ?_ ?_ fun long => ?_
  · rw [List.take_append_of_le_length (by rwa [whole]), List.take_take, Nat.min_eq_left within]
  · rw [List.length_append, whole]; exact Nat.le_add_right _ _
  · rw [List.length_append, whole]
    by_cases bare : h.head = definiteSize h
    · have positive := List.length_pos_iff.mpr (more ⟨⟨h, headerSome, bare⟩, bare ▸ long⟩)
      omega
    · omega

/-- Whatever the verdict, the octets after a value of definite length do not decide it. -/
theorem value_take_append {input : Bytes} {h : Header} (headerSome : header g input = some h)
    (definite : h.indefinite = false) {tail : Bytes}
    (more : IsBareHeader g input (definiteSize h) → tail ≠ []) (nodes depth string : Nat) :
    w.value g nodes (input.take (definiteSize h) ++ tail) depth string =
      w.value g nodes input depth string := by
  have headerTake := header_take_append headerSome more
  have whole : (input.take (definiteSize h)).length = definiteSize h := by
    rw [List.length_take]; exact Nat.min_eq_left ((headerReader g).fits headerSome)
  have same : ∀ n ≤ definiteSize h,
      (input.take (definiteSize h) ++ tail).take n = input.take n := by
    intro n within
    rw [List.take_append_of_le_length (by rwa [whole]), List.take_take, Nat.min_eq_left within]
  have content : ((input.take (definiteSize h) ++ tail).drop h.head).take h.content =
      (input.drop h.head).take h.content := by
    rw [List.take_drop, List.take_drop]
    exact congrArg (List.drop h.head) (same _ (Nat.le_refl _))
  cases nodes with
  | zero => rw [Walker.value, Walker.value]
  | succ n =>
    rw [value_of_header headerTake, value_of_header headerSome]
    simp only [definite, Bool.false_eq_true, ↓reduceIte, content, same _ (Nat.le_refl _)]
    cases w.level h string with
    | none => rfl
    | some level =>
      cases children : w.filling g n ((input.drop h.head).take h.content) (depth + 1) level with
      | error err => simp only [children]
      | ok answer =>
        obtain ⟨walked, left⟩ := answer
        obtain ⟨_, _, _, walkedLength, _⟩ := filling_sound _ _ _ _ _ _ children
        have within : h.head + walked ≤ definiteSize h := by
          rw [List.length_take] at walkedLength
          rw [definiteSize]
          omega
        simp only [children, same _ within]

/-- **The header walk accepts exactly bounded BER.** The plain walk accepts an input exactly when
it is the encoding of one tree within both budgets; `Headers.short` further asks that no header, at
any depth, is in a long form. Whatever the verdict, nothing after a container of definite length
decides it, and an accepted value's answer does not depend on what follows it; only of a value that
is nothing but a header with a length of zero in the long form does the decoder ask that something
follow. That the walk ends on every input is `Walker.value` being a total function. -/
theorem walkExact_plain_iff (g : Asn1GetObject) (input : Bytes) (budget : Budget) :
    (walkExact g input budget .ber none = .ok () ↔
      ∃ t : Tree, t.WF (headerReader g) [] ∧ t.encode = input ∧ t.depth ≤ budget.depth ∧
        t.count ≤ budget.nodes) ∧
    (walkExact g input budget .short none = .ok () ↔
      ∃ t : Tree, t.WF (headerReader g) [] ∧ t.encode = input ∧ t.depth ≤ budget.depth ∧
        t.count ≤ budget.nodes ∧ t.AllHeads IsShortHead) ∧
    (∀ (w : Walker) (nodes depth string : Nat) (h : Header), header g input = some h →
      h.indefinite = false → ∀ tail, (IsBareHeader g input (definiteSize h) → tail ≠ []) →
      w.value g nodes input depth string =
        w.value g nodes (input.take (definiteSize h) ++ tail) depth string) ∧
    (∀ (w : Walker) (nodes depth string : Nat) (size : Size) (left : Nat),
      w.value g nodes input depth string = .ok (size, left) →
      size.1 ≤ input.length ∧ ∀ tail, (IsBareHeader g input size.1 → tail ≠ []) →
        w.value g nodes (input.take size.1 ++ tail) depth string = .ok (size, left)) := by
  refine ⟨?_, ?_, ?_, ?_⟩
  · rw [walkExact_eq_ok_iff]
    refine exists_congr fun t => and_congr_right fun wf => ?_
    simp [accepts_plain_iff t 0 wf]
  · rw [walkExact_eq_ok_iff]
    refine exists_congr fun t => and_congr_right fun wf => ?_
    simp [accepts_plain_iff t 0 wf]
  · intro w nodes depth string h headerSome definite tail more
    exact (value_take_append headerSome definite more nodes depth string).symm
  · intro w nodes depth string size left accepted
    obtain ⟨t, rest, rfl, reads, sized⟩ := value_eq_ok_iff.mp accepted
    have read : header g (t.encode ++ rest) = some t.header := Tree.header_encode reads.wf
    rw [← sized, List.take_left, List.length_append]
    refine ⟨Nat.le_add_right _ _, fun tail more => ?_⟩
    have retail : t.WF (headerReader g) tail := reads.wf.retail fun ⟨whole, long⟩ =>
      more ⟨⟨t.header, read, by rw [Tree.head_length reads.wf, whole]⟩,
        by rwa [List.take_left, whole]⟩
    exact value_complete t nodes tail depth string left size
      ⟨retail, reads.fits, reads.spends, reads.accepts⟩ sized.symm

/-- `asn1_get_length`: whether the length is indefinite, the octets it takes, and its value. -/
def getLength : Bytes → Option (Bool × Nat × Nat)
  | [] => none
  | first :: rest =>
    if first = 0x80 then some (true, 1, 0)
    else if first < 0x80 then some (false, 1, first.toNat)
    else
      let announced := first.toNat - 0x80
      -- one octet more than a length needs
      if rest.length < announced + 1 then none
      else
        let digits := (rest.take announced).dropWhile (· == 0)
        let length := digits.foldl (fun n digit => n * 256 + digit.toNat) 0
        if digits.length > 8 ∨ length ≥ 2 ^ 63 then none else some (false, 1 + announced, length)

/-- `ASN1_get_object` on identifiers of one octet. -/
def lowTagObject : Bytes → Option Asn1Object
  | [] => none
  | first :: rest =>
    if first &&& 0x1f = 0x1f then none
    else
      match getLength rest with
      | none => none
      | some (indefinite, octets, length) =>
        if indefinite = true ∧ first &&& 0x20 = 0 then none
        else if rest.length < octets + length then none
        else
          some { tag := (first &&& 0x1f).toNat, cls := (first &&& 0xc0).toNat,
                 constructed := first &&& 0x20 != 0, indefinite := indefinite,
                 head := 1 + octets, length := length }

theorem getLength_cases {input : Bytes} {indefinite : Bool} {octets length : Nat}
    (e : getLength input = some (indefinite, octets, length)) :
    ∃ first rest, input = first :: rest ∧ octets = 1 + (first.toNat - 0x80) ∧
      (indefinite = true → length = 0) ∧ (0x80 < first → octets < input.length) := by
  cases input with
  | nil => cases e
  | cons first rest =>
    refine ⟨first, rest, rfl, ?_⟩
    rw [getLength] at e
    split at e
    · rename_i isIndefinite
      cases e
      subst isIndefinite
      exact ⟨rfl, fun _ => rfl, fun long => absurd long (by decide)⟩
    · split at e
      · rename_i short
        cases e
        have low : first.toNat < 128 := UInt8.lt_iff_toNat_lt.mp short
        refine ⟨by omega, fun absent => absurd absent Bool.false_ne_true, fun long => ?_⟩
        have high : 128 < first.toNat := UInt8.lt_iff_toNat_lt.mp long
        omega
      · dsimp only at e
        split at e
        · cases e
        · rename_i enough
          split at e
          · cases e
          · obtain ⟨rfl, rfl, -⟩ : false = indefinite ∧ 1 + (first.toNat - 0x80) = octets ∧ _ := by
              simpa only [Option.some.injEq, Prod.mk.injEq] using e
            refine ⟨rfl, fun absent => absurd absent Bool.false_ne_true, fun _ => ?_⟩
            rw [List.length_cons]
            omega

/-- Only the length's own octets decide it, and that one more is there. -/
theorem getLength_congr {input other : Bytes} {indefinite : Bool} {octets length : Nat}
    (e : getLength input = some (indefinite, octets, length))
    (same : other.take octets = input.take octets)
    (more : ((input.take octets).head?.any fun b => 0x80 < b) = true → octets < other.length) :
    getLength other = some (indefinite, octets, length) := by
  obtain ⟨first, rest, rfl, sized, -, -⟩ := getLength_cases e
  rw [sized, Nat.add_comm 1, List.take_succ_cons] at same
  obtain _ | ⟨first', rest'⟩ := other
  · cases same
  rw [List.take_succ_cons, List.cons.injEq] at same
  obtain ⟨rfl, same⟩ := same
  rw [getLength] at e ⊢
  split at e
  · rename_i isIndefinite
    rw [if_pos isIndefinite]
    exact e
  · rename_i definite
    rw [if_neg definite]
    split at e
    · rename_i short
      rw [if_pos short]
      exact e
    · rename_i notShort
      rw [if_neg notShort]
      dsimp only at e ⊢
      have enough : first'.toNat - 0x80 + 1 ≤ rest'.length := by
        have long : 0x80 < first' := by
          rw [UInt8.lt_iff_toNat_lt] at notShort ⊢
          have differ : first'.toNat ≠ 128 := fun equal => definite (UInt8.toNat_inj.mp equal)
          have low : (0x80 : UInt8).toNat = 128 := rfl
          omega
        have := more (by rw [sized, Nat.add_comm 1]; simpa using long)
        rw [List.length_cons] at this
        omega
      rw [if_neg (Nat.not_lt.mpr enough), same]
      split at e
      · cases e
      · exact e

theorem lowTagObject_cases {i : Bytes} {o : Asn1Object} (e : lowTagObject i = some o) :
    ∃ first rest octets, i = first :: rest ∧ first &&& 0x1f ≠ 0x1f ∧
      getLength rest = some (o.indefinite, octets, o.length) ∧ o.head = 1 + octets ∧
      o.head + o.length ≤ i.length ∧ o.constructed = (first &&& 0x20 != 0) ∧
      (o.indefinite = true → o.constructed = true) ∧
      ∀ rest', octets + o.length ≤ rest'.length →
        getLength rest' = some (o.indefinite, octets, o.length) →
        lowTagObject (first :: rest') = some o := by
  cases i with
  | nil => cases e
  | cons first rest =>
    rw [lowTagObject] at e
    split at e
    · cases e
    · rename_i low
      split at e
      · cases e
      · rename_i indefinite octets length read
        split at e
        · cases e
        · rename_i allowed
          split at e
          · cases e
          · rename_i fits
            cases e
            refine ⟨first, rest, octets, rfl, low, read, rfl, ?_, rfl, ?_, ?_⟩
            · rw [List.length_cons]
              dsimp only
              omega
            · intro isIndefinite
              simpa using fun primitive => allowed ⟨isIndefinite, primitive⟩
            · intro rest' enough read'
              dsimp only at read' enough
              rw [lowTagObject, if_neg low, read']
              dsimp only
              rw [if_neg allowed, if_neg (Nat.not_lt.mpr enough)]

/-- OpenSSL's header decoder on identifiers of one octet. -/
def lowTag : Asn1GetObject where
  getObject := lowTagObject
  two_le_head e := by
    obtain ⟨_, _, octets, rfl, _, read, head, _⟩ := lowTagObject_cases e
    obtain ⟨_, _, _, sized, _⟩ := getLength_cases read
    omega
  head_le e := by
    obtain ⟨_, _, _, _, _, _, _, fits, _⟩ := lowTagObject_cases e
    omega
  indefinite_constructed e isIndefinite := by
    obtain ⟨_, _, _, _, _, read, _, _, _, constructed, _⟩ := lowTagObject_cases e
    obtain ⟨_, _, _, _, empty, _⟩ := getLength_cases read
    exact ⟨constructed isIndefinite, empty isIndefinite⟩
  constructed_iff e := by
    obtain ⟨_, _, _, same, _, _, _, _, constructed, _⟩ := lowTagObject_cases e
    obtain ⟨rfl, _⟩ := List.cons.inj same
    simp [constructed]
  short_head {b i o} e _ := by
    obtain ⟨_, _, octets, same, _, read, head, _⟩ := lowTagObject_cases e
    obtain ⟨rfl, rfl⟩ := List.cons.inj same
    obtain ⟨first, rest, rfl, sized, _⟩ := getLength_cases read
    have announced : lengthOctets (b :: first :: rest) = first.toNat - 0x80 := rfl
    omega
  getObject_congr {i j o} e same enough more := by
    obtain ⟨first, rest, octets, rfl, low, read, head, _, _, _, again⟩ := lowTagObject_cases e
    rw [head, Nat.add_comm 1, List.take_succ_cons] at same more
    obtain _ | ⟨first', rest'⟩ := j
    · cases same
    rw [List.take_succ_cons, List.cons.injEq] at same
    obtain ⟨rfl, same⟩ := same
    rw [List.length_cons] at enough more
    refine again rest' (by omega) (getLength_congr read same fun long => ?_)
    have more := more (by rwa [isLongLength, fromLength, if_neg low])
    omega

/-- A SEQUENCE of one INTEGER, whatever follows it. -/
theorem walkExact_plain_sequence :
    (∀ (w : Walker) (nodes depth string : Nat) (tail : Bytes),
      w.value lowTag nodes [0x30, 3, 2, 1, 5, 9] depth string =
        w.value lowTag nodes ([0x30, 3, 2, 1, 5] ++ tail) depth string) ∧
    ∀ tail, Walker.value lowTag ⟨1, .ber, none⟩ 2 ([0x30, 3, 2, 1, 5] ++ tail) 0 0 =
      .ok (⟨5, by decide⟩, 0) := by
  have ⟨_, _, definite, accepted⟩ :=
    walkExact_plain_iff lowTag [0x30, 3, 2, 1, 5, 9] ⟨1, 2⟩
  have full : ∀ {tail}, IsBareHeader lowTag [0x30, 3, 2, 1, 5, 9] 5 → tail ≠ ([] : Bytes) :=
    fun bare => absurd bare.2 (by decide)
  refine ⟨fun w nodes depth string tail => ?_, fun tail => ?_⟩
  · exact definite w nodes depth string
      { tag := 16, cls := 0, constructed := true, indefinite := false, head := 2, content := 3,
        highTagForm := false } (by decide) rfl tail full
  · exact (accepted ⟨1, .ber, none⟩ 2 0 0 ⟨5, by decide⟩ 0 (by decide +kernel)).2 tail full

/-! ## Wrapping -/

mutual

theorem accepts_maxDepth {d d' : Nat} {headers : Headers} {primitive : Option (Bytes → Bool)} :
    ∀ (t : Tree) (string : Nat), Walker.Accepts ⟨d, headers, primitive⟩ string t →
      Walker.Accepts ⟨d', headers, primitive⟩ string t
  | .primitive .., _, accepts => accepts
  | .definite _ _ ts, _, ⟨form, level, leveled, accepts, noEoc, check⟩ =>
    ⟨form, level, leveled, acceptsAll_maxDepth ts level accepts, noEoc, check⟩
  | .indefinite _ _ ts, _, ⟨form, level, leveled, accepts, check⟩ =>
    ⟨form, level, leveled, acceptsAll_maxDepth ts level accepts, check⟩

theorem acceptsAll_maxDepth {d d' : Nat} {headers : Headers} {primitive : Option (Bytes → Bool)} :
    ∀ (ts : List Tree) (level : Nat), Walker.AcceptsAll ⟨d, headers, primitive⟩ level ts →
      Walker.AcceptsAll ⟨d', headers, primitive⟩ level ts
  | [], _, _ => trivial
  | t :: ts, level, accepts =>
    ⟨accepts_maxDepth t level accepts.1, acceptsAll_maxDepth ts level accepts.2⟩

end

/-- The octets are exactly one value by the plain walk, whatever its size. -/
def IsValue (g : Asn1GetObject) (v : Bytes) : Prop :=
  ∃ budget, walkExact g v budget .ber none = .ok ()

/-- A header of a SEQUENCE, of a SET or of a constructed value outside the universal class, in a
form `headers` accepts. -/
structure IsContainer (headers : Headers) (h : Header) : Prop where
  constructed : h.constructed = true
  kind : h.cls ≠ vAsn1Universal ∨ h.tag = vAsn1Sequence ∨ h.tag = vAsn1Set
  form : headers = .short → isLongForm h = false

/-- The container's header and, for an indefinite length, the end-of-contents octets, around
`content`. -/
inductive Wraps (g : Asn1GetObject) (headers : Headers) (content : Bytes) : Bytes → Prop
  | definite (head : Bytes) (h : Header) (container : IsContainer headers h)
      (read : header g (head ++ content) = some h) (length : h.indefinite = false)
      (headLength : h.head = head.length) (contentLength : h.content = content.length) :
      Wraps g headers content (head ++ content)
  | indefinite (head : Bytes) (h : Header) (container : IsContainer headers h)
      (read : header g (head ++ (content ++ eoc)) = some h) (length : h.indefinite = true)
      (headLength : h.head = head.length) :
      Wraps g headers content (head ++ (content ++ eoc))

/-- `v` inside so many containers, each the only child of the next. -/
inductive Nested (g : Asn1GetObject) (headers : Headers) (v : Bytes) : Nat → Bytes → Prop
  | bare : Nested g headers v 0 v
  | wrap {k : Nat} {inner outer : Bytes} (nested : Nested g headers v k inner)
      (wraps : Wraps g headers inner outer) : Nested g headers v (k + 1) outer

theorem isValue_iff {v : Bytes} :
    IsValue g v ↔ ∃ t : Tree, t.WF (headerReader g) [] ∧ t.encode = v := by
  constructor
  · rintro ⟨budget, accepted⟩
    obtain ⟨t, wf, rfl, _⟩ := walkExact_eq_ok_iff.mp accepted
    exact ⟨t, wf, rfl⟩
  · rintro ⟨t, wf, rfl⟩
    exact ⟨⟨t.depth, t.count⟩, walkExact_eq_ok_iff.mpr ⟨t, wf, rfl, Nat.le_refl _, Nat.le_refl _,
      (accepts_plain_iff t 0 wf).mpr (by simp)⟩⟩

/-- The walk of a known value: both budgets and the verdict on its one tree. -/
theorem walkExact_encode_iff {t : Tree} (wf : t.WF (headerReader g) []) {d n : Nat}
    {headers : Headers} {primitive : Option (Bytes → Bool)} :
    walkExact g t.encode ⟨d, n⟩ headers primitive = .ok () ↔
      t.depth ≤ d ∧ t.count ≤ n ∧ Walker.Accepts ⟨0, headers, primitive⟩ 0 t := by
  rw [walkExact_eq_ok_iff]
  constructor
  · rintro ⟨t', wf', same, depth, count, accepts⟩
    obtain rfl : t' = t :=
      Tree.unambiguous t' t [] [] wf' wf (congrArg (· ++ []) same)
    exact ⟨depth, count, accepts_maxDepth t' 0 accepts⟩
  · rintro ⟨depth, count, accepts⟩
    exact ⟨t, wf, rfl, depth, count, accepts_maxDepth t 0 accepts⟩

/-- A container's children are judged as values of their own: level 0, no string to check. -/
theorem level_container {headers : Headers} {h : Header} (container : IsContainer headers h)
    {d : Nat} {primitive : Option (Bytes → Bool)} :
    Walker.level ⟨d, headers, primitive⟩ h 0 = some 0 := by
  rw [Walker.level, if_neg (by decide), if_neg]
  obtain ⟨_, foreign | sequence | set, _⟩ := container
  · simp [foreign]
  · simp [sequence]
  · simp [set]

theorem accepts_container_iff {headers : Headers} {h : Header} (container : IsContainer headers h)
    {d : Nat} {primitive : Option (Bytes → Bool)} {hd : Bytes} {ts : List Tree}
    (noEoc : ∀ t ∈ ts, ¬ eoc <+: t.encode) :
    (Walker.Accepts ⟨d, headers, primitive⟩ 0 (.definite h hd ts) ↔
      Walker.AcceptsAll ⟨d, headers, primitive⟩ 0 ts) ∧
    (Walker.Accepts ⟨d, headers, primitive⟩ 0 (.indefinite h hd ts) ↔
      Walker.AcceptsAll ⟨d, headers, primitive⟩ 0 ts) := by
  have form : Walker.refusesForm ⟨d, headers, primitive⟩ h = false :=
    refusesForm_eq_false_iff.mpr container.form
  have unchecked : ∀ value, Walker.refusesString ⟨d, headers, primitive⟩ 0 value = false := by
    intro value
    cases primitive <;> rfl
  simp only [Walker.Accepts, form, level_container container, unchecked, true_and, and_true,
    Option.some.injEq, exists_eq_left', and_iff_left_iff_imp]
  exact fun _ _ => noEoc

/-- The tree of a wrapped content: its children are the content's values. -/
theorem wraps_tree {headers : Headers} {content outer : Bytes}
    (wraps : Wraps g headers content outer)
    {ts : List Tree} (wf : ∀ t ∈ ts, t.WF (headerReader g) []) (fills : Tree.encodeAll ts = content)
    (noEoc : ∀ t ∈ ts, ¬ eoc <+: t.encode) :
    ∃ t : Tree, t.WF (headerReader g) [] ∧ t.encode = outer ∧ t.depth = 1 + Tree.depthAll ts ∧
      t.count = 1 + Tree.countAll ts ∧ t.header.constructed = true ∧
      ∀ primitive, Walker.Accepts ⟨0, headers, primitive⟩ 0 t ↔
        Walker.AcceptsAll ⟨0, headers, primitive⟩ 0 ts := by
  subst fills
  cases wraps with
  | definite head h container read length headLength contentLength =>
    exact ⟨.definite h head ts, ⟨(List.append_nil _).symm ▸ read, container.constructed, length,
      headLength, contentLength, Tree.wfAll_of_alone wf []⟩,
      rfl, rfl, rfl, container.constructed, fun _ => (accepts_container_iff container noEoc).1⟩
  | indefinite head h container read length headLength =>
    exact ⟨.indefinite h head ts, ⟨(List.append_nil _).symm ▸ read, container.constructed, length,
      headLength, Tree.wfAll_of_alone wf _, noEoc⟩,
      rfl, rfl, rfl, container.constructed, fun _ => (accepts_container_iff container noEoc).2⟩

/-- Values that fit the budgets and pass the verdict can be walked one by one, each with its share
of the nodes. -/
theorem shares_iff (headers : Headers) (primitive : Option (Bytes → Bool)) (d : Nat) :
    ∀ (ts : List Tree) (n : Nat), (∀ t ∈ ts, t.WF (headerReader g) []) →
    (Tree.depthAll ts ≤ d ∧ Tree.countAll ts ≤ n ∧
        Walker.AcceptsAll ⟨0, headers, primitive⟩ 0 ts ↔
      ∃ shares : List Nat, shares.sum ≤ n ∧
        List.Forall₂ (fun v share => walkExact g v ⟨d, share⟩ headers primitive = .ok ())
          (ts.map Tree.encode) shares)
  | [], n, _ => by
    simp only [Tree.depthAll, Tree.countAll, Walker.AcceptsAll, Nat.zero_le, true_and, true_iff]
    exact ⟨[], Nat.zero_le n, .nil⟩
  | t :: ts, n, wf => by
    obtain ⟨own, later⟩ := List.forall_mem_cons.mp wf
    simp only [Tree.depthAll, Tree.countAll, Walker.AcceptsAll, List.map_cons]
    constructor
    · rintro ⟨depth, count, accepts, acceptsAll⟩
      obtain ⟨shares, sum, each⟩ := (shares_iff headers primitive d ts (n - t.count) later).mp
        ⟨by omega, by omega, acceptsAll⟩
      refine ⟨t.count :: shares, by rw [List.sum_cons]; omega, .cons ?_ each⟩
      exact (walkExact_encode_iff own).mpr ⟨by omega, Nat.le_refl _, accepts⟩
    · rintro ⟨shares, sum, each⟩
      cases each with
      | cons first each =>
        rename_i share shares
        rw [List.sum_cons] at sum
        obtain ⟨depth, count, accepts⟩ := (walkExact_encode_iff own).mp first
        obtain ⟨depthAll, countAll, acceptsAll⟩ :=
          (shares_iff headers primitive d ts (n - share) later).mpr ⟨shares, by omega, each⟩
        exact ⟨by omega, by omega, accepts, acceptsAll⟩

theorem exists_values {vs : List Bytes} (values : ∀ v ∈ vs, IsValue g v) :
    ∃ ts : List Tree, ts.map Tree.encode = vs ∧ ∀ t ∈ ts, t.WF (headerReader g) [] := by
  induction vs with
  | nil => exact ⟨[], rfl, by simp⟩
  | cons v vs ih =>
    obtain ⟨value, later⟩ := List.forall_mem_cons.mp values
    obtain ⟨t, wf, rfl⟩ := isValue_iff.mp value
    obtain ⟨ts, rfl, wfAll⟩ := ih later
    exact ⟨t :: ts, rfl, List.forall_mem_cons.mpr ⟨wf, wfAll⟩⟩

theorem exists_trees {vs : List Bytes} (values : ∀ v ∈ vs, IsValue g v ∧ ¬ eoc <+: v) :
    ∃ ts : List Tree, ts.map Tree.encode = vs ∧ (∀ t ∈ ts, t.WF (headerReader g) []) ∧
      Tree.encodeAll ts = vs.flatten ∧ ∀ t ∈ ts, ¬ eoc <+: t.encode := by
  obtain ⟨ts, rfl, wfAll⟩ := exists_values fun v mem => (values v mem).1
  exact ⟨ts, rfl, wfAll, Tree.encodeAll_eq_flatten ts,
    fun t mem => (values _ (List.mem_map_of_mem mem)).2⟩

theorem walkExact_wraps_iff {headers : Headers} {primitive : Option (Bytes → Bool)} {d n : Nat}
    {vs : List Bytes} (values : ∀ v ∈ vs, IsValue g v ∧ ¬ eoc <+: v) {outer : Bytes}
    (wraps : Wraps g headers vs.flatten outer) :
    walkExact g outer ⟨d + 1, n + 1⟩ headers primitive = .ok () ↔
      ∃ shares : List Nat, shares.sum ≤ n ∧
        List.Forall₂ (fun v share => walkExact g v ⟨d, share⟩ headers primitive = .ok ())
          vs shares := by
  obtain ⟨ts, rfl, wfAll, fills, noEoc⟩ := exists_trees values
  obtain ⟨t, wf, rfl, depth, count, _, accepts⟩ := wraps_tree wraps wfAll fills noEoc
  rw [walkExact_encode_iff wf, ← shares_iff headers primitive d ts n wfAll, accepts, depth, count]
  refine and_congr (by omega) (and_congr_left' (by omega))

theorem walkExact_wraps_one_iff {headers : Headers} {primitive : Option (Bytes → Bool)} {d n : Nat}
    {v outer : Bytes} (value : IsValue g v) (noEoc : ¬ eoc <+: v)
    (wraps : Wraps g headers v outer) :
    walkExact g outer ⟨d + 1, n + 1⟩ headers primitive = .ok () ↔
      walkExact g v ⟨d, n⟩ headers primitive = .ok () := by
  obtain ⟨t, wf, rfl⟩ := isValue_iff.mp value
  obtain ⟨outer, wfOuter, rfl, depth, count, _, accepts⟩ := wraps_tree wraps
    (List.forall_mem_singleton.mpr wf) (List.append_nil _) (List.forall_mem_singleton.mpr noEoc)
  rw [walkExact_encode_iff wfOuter, walkExact_encode_iff wf, accepts, depth, count]
  simp only [Tree.depthAll, Tree.countAll, Walker.AcceptsAll, and_true]
  refine and_congr (by omega) (and_congr_left' (by omega))

/-- A container is one value again, and does not start with the end-of-contents octets. -/
theorem isValue_wraps {headers : Headers} {v outer : Bytes} (value : IsValue g v)
    (noEoc : ¬ eoc <+: v) (wraps : Wraps g headers v outer) :
    IsValue g outer ∧ ¬ eoc <+: outer := by
  obtain ⟨inner, wfInner, rfl⟩ := isValue_iff.mp value
  obtain ⟨t, wf, rfl, _, _, constructed, _⟩ := wraps_tree wraps
    (List.forall_mem_singleton.mpr wfInner) (List.append_nil _)
    (List.forall_mem_singleton.mpr noEoc)
  refine ⟨isValue_iff.mpr ⟨t, wf, rfl⟩, ?_⟩
  rintro ⟨tail, starts⟩
  have read := Tree.header_encode wf
  rw [← starts, List.append_assoc] at read
  exact absurd ((headerReader g).constructed_iff read |>.mp constructed) (by decide)

/-- **The verdict does not depend on how deep a value sits.** Any number of containers around a
value, each its only content, take one level and one node each and change nothing else; a container
of several values is accepted exactly when each is accepted on its own with its share of the node
budget. -/
theorem walkExact_nested_iff (g : Asn1GetObject) (headers : Headers)
    (primitive : Option (Bytes → Bool)) (d n : Nat) :
    (∀ (v : Bytes), IsValue g v → ¬ eoc <+: v → ∀ (k : Nat) (outer : Bytes),
      Nested g headers v k outer →
      (walkExact g outer ⟨d + k, n + k⟩ headers primitive = .ok () ↔
        walkExact g v ⟨d, n⟩ headers primitive = .ok ())) ∧
    (∀ (vs : List Bytes), (∀ v ∈ vs, IsValue g v ∧ ¬ eoc <+: v) → ∀ (outer : Bytes),
      Wraps g headers vs.flatten outer →
      (walkExact g outer ⟨d + 1, n + 1⟩ headers primitive = .ok () ↔
        ∃ shares : List Nat, shares.sum ≤ n ∧
          List.Forall₂ (fun v share => walkExact g v ⟨d, share⟩ headers primitive = .ok ())
            vs shares)) := by
  refine ⟨fun v value noEoc k outer nested => ?_, fun vs values outer wraps =>
    walkExact_wraps_iff values wraps⟩
  -- the invariant of the induction: what is wrapped next is again one value
  suffices (IsValue g outer ∧ ¬ eoc <+: outer) ∧
      (walkExact g outer ⟨d + k, n + k⟩ headers primitive = .ok () ↔
        walkExact g v ⟨d, n⟩ headers primitive = .ok ()) from this.2
  induction nested with
  | bare => exact ⟨⟨value, noEoc⟩, Iff.rfl⟩
  | wrap nested wraps ih =>
    obtain ⟨inside, same⟩ := ih
    refine ⟨isValue_wraps inside.1 inside.2 wraps, ?_⟩
    rw [← same, ← Nat.add_assoc, ← Nat.add_assoc]
    exact walkExact_wraps_one_iff inside.1 inside.2 wraps

/-- An INTEGER in a SEQUENCE of definite length in a SET of indefinite length, and two INTEGERs in
one SEQUENCE, under a check that accepts encodings of three octets. -/
theorem walkExact_nested_integer :
    (walkExact lowTag [0x31, 0x80, 0x30, 3, 2, 1, 5, 0, 0] ⟨0 + 2, 1 + 2⟩ .short
        (some fun v => v.length == 3) = .ok () ↔
      walkExact lowTag [2, 1, 5] ⟨0, 1⟩ .short (some fun v => v.length == 3) = .ok ()) ∧
    (walkExact lowTag [0x30, 6, 2, 1, 5, 2, 1, 6] ⟨0 + 1, 1 + 1⟩ .short
        (some fun v => v.length == 3) = .ok () ↔
      ∃ shares : List Nat, shares.sum ≤ 1 ∧
        List.Forall₂ (fun v share => walkExact lowTag v ⟨0, share⟩ .short
          (some fun v => v.length == 3) = .ok ()) [[2, 1, 5], [2, 1, 6]] shares) := by
  have five : IsValue lowTag [2, 1, 5] := ⟨⟨0, 1⟩, by decide +kernel⟩
  have six : IsValue lowTag [2, 1, 6] := ⟨⟨0, 1⟩, by decide +kernel⟩
  have ⟨one, several⟩ := walkExact_nested_iff lowTag .short (some fun v => v.length == 3) 0 1
  constructor
  · refine one [2, 1, 5] five (by decide) 2 _ (.wrap (.wrap .bare (.definite [0x30, 3] ?_ ?_ ?_ ?_
      ?_ ?_)) (.indefinite [0x31, 0x80] ?_ ?_ ?_ ?_ ?_))
    · exact ⟨16, 0, true, false, 2, 3, false⟩
    · exact ⟨rfl, .inr (.inl rfl), fun _ => by decide⟩
    · decide
    · rfl
    · rfl
    · rfl
    · exact ⟨17, 0, true, true, 2, 0, false⟩
    · exact ⟨rfl, .inr (.inr rfl), fun _ => by decide⟩
    · decide
    · rfl
    · rfl
  · refine several [[2, 1, 5], [2, 1, 6]] (by simp [five, six, eoc]) _
      (.definite [0x30, 6] ?_ ?_ ?_ ?_ ?_ ?_)
    · exact ⟨16, 0, true, false, 2, 6, false⟩
    · exact ⟨rfl, .inr (.inl rfl), fun _ => by decide⟩
    · decide
    · rfl
    · rfl
    · rfl

end Openssl

end ReceiptVerifier
