import ReceiptVerifier.Verify.Handed

/-!
# The values a walk hands to its check

What an accepting run hands over is computed from the tree it read (`judged`), and said of the
octets alone (`Judged`): the universal primitives of a checked type outside any constructed string,
and the constructed strings at their outermost level. With the order of the calls, which holds of
every run, that is the whole of what the check sees.
-/

namespace ReceiptVerifier

namespace Openssl

open Ber (Header Tree eoc)
open Subslice (Of Ascend)

variable {g : Asn1GetObject} {w : Walker}

/-! ## What an accepting run hands over -/

mutual

/-- The values of a tree that are handed over, for a tree that starts at `start` outside any
string. -/
def judged (start : Nat) : Tree → List (Subslice UInt8)
  | .primitive h hd content =>
    if isChecked h then [⟨start, hd ++ content⟩] else []
  | .definite h hd children =>
    if isString h then [⟨start, hd ++ Tree.encodeAll children⟩]
    else judgedAll (start + hd.length) children
  | .indefinite h hd children =>
    if isString h then [⟨start, hd ++ (Tree.encodeAll children ++ eoc)⟩]
    else judgedAll (start + hd.length) children

def judgedAll (start : Nat) : List Tree → List (Subslice UInt8)
  | [] => []
  | t :: ts => judged start t ++ judgedAll (start + t.encode.length) ts

end

theorem judgedAll_append (start : Nat) (ts ts' : List Tree) :
    judgedAll start (ts ++ ts') =
      judgedAll start ts ++ judgedAll (start + (Tree.encodeAll ts).length) ts' := by
  induction ts generalizing start with
  | nil => rfl
  | cons t ts ih =>
    rw [List.cons_append, judgedAll, ih, judgedAll, List.append_assoc, Tree.encodeAll,
      List.length_append, Nat.add_assoc]

/-- A constructed value outside a string, once the values inside it are walked. -/
theorem events_constructed (checked : w.primitive.isSome = true) {h : Header}
    (constructed : h.constructed = true) {level : Nat} (leveled : w.level h 0 = some level)
    {start head : Nat} {input : Bytes} {two : 2 ≤ head} {walked left : Nat} {ts : List Tree}
    {run : Handed (Except WalkError (Nat × Nat))} (value : run.value = .ok (walked, left))
    (silent : 0 < level → run.events = [])
    (inside : level = 0 → run.events = judgedAll (start + head) ts) :
    (run >>= w.closes start input two level).events =
      if isString h then [⟨start, input.take (head + walked)⟩]
      else judgedAll (start + head) ts := by
  rw [events_closes value, checked, Bool.true_and]
  have outside := Walker.level_outside checked constructed leveled
  cases string : isString h with
  | true =>
    obtain rfl : level = 1 := by rw [outside, string]; rfl
    rw [silent Nat.zero_lt_one]
    rfl
  | false =>
    obtain rfl : level = 0 := by rw [outside, string]; rfl
    rw [inside rfl]
    exact List.append_nil _

mutual

theorem events_tracedValue (checked : w.primitive.isSome = true) : ∀ (t : Tree)
    (nodes start : Nat) (tail : Bytes) (depth left : Nat),
    Reads g w nodes tail depth 0 left t →
    (w.tracedValue g nodes start (t.encode ++ tail) depth 0).events = judged start t := by
  intro t nodes start tail depth left reads
  have read : header g (t.encode ++ tail) = some t.header := Tree.header_encode reads.wf
  obtain ⟨wf, fits, spends, accepts⟩ := reads
  match t, wf, accepts with
  | .primitive h hd content, ⟨_, primitive, headLength, contentLength⟩, ⟨form, _⟩ =>
    change header g _ = some h at read
    obtain rfl : nodes = left + 1 := by rw [← spends, Tree.count, Nat.add_comm]
    have whole : definiteSize h = (hd ++ content).length := by
      rw [definiteSize, headLength, contentLength, List.length_append]
    rw [tracedValue_of_header read, form, if_neg Bool.false_ne_true, if_pos primitive,
      Traced.events_bind_ite, Walker.events_handsPrimitive, checked, judged, whole, Tree.encode,
      List.take_left]
    rfl
  | .definite h hd ts, ⟨_, constructed, definite, headLength, contentLength, wfAll⟩,
      ⟨form, level, leveled, acceptsAll, noEoc, _⟩ =>
    change header g _ = some h at read
    have ⟨shallow, fitsAll⟩ := fits_succ.mp fits
    obtain rfl : nodes = Tree.countAll ts + left + 1 := by rw [← spends, Tree.count]; omega
    have content : (((Tree.definite h hd ts).encode ++ tail).drop h.head).take h.content =
        Tree.encodeAll ts := by
      rw [headLength, contentLength, Tree.encode, List.append_assoc, List.drop_left, List.take_left]
    have taken : ((Tree.definite h hd ts).encode ++ tail).take
        (h.head + (Tree.encodeAll ts).length) = hd ++ Tree.encodeAll ts := by
      rw [headLength, ← List.length_append, Tree.encode, List.take_left]
    have readsAll : ReadsAll g w (Tree.countAll ts + left) [] (depth + 1) level left ts :=
      ⟨wfAll, fitsAll, rfl, acceptsAll⟩
    rw [tracedValue_of_header read]
    simp only [form, constructed, leveled, Bool.false_eq_true, Bool.true_eq_false, if_false,
      Nat.not_le.mpr shallow]
    rw [Walker.inside, definite, if_neg Bool.false_ne_true, content,
      events_constructed checked constructed leveled
        ((value_tracedFilling _ _ _ _ _).trans (filling_complete ts _ _ _ _ readsAll noEoc))
        (hands_tracedFilling _ _ _ _ _).silent fun outside => by
          subst outside
          exact events_tracedFilling checked ts _ _ _ _ readsAll noEoc,
      taken, judged, headLength]
  | .indefinite h hd ts, ⟨_, constructed, indefinite, headLength, wfAll, noEoc⟩,
      ⟨form, level, leveled, acceptsAll, _⟩ =>
    change header g _ = some h at read
    have ⟨shallow, fitsAll⟩ := fits_succ.mp fits
    obtain rfl : nodes = Tree.countAll ts + left + 1 := by rw [← spends, Tree.count]; omega
    have content : ((Tree.indefinite h hd ts).encode ++ tail).drop h.head =
        Tree.encodeAll ts ++ (eoc ++ tail) := by
      rw [headLength, Tree.encode, List.append_assoc, List.drop_left, List.append_assoc]
    have taken : ((Tree.indefinite h hd ts).encode ++ tail).take
        (h.head + (Tree.encodeAll ts ++ eoc).length) = hd ++ (Tree.encodeAll ts ++ eoc) := by
      rw [headLength, ← List.length_append, Tree.encode, List.take_left]
    have readsAll :
      ReadsAll g w (Tree.countAll ts + left) (eoc ++ tail) (depth + 1) level left ts :=
      ⟨wfAll, fitsAll, rfl, acceptsAll⟩
    rw [tracedValue_of_header read]
    simp only [form, constructed, leveled, Bool.false_eq_true, Bool.true_eq_false, if_false,
      Nat.not_le.mpr shallow]
    rw [Walker.inside, indefinite, if_pos rfl, content,
      events_constructed checked constructed leveled
        ((value_tracedUntilEoc _ _ _ _ _).trans
          (untilEoc_complete ts _ _ _ _ _ readsAll noEoc))
        (hands_tracedUntilEoc _ _ _ _ _).silent fun outside => by
          subst outside
          exact events_tracedUntilEoc checked ts _ _ _ _ _ readsAll noEoc,
      taken, judged, headLength]

theorem events_tracedUntilEoc (checked : w.primitive.isSome = true) : ∀ (ts : List Tree)
    (nodes start : Nat) (tail : Bytes) (depth left : Nat),
    ReadsAll g w nodes (eoc ++ tail) depth 0 left ts → (∀ t ∈ ts, ¬ eoc <+: t.encode) →
    (w.tracedUntilEoc g nodes start (Tree.encodeAll ts ++ (eoc ++ tail)) depth 0).events =
      judgedAll start ts
  | [], nodes, start, tail, depth, left, _, _ => by
    rw [Tree.encodeAll, List.nil_append, eoc, List.cons_append, Walker.tracedUntilEoc]
    rfl
  | t :: ts, nodes, start, tail, depth, left, reads, noEoc => by
    obtain ⟨mid, first, later⟩ := readsAll_cons.mp reads
    obtain ⟨noEocFirst, noEocLater⟩ := List.forall_mem_cons.mp noEoc
    have two := Tree.two_le_length first.wf
    have stays := Tree.not_eoc_append first.wf noEocFirst (Tree.encodeAll ts ++ (eoc ++ tail))
    have own := value_complete t nodes _ depth 0 mid ⟨t.encode.length, two⟩ first rfl
    have handed := events_tracedValue checked t nodes start _ depth mid first
    obtain ⟨octet, more, cons⟩ :=
      Tree.encode_append_eq_cons first.wf (Tree.encodeAll ts ++ (eoc ++ tail))
    rw [Tree.encodeAll, List.append_assoc]
    rw [cons] at own stays handed ⊢
    rw [Walker.tracedUntilEoc, if_neg (by rwa [isPrefixOf_eoc_iff]),
      events_goesOn ((value_tracedValue _ _ _ _ _).trans own), handed, judgedAll, ← cons,
      List.drop_left, events_tracedUntilEoc checked ts mid _ tail depth left later noEocLater]

theorem events_tracedFilling (checked : w.primitive.isSome = true) : ∀ (ts : List Tree)
    (nodes start depth left : Nat), ReadsAll g w nodes [] depth 0 left ts →
    (w.primitive.isSome = true → ∀ t ∈ ts, ¬ eoc <+: t.encode) →
    (w.tracedFilling g nodes start (Tree.encodeAll ts) depth 0).events = judgedAll start ts
  | [], nodes, start, depth, left, _, _ => by
    rw [Tree.encodeAll, Walker.tracedFilling]
    rfl
  | t :: ts, nodes, start, depth, left, reads, noEoc => by
    obtain ⟨mid, first, later⟩ := readsAll_cons.mp reads
    obtain ⟨noEocFirst, noEocLater⟩ := List.forall_mem_cons.mp (noEoc checked)
    have two := Tree.two_le_length first.wf
    have stays := Tree.not_eoc_append first.wf noEocFirst (Tree.encodeAll ts)
    rw [List.append_nil] at first
    have own := value_complete t nodes _ depth 0 mid ⟨t.encode.length, two⟩ first rfl
    have handed := events_tracedValue checked t nodes start _ depth mid first
    obtain ⟨octet, more, cons⟩ := Tree.encode_append_eq_cons first.wf (Tree.encodeAll ts)
    rw [Tree.encodeAll]
    rw [cons] at own stays handed ⊢
    rw [Walker.tracedFilling, checked, Bool.true_and, if_neg (by rwa [isPrefixOf_eoc_iff]),
      events_goesOn ((value_tracedValue _ _ _ _ _).trans own), handed, judgedAll, ← cons,
      List.drop_left, events_tracedFilling checked ts mid _ depth left later fun _ => noEocLater]

end

/-! ## The values of the input -/

/-- A value at its place, beside what follows it in its slice: the `v` that starts at `start` before
`tail`, or one inside it. `around` are the headers of the constructed values it stands in, the
outermost first. -/
inductive Inside (g : Asn1GetObject) :
    Nat → Bytes → Bytes → List Header → Bytes → Subslice UInt8 → Prop
  | self (start : Nat) (tail v : Bytes) : Inside g start tail v [] tail ⟨start, v⟩
  | part {start : Nat} {tail v part rest : Bytes} {h : Header} {before after : List Bytes}
    {around : List Header} {s : Subslice UInt8} (own : Parts g tail v h (before ++ part :: after))
    (inside : Inside g (start + h.head + before.flatten.length)
      (after.flatten ++ following h.indefinite tail) part around rest s) :
    Inside g start tail v (h :: around) rest s

/-- A value outside any constructed string that is a universal primitive of a checked type or itself
a constructed string. -/
def Judged (g : Asn1GetObject) (start : Nat) (tail v : Bytes) (s : Subslice UInt8) : Prop :=
  ∃ around rest h, Inside g start tail v around rest s ∧ header g (s.items ++ rest) = some h ∧
    (∀ k ∈ around, isString k = false) ∧
    (h.constructed = false ∧ isChecked h = true ∨ isString h = true)

theorem inside_encode_iff {t : Tree} {tail : Bytes} (wf : t.WF (headerReader g) tail) {start : Nat}
    {around : List Header} {rest : Bytes} {s : Subslice UInt8} :
    Inside g start tail t.encode around rest s ↔
      (around = [] ∧ rest = tail ∧ s = ⟨start, t.encode⟩) ∨
      (t.header.constructed = true ∧ ∃ before c after more, t.children = before ++ c :: after ∧
        around = t.header :: more ∧
        Inside g (start + t.head.length + (Tree.encodeAll before).length)
          (Tree.encodeAll after ++ t.inner tail) c.encode more rest s) := by
  constructor
  · intro inside
    cases inside with
    | self => exact .inl ⟨rfl, rfl, rfl⟩
    | @part _ _ _ part _ h before after more _ own inside =>
      obtain ⟨rfl, parts⟩ := own.eq_of_tree wf
      obtain ⟨before, later, split, rfl, last⟩ := List.map_eq_append_iff.mp parts.symm
      obtain ⟨c, after, rfl, rfl, rfl⟩ := List.map_eq_cons_iff.mp last
      rw [Tree.head_length wf, ← Tree.encodeAll_eq_flatten, ← Tree.encodeAll_eq_flatten,
        ← inner_eq_following wf] at inside
      exact .inr ⟨own.constructed, before, c, after, more, split, rfl, inside⟩
  · rintro (⟨rfl, rfl, rfl⟩ | ⟨constructed, before, c, after, more, split, rfl, inside⟩)
    · exact .self _ _ _
    · have own := parts_of_tree wf constructed
      rw [split, List.map_append, List.map_cons] at own
      rw [← Tree.head_length wf, Tree.encodeAll_eq_flatten, Tree.encodeAll_eq_flatten,
        inner_eq_following wf] at inside
      exact .part own inside

theorem judged_eq {t : Tree} {tail : Bytes} (wf : t.WF (headerReader g) tail) (start : Nat) :
    judged start t =
      if t.header.constructed = false then
        if isChecked t.header then [⟨start, t.encode⟩] else []
      else if isString t.header then [⟨start, t.encode⟩]
      else judgedAll (start + t.head.length) t.children := by
  cases t with
  | primitive => exact (if_pos wf.2.1).symm
  | definite =>
    have constructed := wf.2.1
    exact (if_neg (by simp [Tree.header, constructed])).symm
  | indefinite =>
    have constructed := wf.2.1
    exact (if_neg (by simp [Tree.header, constructed])).symm

theorem mem_judgedAll_iff {ts : List Tree} {start : Nat} {s : Subslice UInt8} :
    s ∈ judgedAll start ts ↔ ∃ before c after, ts = before ++ c :: after ∧
      s ∈ judged (start + (Tree.encodeAll before).length) c := by
  constructor
  · induction ts generalizing start with
    | nil => exact fun mem => absurd mem List.not_mem_nil
    | cons t ts ih =>
      intro mem
      rw [judgedAll, List.mem_append] at mem
      obtain own | later := mem
      · exact ⟨[], t, ts, rfl, own⟩
      · obtain ⟨before, c, after, rfl, mem⟩ := ih later
        refine ⟨t :: before, c, after, rfl, ?_⟩
        rwa [Tree.encodeAll, List.length_append, ← Nat.add_assoc]
  · rintro ⟨before, c, after, rfl, mem⟩
    rw [judgedAll_append, judgedAll]
    exact List.mem_append_right _ (List.mem_append_left _ mem)

/-- What is handed over of a tree, said of its octets alone. -/
theorem mem_judged_iff (t : Tree) {tail : Bytes} (wf : t.WF (headerReader g) tail) {start : Nat}
    {s : Subslice UInt8} : s ∈ judged start t ↔ Judged g start tail t.encode s := by
  induction t using Tree.induction_children generalizing start tail with
  | own t ih =>
    have read : header g (t.encode ++ tail) = some t.header := Tree.header_encode wf
    have own : ∀ h, header g ((⟨start, t.encode⟩ : Subslice UInt8).items ++ tail) = some h →
        h = t.header := fun h read' => Option.some.inj (read'.symm.trans read)
    have wfOf : ∀ {before c after}, t.children = before ++ c :: after →
        c.WF (headerReader g) (Tree.encodeAll after ++ t.inner tail) := fun split =>
      Tree.wf_of_wfAll (split ▸ Tree.wf_children wf)
    rw [judged_eq wf]
    cases constructed : t.header.constructed with
    | false =>
      have noString : isString t.header = false := by rw [isString, constructed, Bool.false_and]
      rw [if_pos rfl]
      constructor
      · intro mem
        split at mem
        · rename_i checked
          obtain rfl := List.mem_singleton.mp mem
          exact ⟨[], tail, t.header, .self _ _ _, read, by simp, .inl ⟨constructed, checked⟩⟩
        · exact absurd mem List.not_mem_nil
      · rintro ⟨around, rest, h, inside, read', outside, kind⟩
        obtain ⟨rfl, rfl, rfl⟩ | ⟨constructed', _⟩ := (inside_encode_iff wf).mp inside
        · obtain rfl := own h read'
          obtain ⟨-, checked⟩ | string := kind
          · rw [if_pos checked]
            exact List.mem_singleton_self _
          · cases noString.symm.trans string
        · cases constructed.symm.trans constructed'
    | true =>
      rw [if_neg (by decide)]
      cases string : isString t.header with
      | true =>
        rw [if_pos rfl, List.mem_singleton]
        constructor
        · rintro rfl
          exact ⟨[], tail, t.header, .self _ _ _, read, by simp, .inr string⟩
        · rintro ⟨around, rest, h, inside, read', outside, kind⟩
          obtain ⟨rfl, rfl, rfl⟩ | ⟨_, _, _, _, _, _, rfl, _⟩ := (inside_encode_iff wf).mp inside
          · rfl
          · cases string.symm.trans (outside t.header List.mem_cons_self)
      | false =>
        rw [if_neg Bool.false_ne_true, mem_judgedAll_iff]
        constructor
        · rintro ⟨before, c, after, split, mem⟩
          have inTree : c ∈ t.children := split ▸ List.mem_append_right before List.mem_cons_self
          obtain ⟨around, rest, h, inside, read', outside, kind⟩ :=
            (ih c inTree (wfOf split)).mp mem
          exact ⟨t.header :: around, rest, h, (inside_encode_iff wf).mpr
            (.inr ⟨constructed, before, c, after, around, split, rfl, inside⟩), read',
            List.forall_mem_cons.mpr ⟨string, outside⟩, kind⟩
        · rintro ⟨around, rest, h, inside, read', outside, kind⟩
          obtain ⟨rfl, rfl, rfl⟩ | ⟨_, before, c, after, more, split, rfl, deeper⟩ :=
            (inside_encode_iff wf).mp inside
          · obtain rfl := own h read'
            obtain ⟨primitive, -⟩ | string' := kind
            · cases constructed.symm.trans primitive
            · cases string.symm.trans string'
          · have inTree : c ∈ t.children := split ▸ List.mem_append_right before List.mem_cons_self
            exact ⟨before, c, after, split, (ih c inTree (wfOf split)).mpr
              ⟨more, rest, h, deeper, read', (List.forall_mem_cons.mp outside).2, kind⟩⟩

/-- **The check sees every value it is there for, once, and nothing twice.** Whatever the input, the
budget, the header forms and the check, and however the walk ends, what it hands over are disjoint
subslices of the input, so no longer than it together. When the walk succeeds they are exactly the
universal primitives of a checked type outside any constructed string and the outermost universal
constructed values that are neither a SEQUENCE nor a SET, each as its whole encoding. -/
theorem walkExact_hands_over (g : Asn1GetObject) (input : Bytes) (budget : Budget)
    (headers : Headers) (check : Bytes → Bool) :
    ∃ handed, tracedWalkExact g input budget headers (some check) =
        ⟨walkExact g input budget headers (some check), handed⟩ ∧
      (handed.Pairwise fun s s' => Disjoint s.positions s'.positions) ∧
      (∀ s ∈ handed, Of input s) ∧ (handed.map fun s => s.items.length).sum ≤ input.length ∧
      handed.Nodup ∧
      (walkExact g input budget headers (some check) = .ok () →
        ∀ s, s ∈ handed ↔ Judged g 0 [] input s) := by
  have hands := hands_tracedValue (g := g) (w := ⟨budget.depth, headers, some check⟩) budget.nodes 0
    input 0 0
  have traced : tracedWalkExact g input budget headers (some check) =
      ⟨walkExact g input budget headers (some check), (Walker.tracedValue g
        ⟨budget.depth, headers, some check⟩ budget.nodes 0 input 0 0).events⟩ := by
    rw [← value_tracedWalkExact, ← events_tracedWalkExact]
  refine ⟨_, traced, hands.within.disjoint, hands.of input (Subslice.of_self input), ?_,
    hands.within.nodup hands.nonempty, fun accepted s => ?_⟩
  · have := hands.within.length_sum_le
    omega
  · obtain ⟨t, wf, rfl, depth, count, accepts⟩ := walkExact_eq_ok_iff.mp accepted
    have reads : Reads g ⟨budget.depth, headers, some check⟩ budget.nodes [] 0 0
        (budget.nodes - t.count) t :=
      ⟨wf, .inr (by rwa [Nat.zero_add]), Nat.add_sub_of_le count, accepts⟩
    have handed := events_tracedValue rfl t budget.nodes 0 [] 0 _ reads
    rw [List.append_nil] at handed
    rw [handed]
    exact mem_judged_iff t wf

/-- A SEQUENCE of an INTEGER, of a context value around an OCTET STRING of one INTEGER, and of a
BOOLEAN. -/
theorem walkExact_hands_over_sequence :
    ∃ handed, tracedWalkExact lowTag
        [0x30, 15, 2, 1, 5, 0xa0, 7, 0x24, 0x80, 2, 1, 7, 0, 0, 1, 1, 0xff] ⟨3, 6⟩ .short
        (some fun v => v.length < 8) = ⟨.ok (), handed⟩ ∧
      ∀ s, s ∈ handed ↔ Judged lowTag 0 []
        [0x30, 15, 2, 1, 5, 0xa0, 7, 0x24, 0x80, 2, 1, 7, 0, 0, 1, 1, 0xff] s := by
  have ⟨handed, traced, _, _, _, _, all⟩ := walkExact_hands_over lowTag
    [0x30, 15, 2, 1, 5, 0xa0, 7, 0x24, 0x80, 2, 1, 7, 0, 0, 1, 1, 0xff] ⟨3, 6⟩ .short
    (fun v => v.length < 8)
  have accepted : walkExact lowTag
      [0x30, 15, 2, 1, 5, 0xa0, 7, 0x24, 0x80, 2, 1, 7, 0, 0, 1, 1, 0xff] ⟨3, 6⟩ .short
      (some fun v => v.length < 8) = .ok () := by decide +kernel
  rw [accepted] at traced
  exact ⟨handed, traced, all accepted⟩

end Openssl

end ReceiptVerifier
