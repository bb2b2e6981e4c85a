import ReceiptVerifier.Verify.Chunks

/-!
# Two measures of one value

`octetString` and `sizeOfValue` are recursions of their own: one counts the levels left, the other
the levels used, and only the other counts values. `value_of_octetStringWithin` replays an accepting
run of the first as one of the second. On a value the second measures, the first answers what
`octetStringWithin_eq` says, and `Reached` names the chunk it stops at.
-/

namespace ReceiptVerifier

namespace Openssl

open Ber (Header Tree eoc)

variable {g : Asn1GetObject}

/-! ## What an accepting run of the chunk walker did -/

theorem octetStringWithin_ok_cases {input : Bytes} {depthLeft : Nat} {size : Size}
    (measured : octetStringWithin g input depthLeft = .ok size) :
    ∃ h, header g input = some h ∧ isOctetString h = true ∧
      ((h.constructed = false ∧ definiteSize h = size.1) ∨
        (h.constructed = true ∧ ∃ left walked, depthLeft = left + 1 ∧
          (if h.indefinite then chunksUntilEoc g (input.drop h.head) left
            else chunksFilling g ((input.drop h.head).take h.content) left) = .ok walked ∧
          h.head + walked = size.1)) := by
  cases read : header g input with
  | none =>
    rw [octetStringWithin] at measured
    split at measured
    · cases measured
    · rename_i read'
      cases read'.symm.trans read
  | some h =>
    refine ⟨h, rfl, ?_⟩
    rw [octetStringWithin_of_header read] at measured
    cases string : isOctetString h with
    | false => simp [string] at measured
    | true =>
      cases constructed : h.constructed with
      | false => simpa [string, constructed, Subtype.ext_iff] using measured
      | true =>
        cases depthLeft with
        | zero => simp [string, constructed] at measured
        | succ left =>
          simp only [string, constructed, Bool.true_eq_false, if_false] at measured
          split at measured
          · cases measured
          · rename_i walked chunks
            cases measured
            exact ⟨rfl, .inr ⟨rfl, left, walked, rfl, chunks, rfl⟩⟩

theorem octetStringWithin_nil {depthLeft : Nat} {size : Size} :
    octetStringWithin g [] depthLeft ≠ .ok size := by
  intro measured
  obtain ⟨h, read, _⟩ := octetStringWithin_ok_cases measured
  simp [header] at read

theorem chunksUntilEoc_ok_cases {rest : Bytes} {depthLeft walked : Nat}
    (chunks : chunksUntilEoc g rest depthLeft = .ok walked) :
    (eoc <+: rest ∧ walked = 2) ∨
      (¬ eoc <+: rest ∧ ∃ size more, octetStringWithin g rest depthLeft = .ok size ∧
        chunksUntilEoc g (rest.drop size.1) depthLeft = .ok more ∧ walked = size.1 + more) := by
  cases rest with
  | nil => simp [chunksUntilEoc] at chunks
  | cons first rest =>
    rw [chunksUntilEoc] at chunks
    by_cases stop : eoc <+: first :: rest
    · rw [if_pos (isPrefixOf_eoc_iff.mpr stop)] at chunks
      exact .inl ⟨stop, (Except.ok.inj chunks).symm⟩
    · rw [if_neg (by rwa [isPrefixOf_eoc_iff])] at chunks
      refine .inr ⟨stop, ?_⟩
      split at chunks
      · cases chunks
      · rename_i size own
        split at chunks
        · cases chunks
        · rename_i more later
          exact ⟨size, more, own, later, (Except.ok.inj chunks).symm⟩

theorem chunksFilling_ok_cases {rest : Bytes} {depthLeft walked : Nat}
    (chunks : chunksFilling g rest depthLeft = .ok walked) :
    (rest = [] ∧ walked = 0) ∨
      (rest ≠ [] ∧ ∃ size more, octetStringWithin g rest depthLeft = .ok size ∧
        chunksFilling g (rest.drop size.1) depthLeft = .ok more ∧ walked = size.1 + more) := by
  cases rest with
  | nil =>
    rw [chunksFilling] at chunks
    exact .inl ⟨rfl, (Except.ok.inj chunks).symm⟩
  | cons first rest =>
    rw [chunksFilling] at chunks
    refine .inr ⟨List.cons_ne_nil first rest, ?_⟩
    split at chunks
    · cases chunks
    · rename_i size own
      split at chunks
      · cases chunks
      · rename_i more later
        exact ⟨size, more, own, later, (Except.ok.inj chunks).symm⟩

/-! ## The replay -/

mutual

/-- What the chunk walker measures the generic walker measures too: the levels one has left are
levels the other may still use, and a value spends no more nodes than it has octets. -/
theorem value_of_octetStringWithin (maxDepth : Nat) (input : Bytes) (depthLeft : Nat) (size : Size)
    (measured : octetStringWithin g input depthLeft = .ok size) (nodes depth string : Nat)
    (enough : input.length ≤ nodes) (levels : depth + depthLeft ≤ maxDepth) :
    ∃ left, Walker.value g ⟨maxDepth, .ber, none⟩ nodes input depth string = .ok (size, left) ∧
      nodes ≤ left + size.1 := by
  obtain ⟨h, read, _, shape⟩ := octetStringWithin_ok_cases measured
  have two := (headerReader g).two_le_head read
  have fits := (headerReader g).fits read
  obtain ⟨n, rfl⟩ : ∃ n, nodes = n + 1 := ⟨nodes - 1, by omega⟩
  have form : Walker.refusesForm ⟨maxDepth, .ber, none⟩ h = false :=
    refusesForm_eq_false_iff.mpr (fun short => by cases short)
  obtain ⟨primitive, sized⟩ | ⟨constructed, depthLeft, walked, rfl, chunks, sized⟩ := shape
  · refine ⟨n, value_eq_ok_cases.mpr ⟨n, h, rfl, read, form, .inl ⟨primitive, rfl, sized, rfl⟩⟩, ?_⟩
    have := size.2
    omega
  · obtain ⟨level, leveled⟩ := level_plain maxDepth .ber h string
    have shallow : depth < maxDepth := by omega
    by_cases indefinite : h.indefinite = true
    · rw [if_pos indefinite] at chunks
      obtain ⟨left, inside, spent⟩ :=
        untilEoc_of_chunksUntilEoc maxDepth (input.drop h.head) depthLeft
        walked chunks n (depth + 1) level (by rw [List.length_drop]; omega) (by omega)
      refine ⟨left, value_eq_ok_cases.mpr ⟨n, h, rfl, read, form, .inr ⟨constructed, shallow, level,
        walked, leveled, ?_, rfl, sized⟩⟩, by omega⟩
      rw [if_pos indefinite, inside]
    · rw [if_neg indefinite] at chunks
      obtain ⟨left, inside, spent⟩ := filling_of_chunksFilling maxDepth
        ((input.drop h.head).take h.content) depthLeft walked chunks n (depth + 1) level
        (by rw [List.length_take, List.length_drop]; omega) (by omega)
      refine ⟨left, value_eq_ok_cases.mpr ⟨n, h, rfl, read, form, .inr ⟨constructed, shallow, level,
        walked, leveled, ?_, rfl, sized⟩⟩, by omega⟩
      rw [if_neg indefinite, inside]
termination_by 2 * input.length
decreasing_by
  all_goals
    simp only [List.length_take, List.length_drop]
    omega

theorem untilEoc_of_chunksUntilEoc (maxDepth : Nat) (rest : Bytes) (depthLeft walked : Nat)
    (chunks : chunksUntilEoc g rest depthLeft = .ok walked) (nodes depth level : Nat)
    (enough : rest.length ≤ nodes) (levels : depth + depthLeft ≤ maxDepth) :
    ∃ left, Walker.untilEoc g ⟨maxDepth, .ber, none⟩ nodes rest depth level = .ok (walked, left) ∧
      nodes ≤ left + walked := by
  obtain ⟨stop, rfl⟩ | ⟨go, size, more, own, later, rfl⟩ := chunksUntilEoc_ok_cases chunks
  · exact ⟨nodes, untilEoc_eq_ok_cases.mpr (.inl ⟨stop, rfl, rfl⟩), Nat.le_add_right _ _⟩
  · have nonempty : rest ≠ [] := fun empty => octetStringWithin_nil (empty ▸ own)
    have positive := List.length_pos_iff.mpr nonempty
    obtain ⟨mid, first, spent⟩ :=
      value_of_octetStringWithin maxDepth rest depthLeft size own nodes depth level enough levels
    obtain ⟨left, rest', spent'⟩ := untilEoc_of_chunksUntilEoc maxDepth (rest.drop size.1) depthLeft
      more later mid depth level (by rw [List.length_drop]; omega) levels
    exact ⟨left, untilEoc_eq_ok_cases.mpr (.inr ⟨go, size, mid, more, first, rest', rfl⟩), by omega⟩
termination_by 2 * rest.length + 1
decreasing_by
  · omega
  · have := size.2
    simp only [List.length_drop]
    omega

theorem filling_of_chunksFilling (maxDepth : Nat) (rest : Bytes) (depthLeft walked : Nat)
    (chunks : chunksFilling g rest depthLeft = .ok walked) (nodes depth level : Nat)
    (enough : rest.length ≤ nodes) (levels : depth + depthLeft ≤ maxDepth) :
    ∃ left, Walker.filling g ⟨maxDepth, .ber, none⟩ nodes rest depth level = .ok (walked, left) ∧
      nodes ≤ left + walked := by
  obtain ⟨rfl, rfl⟩ | ⟨nonempty, size, more, own, later, rfl⟩ := chunksFilling_ok_cases chunks
  · exact ⟨nodes, filling_eq_ok_cases.mpr (.inl ⟨rfl, rfl, rfl⟩), Nat.le_refl _⟩
  · have positive := List.length_pos_iff.mpr nonempty
    obtain ⟨mid, first, spent⟩ :=
      value_of_octetStringWithin maxDepth rest depthLeft size own nodes depth level enough levels
    obtain ⟨left, rest', spent'⟩ :=
      filling_of_chunksFilling maxDepth (rest.drop size.1) depthLeft more
      later mid depth level (by rw [List.length_drop]; omega) levels
    have unchecked : ¬ ((none : Option (Bytes → Bool)).isSome = true ∧ eoc <+: rest) :=
      fun checked => absurd checked.1 Bool.false_ne_true
    exact ⟨left, filling_eq_ok_cases.mpr (.inr ⟨nonempty, unchecked, size, mid, more, first, rest',
      rfl⟩), by omega⟩
termination_by 2 * rest.length + 1
decreasing_by
  · omega
  · have := size.2
    simp only [List.length_drop]
    omega

end

/-! ## The chunk a refusal names -/

/-- `v` before `tail` itself, or a chunk inside it that is reached in encoding order, beside what
follows the chunk: every value around it is a universal `OCTET STRING`, and every chunk before it is
one throughout. -/
inductive Reached (g : Asn1GetObject) : Bytes → Bytes → Bytes → Bytes → Prop
  | self (tail v : Bytes) : Reached g tail v tail v
  | chunk {tail v rest inner : Bytes} {chunk : Bytes × Bytes} {h : Header} {parts : List Bytes}
    {before after : List (Bytes × Bytes)} (own : Parts g tail v h parts)
    (split : standing (following h.indefinite tail) parts = before ++ chunk :: after)
    (string : isOctetString h = true) (earlier : ∀ p ∈ before, OctetStrings g p.2 p.1)
    (inside : Reached g chunk.2 chunk.1 rest inner) : Reached g tail v rest inner

/-- In a value that is an `OCTET STRING` throughout, so is every chunk. -/
theorem Reached.octetString {tail v rest chunk : Bytes} (reached : Reached g tail v rest chunk)
    {t : Tree} (wf : t.WF (headerReader g) tail) (encoded : t.encode = v)
    (all : t.allHeaders isOctetString = true) {h : Header}
    (read : header g (chunk ++ rest) = some h) : isOctetString h = true := by
  induction reached generalizing t with
  | self tail v =>
    subst encoded
    rw [Tree.allHeaders_eq, Bool.and_eq_true] at all
    obtain rfl := Option.some.inj (read.symm.trans (Tree.header_encode wf))
    exact all.1
  | chunk own split _ _ _ ih =>
    subst encoded
    obtain ⟨rfl, rfl⟩ := own.eq_of_tree wf
    have inside := split ▸ List.mem_append_right _ List.mem_cons_self
    rw [← inner_eq_following wf, standing_encode] at inside
    obtain ⟨p, placed, rfl⟩ := List.mem_map.mp inside
    rw [Tree.allHeaders_eq, Bool.and_eq_true, List.all_eq_true] at all
    exact ih (Tree.wfAll_iff.mp (Tree.wf_children wf) p placed) rfl
      (all.2 p.1 (Tree.mem_of_mem_placed p placed)) read

/-- In any other value some chunk is reached that is not one: the first in encoding order. -/
theorem exists_reached_foreign (t : Tree) {tail : Bytes} (wf : t.WF (headerReader g) tail)
    (foreign : t.allHeaders isOctetString = false) :
    ∃ rest chunk h, Reached g tail t.encode rest chunk ∧ header g (chunk ++ rest) = some h ∧
      isOctetString h = false := by
  induction t using Tree.induction_children generalizing tail with
  | own t ih =>
    cases string : isOctetString t.header with
    | false => exact ⟨tail, t.encode, t.header, .self _ _, Tree.header_encode wf, string⟩
    | true =>
      rw [Tree.allHeaders_eq, string, Bool.true_and, List.all_eq_false] at foreign
      obtain ⟨c₀, mem₀, foreign₀⟩ := foreign
      have constructed := Tree.constructed_of_mem_children wf mem₀
      obtain ⟨p₀, placed₀, rfl⟩ := Tree.exists_mem_placed (t.inner tail) mem₀
      have found : ((Tree.placed (t.inner tail) t.children).find?
          fun p => !p.1.allHeaders isOctetString).isSome = true :=
        List.find?_isSome.mpr ⟨p₀, placed₀, by simpa using foreign₀⟩
      obtain ⟨p, first⟩ := Option.isSome_iff_exists.mp found
      obtain ⟨foreign, before, after, split, earlier⟩ := List.find?_eq_some_iff_append.mp first
      have placed : p ∈ Tree.placed (t.inner tail) t.children :=
        split ▸ List.mem_append_right before List.mem_cons_self
      have wfAll := Tree.wfAll_iff.mp (Tree.wf_children wf)
      obtain ⟨rest, chunk, h, reached, read, other⟩ :=
        ih p.1 (Tree.mem_of_mem_placed p placed) (wfAll p placed) (by simpa using foreign)
      have places : standing (following t.header.indefinite tail) (t.children.map Tree.encode) =
          (before.map fun q => (q.1.encode, q.2)) ++
            (p.1.encode, p.2) :: after.map fun q => (q.1.encode, q.2) := by
        rw [← inner_eq_following wf, standing_encode, split, List.map_append, List.map_cons]
      refine ⟨rest, chunk, h, .chunk (parts_of_tree wf constructed) places string ?_ reached, read,
        other⟩
      rintro _ mem
      obtain ⟨q, inBefore, rfl⟩ := List.mem_map.mp mem
      have wfQ := wfAll q (split ▸ List.mem_append_left _ inBefore)
      exact (octetStrings_encode_iff q.1 wfQ).mpr (by simpa using earlier q inBefore)

/-- A measured value is the encoding of one tree, within the helpers' own depth. -/
theorem exists_tree_of_sizeOfValue {input : Bytes} {size : Size}
    (measured : sizeOfValue g input = some size) :
    ∃ (t : Tree) (tail : Bytes), input = t.encode ++ tail ∧ t.WF (headerReader g) tail ∧
      t.depth ≤ helperDepth ∧ t.encode.length = size.1 := by
  cases read : Walker.value g ⟨helperDepth, .ber, none⟩ usizeMax input 0 0 with
  | error err => simp [sizeOfValue, read] at measured
  | ok answer =>
    obtain ⟨size', left⟩ := answer
    obtain rfl : size' = size := by simpa [sizeOfValue, read] using measured
    obtain ⟨t, tail, rfl, reads, sized⟩ := value_eq_ok_iff.mp read
    have fits := reads.fits
    simp only [Walker.Fits] at fits
    exact ⟨t, tail, rfl, reads.wf, by omega, sized⟩

/-- **The two walkers measure alike.** For every slice, what `octetString` measures `sizeOfValue`
measures too, to the same size, which lies within the input; and on what `sizeOfValue` measures
`octetString` answers that size or that the string is foreign, the latter exactly when the value, or
a chunk reached in encoding order through `OCTET STRING`s only, is not a universal `OCTET
STRING`. -/
theorem octetString_sizeOfValue_agree (g : Asn1GetObject) (input : Bytes)
    (slice : input.length ≤ usizeMax) :
    (∀ size, octetString g input = .ok size →
      sizeOfValue g input = some size ∧ 2 ≤ size.1 ∧ size.1 ≤ input.length) ∧
    ∀ size, sizeOfValue g input = some size →
      (octetString g input = .ok size ∨ octetString g input = .error .foreign) ∧
      (octetString g input = .error .foreign ↔
        ∃ rest chunk h, Reached g (input.drop size.1) (input.take size.1) rest chunk ∧
          header g (chunk ++ rest) = some h ∧ isOctetString h = false) := by
  constructor
  · intro size measured
    obtain ⟨left, read, _⟩ := value_of_octetStringWithin helperDepth input helperDepth size measured
      usizeMax 0 0 slice (Nat.le_of_eq (Nat.zero_add _))
    obtain ⟨t, tail, rfl, reads, sized⟩ := value_eq_ok_iff.mp read
    refine ⟨by rw [sizeOfValue, read], size.2, ?_⟩
    rw [List.length_append, sized]
    exact Nat.le_add_right _ _
  · intro size measured
    obtain ⟨t, tail, rfl, wf, depth, sized⟩ := exists_tree_of_sizeOfValue measured
    have answer : octetString g (t.encode ++ tail) =
        if t.allHeaders isOctetString then .ok size else .error .foreign :=
      octetStringWithin_eq t wf helperDepth size depth sized.symm
    rw [answer, ← sized, List.take_left, List.drop_left]
    cases all : t.allHeaders isOctetString with
    | true =>
      refine ⟨.inl rfl, iff_of_false (by simp) ?_⟩
      rintro ⟨rest, chunk, h, reached, read, other⟩
      exact Bool.false_ne_true (other.symm.trans (reached.octetString wf rfl all read))
    | false => exact ⟨.inr rfl, iff_of_true rfl (exists_reached_foreign t wf all)⟩

/-- A string of two levels with an octet after it, and the same string with a UTF8String where its
last chunk was. -/
theorem octetString_sizeOfValue_agree_nested :
    (sizeOfValue lowTag [0x24, 0x80, 0x24, 3, 4, 1, 0x61, 4, 0, 0, 0, 9] =
      some ⟨11, by decide⟩) ∧
    ∃ rest chunk h, Reached lowTag [9] [0x24, 0x80, 0x24, 3, 4, 1, 0x61, 12, 0, 0, 0] rest chunk ∧
      header lowTag (chunk ++ rest) = some h ∧ isOctetString h = false := by
  have ⟨same, _⟩ := octetString_sizeOfValue_agree lowTag
    [0x24, 0x80, 0x24, 3, 4, 1, 0x61, 4, 0, 0, 0, 9] (by decide)
  have ⟨_, foreign⟩ := octetString_sizeOfValue_agree lowTag
    [0x24, 0x80, 0x24, 3, 4, 1, 0x61, 12, 0, 0, 0, 9] (by decide)
  exact ⟨(same ⟨11, by decide⟩ (by decide +kernel)).1,
    (foreign ⟨11, by decide⟩ (by decide +kernel)).2.mp (by decide +kernel)⟩

end Openssl

end ReceiptVerifier
