import SymbolHistory.Proofs.Diff.Patch

namespace SymbolHistory.Diff

variable {α : Type}

/-- The deleted and inserted elements of a block. -/
def Block.edits (b : Block) : Nat := if b.tag = .equal then 0 else b.oldLen + b.newLen

def editsOf : List Block → Nat
  | [] => 0
  | b :: bs => b.edits + editsOf bs

@[simp] theorem editsOf_nil : editsOf [] = 0 := rfl

@[simp] theorem editsOf_cons (b : Block) (bs : List Block) :
    editsOf (b :: bs) = b.edits + editsOf bs := rfl

@[simp] theorem editsOf_append (as bs : List Block) :
    editsOf (as ++ bs) = editsOf as + editsOf bs := by
  induction as with
  | nil => exact (Nat.zero_add _).symm
  | cons a as ih => rw [List.cons_append, editsOf_cons, editsOf_cons, ih, Nat.add_assoc]

@[simp] theorem editsOf_reverse (bs : List Block) : editsOf bs.reverse = editsOf bs := by
  induction bs with
  | nil => rfl
  | cons b bs ih =>
    simp [ih]
    omega

theorem Block.edits_of_equal {b : Block} (h : b.tag = .equal) : b.edits = 0 := if_pos h

theorem Block.edits_of_ne {b : Block} (h : b.tag ≠ .equal) : b.edits = b.oldLen + b.newLen :=
  if_neg h

theorem Block.edits_absorb {b c : Block} (hb : b.tag ≠ .equal) (hc : c.tag ≠ .equal) :
    (b.absorb c).edits = b.edits + c.edits := by
  have ha : (b.absorb c).tag ≠ .equal := hb
  rw [edits_of_ne ha, edits_of_ne hb, edits_of_ne hc]
  simp only [absorb]
  omega

section Settling

theorem editsOf_leaveBelow (prev moving : Block) (s : Nat) (after : List Block) :
    editsOf (leaveBelow prev moving s after) = editsOf after := by
  cases after with
  | nil => rfl
  | cons next after =>
    simp only [leaveBelow]
    split
    · next hn =>
      have hg : (next.growStart s).tag = .equal := hn
      rw [editsOf_cons, editsOf_cons, Block.edits_of_equal hg, Block.edits_of_equal hn]
    · exact Nat.zero_add _

theorem editsOf_leaveAbove (next moving : Block) (p : Nat) (before : List Block) :
    editsOf (leaveAbove next moving p before) = editsOf before := by
  cases before with
  | nil => rfl
  | cons prev before =>
    simp only [leaveAbove]
    split
    · next hp =>
      have hg : (prev.growEnd p).tag = .equal := hp
      rw [editsOf_cons, editsOf_cons, Block.edits_of_equal hg, Block.edits_of_equal hp]
    · exact Nat.zero_add _

variable [DecidableEq α] {old new : List α} {before after before' after' : List Block}
  {moving moving' : Block}

theorem moveUpThrough_edits (hm : moving.tag ≠ .equal)
    (h : moveUpThrough old new before moving after = (before', moving', after')) :
    editsOf before' + moving'.edits + editsOf after' =
      editsOf before + moving.edits + editsOf after := by
  fun_induction moveUpThrough old new before moving after with
  | case1 moving after =>
    cases h
    rfl
  | case2 moving after prev rest hp s _ _ he ih =>
    rw [ih hm h, editsOf_cons, Block.edits_of_equal hp, Nat.zero_add]
  | case3 moving after prev rest hp s _ _ he =>
    cases h
    rfl
  | case4 moving after prev rest hp s _ hs below he ih =>
    rw [ih hm h, editsOf_leaveBelow, editsOf_cons, Block.edits_of_equal hp, Nat.zero_add]
    rfl
  | case5 moving after prev rest hp s _ hs below he ih =>
    have hcut : (prev.cutEnd s).tag = .equal := hp
    rw [ih hm h, editsOf_leaveBelow, editsOf_cons, editsOf_cons, Block.edits_of_equal hp,
      Block.edits_of_equal hcut]
    rfl
  | case6 moving after prev rest hp heq ih =>
    rw [ih hp h, Block.edits_absorb hp hm, editsOf_cons]
    omega
  | case7 moving after prev rest hp hne ih =>
    rw [ih hm h, editsOf_cons, editsOf_cons]
    omega

theorem moveDownThrough_edits (hm : moving.tag ≠ .equal)
    (h : moveDownThrough old new before moving after = (before', moving', after')) :
    editsOf before' + moving'.edits + editsOf after' =
      editsOf before + moving.edits + editsOf after := by
  fun_induction moveDownThrough old new before moving after with
  | case1 before moving =>
    cases h
    rfl
  | case2 before moving next rest hn p _ _ he ih =>
    rw [ih hm h, editsOf_cons, Block.edits_of_equal hn, Nat.zero_add]
  | case3 before moving next rest hn p _ _ he =>
    cases h
    rfl
  | case4 before moving next rest hn p _ hp above he ih =>
    rw [ih hm h, editsOf_leaveAbove, editsOf_cons, Block.edits_of_equal hn, Nat.zero_add]
    rfl
  | case5 before moving next rest hn p _ hp above he ih =>
    have hcut : (next.cutStart p).tag = .equal := hn
    rw [ih hm h, editsOf_leaveAbove, editsOf_cons, editsOf_cons, Block.edits_of_equal hn,
      Block.edits_of_equal hcut]
    rfl
  | case6 before moving next rest hn heq ih =>
    rw [ih hm h, Block.edits_absorb hm hn, editsOf_cons]
    omega
  | case7 before moving next rest hn hne ih =>
    rw [ih hm h, editsOf_cons, editsOf_cons]
    omega

theorem settle_edits {tag : BlockTag} (ht : tag ≠ .equal) (before after : List Block)
    (fuel : Nat) :
    editsOf (settle tag old new before after fuel) = editsOf before + editsOf after := by
  induction fuel generalizing before after with
  | zero => simp [settle]
  | succ fuel ih =>
    cases after with
    | nil => simp [settle]
    | cons b rest =>
      simp only [settle]
      split
      · next hb =>
        rcases hup : moveUpThrough old new before b rest with ⟨before₁, b₁, after₁⟩
        rcases hdown : moveDownThrough old new before₁ b₁ after₁ with ⟨before₂, b₂, after₂⟩
        have ht₁ := (moveUpThrough_reroutes (hb ▸ ht) hup).1
        have h₁ := moveUpThrough_edits (hb ▸ ht) hup
        have h₂ := moveDownThrough_edits (ht₁ ▸ hb ▸ ht) hdown
        dsimp only
        rw [ih, editsOf_cons, editsOf_cons]
        omega
      · rw [ih, editsOf_cons, editsOf_cons]
        omega

theorem compact_edits (bs : List Block) : editsOf (compact old new bs) = editsOf bs := by
  simp only [compact]
  rw [settle_edits (by decide), settle_edits (by decide)]
  simp

end Settling

theorem extend_edits {pending : Option Block} {b : Block} (hp : ∀ a ∈ pending, a.tag ≠ .equal)
    (hb : b.tag ≠ .equal) :
    editsOf (extend pending b).toList = editsOf pending.toList + b.edits := by
  cases pending with
  | none => simp [extend]
  | some a => simp [extend, Block.edits_absorb (hp a rfl) hb]

theorem pendingChange_edits_le {eq del ins : Option Block} (h : Pending eq del ins) :
    editsOf (pendingChange del ins) ≤ editsOf del.toList + editsOf ins.toList := by
  cases hd : del with
  | none => cases ins <;> simp [pendingChange]
  | some b =>
    cases hi : ins with
    | none => simp [pendingChange]
    | some c =>
      have hb : b.edits = b.oldLen + b.newLen := Block.edits_of_ne (by simp [h.del_tag b hd])
      have hc : c.edits = c.oldLen + c.newLen := Block.edits_of_ne (by simp [h.ins_tag c hi])
      have hr : (Block.replace b.oldStart b.oldLen c.newStart c.newLen).edits =
          b.oldLen + c.newLen := Block.edits_of_ne (by simp [Block.replace])
      simp only [pendingChange, Option.toList_some, editsOf_cons, editsOf_nil, hb, hc, hr]
      omega

theorem Pending.editsOf_eq {eq del ins : Option Block} (h : Pending eq del ins) :
    editsOf eq.toList = 0 := by
  cases he : eq with
  | none => rfl
  | some e => simp [Block.edits_of_equal (h.eq_tag e he)]

/-- Joining adds no edit. -/
theorem joinFrom_edits_le {eq del ins : Option Block} (h : Pending eq del ins) (bs : List Block)
    (hbs : ∀ b ∈ bs, b.tag ≠ .replace) :
    editsOf (joinFrom eq del ins bs) ≤ editsOf del.toList + editsOf ins.toList + editsOf bs := by
  induction bs generalizing eq del ins with
  | nil =>
    have := pendingChange_edits_le h
    simp only [joinFrom, editsOf_append, h.editsOf_eq, editsOf_nil]
    omega
  | cons b rest ih =>
    have hrest : ∀ c ∈ rest, c.tag ≠ .replace := fun c hc => hbs c (List.mem_cons_of_mem b hc)
    cases ht : b.tag with
    | equal =>
      have hp := pendingChange_edits_le h
      have hr := ih (h.add_equal ht) hrest
      simp only [joinFrom, ht, editsOf_append, editsOf_cons, Option.toList_none, editsOf_nil]
        at hr ⊢
      omega
    | insert =>
      have he := extend_edits (fun a (ha : a ∈ ins) => by simp [h.ins_tag a ha])
        (show b.tag ≠ .equal by simp [ht])
      have hr := ih (h.add_insert ht) hrest
      simp only [joinFrom, ht, editsOf_append, editsOf_cons, h.editsOf_eq, he] at hr ⊢
      omega
    | delete =>
      have he := extend_edits (fun a (ha : a ∈ del) => by simp [h.del_tag a ha])
        (show b.tag ≠ .equal by simp [ht])
      have hr := ih (h.add_delete ht) hrest
      simp only [joinFrom, ht, editsOf_append, editsOf_cons, h.editsOf_eq, he] at hr ⊢
      omega
    | replace => exact absurd ht (hbs b List.mem_cons_self)

section Search

variable [DecidableEq α]

theorem commonPrefix_eq_zero {xs ys : List α} :
    commonPrefix xs ys = 0 ↔ ∀ a ∈ xs.head?, a ∉ ys.head? := by
  cases xs with
  | nil => simp [commonPrefix]
  | cons x xs =>
    cases ys with
    | nil => simp [commonPrefix]
    | cons y ys =>
      by_cases hxy : x = y <;> simp [commonPrefix, hxy]
      exact fun h => hxy h.symm

theorem commonPrefix_drop (xs ys : List α) :
    commonPrefix (xs.drop (commonPrefix xs ys)) (ys.drop (commonPrefix xs ys)) = 0 := by
  induction xs generalizing ys with
  | nil => simp [commonPrefix]
  | cons x xs ih =>
    cases ys with
    | nil => simp [commonPrefix]
    | cons y ys =>
      by_cases hxy : x = y
      · simpa [commonPrefix, hxy] using ih ys
      · simp [commonPrefix, hxy]

/-- Without their common ends, lists that are both left differ at both ends. -/
theorem ends_differ {xs ys : List α} {s : Nat} (hp : commonPrefix xs ys = 0)
    (hs : commonSuffix xs ys = s) :
    (∀ a ∈ (xs.take (xs.length - s)).head?, a ∉ (ys.take (ys.length - s)).head?) ∧
      ∀ a ∈ (xs.take (xs.length - s)).getLast?, a ∉ (ys.take (ys.length - s)).getLast? := by
  constructor
  · intro a hx hy
    rw [List.head?_take] at hx hy
    split at hx
    · cases hx
    · split at hy
      · cases hy
      · exact commonPrefix_eq_zero.mp hp a hx hy
  · have hz := commonPrefix_drop xs.reverse ys.reverse
    rw [show commonPrefix xs.reverse ys.reverse = s from hs, List.drop_reverse,
      List.drop_reverse, commonPrefix_eq_zero, List.head?_reverse, List.head?_reverse] at hz
    exact hz

/-- Between their common ends two lists are no longer and no further apart, and differ at both
ends. -/
theorem Edits.between_ends {xs ys us vs : List α} {d p s : Nat} (h : Edits xs ys d)
    (hp : commonPrefix xs ys = p) (hs : commonSuffix (xs.drop p) (ys.drop p) = s)
    (hu : (xs.drop p).take ((xs.drop p).length - s) = us)
    (hv : (ys.drop p).take ((ys.drop p).length - s) = vs) :
    (∃ e ≤ d, Edits us vs e) ∧ us.length + vs.length ≤ xs.length + ys.length ∧
      (∀ a ∈ us.head?, a ∉ vs.head?) ∧ ∀ a ∈ us.getLast?, a ∉ vs.getLast? := by
  subst hp hs hu hv
  obtain ⟨c, hcd, hdrop⟩ := h.drop (commonPrefix_le_left xs ys) (commonPrefix_le_right xs ys)
  obtain ⟨e, hec, htake⟩ := hdrop.dropLast (commonSuffix_le_left _ _) (commonSuffix_le_right _ _)
  refine ⟨⟨e, Nat.le_trans hec hcd, htake⟩, ?_, ends_differ (commonPrefix_drop xs ys) rfl⟩
  simp only [List.length_take, List.length_drop]
  omega

/-- The blocks between two lists have no more edits than any script. -/
theorem splitBlocks_edits_le {xs ys : List α} {d fuel : Nat} (i j : Nat) (h : Edits xs ys d)
    (hfuel : xs.length + ys.length < fuel) : editsOf (splitBlocks i j xs ys fuel) ≤ d := by
  induction fuel generalizing i j xs ys d with
  | zero => omega
  | succ fuel ih =>
    have hequal (k l n : Nat) : editsOf (if n = 0 then [] else [.equal k l n]) = 0 := by
      split <;> rfl
    simp only [splitBlocks, editsOf_append, hequal, Nat.zero_add, Nat.add_zero]
    generalize hp : commonPrefix xs ys = p
    generalize hs : commonSuffix (xs.drop p) (ys.drop p) = s
    generalize hu : (xs.drop p).take ((xs.drop p).length - s) = us
    generalize hv : (ys.drop p).take ((ys.drop p).length - s) = vs
    obtain ⟨⟨e, hed, hmid⟩, hlen, hhead, hlast⟩ := h.between_ends hp hs hu hv
    refine Nat.le_trans ?_ hed
    split
    · exact Nat.zero_le e
    · split
      · next hnil =>
        have hle := hmid.length_left_le
        rw [List.isEmpty_iff.mp hnil] at hle
        simpa [Block.edits, Block.delete] using hle
      · next hvs =>
        split
        · next hnil =>
          have hle := hmid.length_right_le
          rw [List.isEmpty_iff.mp hnil] at hle
          simpa [Block.edits, Block.insert] using hle
        · next hus =>
          rw [List.isEmpty_iff] at hus hvs
          obtain ⟨x, y, hmeet, hcut⟩ := meeting_eq us vs
          rw [hmeet]
          obtain ⟨a, b, htake, hdrop, -, -, hmin⟩ := hcut.shortest
          obtain ⟨hpos, hlt⟩ := hcut.shorter hus hvs hhead hlast
          have hx := hcut.old_le
          have hy := hcut.new_le
          have hfirst := ih (i + p) (j + p) htake (by simp only [List.length_take]; omega)
          have hrest := ih (i + p + x) (j + p + y) hdrop
            (by simp only [List.length_drop]; omega)
          have hsum := hmin e hmid
          rw [editsOf_append]
          omega

theorem script_edits_le {old new : List α} {d : Nat} (h : Edits old new d) :
    editsOf (script old new) ≤ d := by
  have hpath := compact_reroutes _ _ _ _ _ (blocks_leads old new)
  have hjoin := joinFrom_edits_le pending_none _ hpath.tag_ne_replace
  have hblocks := splitBlocks_edits_le 0 0 h (Nat.lt_succ_self _)
  rw [compact_edits] at hjoin
  simp only [Option.toList_none, editsOf_nil, Nat.zero_add] at hjoin
  exact Nat.le_trans hjoin hblocks

end Search

theorem length_addressed (kind : ChangeKind) (line : Nat) (texts : List String) :
    (addressed kind line texts).length = texts.length := by
  simp [addressed]

theorem Block.length_changes_le (old new : List String) (b : Block) :
    (b.changes old new).length ≤ b.edits := by
  have ho := b.length_oldOf_le old
  have hn : (b.newOf new).length ≤ b.newLen := b.length_newOf_le
  cases ht : b.tag with
  | equal => simp [changes, ht]
  | delete =>
    simp only [changes, edits, ht, length_addressed, reduceCtorEq, if_false]
    omega
  | insert =>
    simp only [changes, edits, ht, length_addressed, reduceCtorEq, if_false]
    omega
  | replace =>
    simp only [changes, edits, ht, length_addressed, List.length_append, reduceCtorEq, if_false]
    omega

theorem length_flatMap_changes_le (old new : List String) (bs : List Block) :
    (bs.flatMap (Block.changes old new)).length ≤ editsOf bs := by
  induction bs with
  | nil => exact Nat.le_refl 0
  | cons b bs ih =>
    rw [List.flatMap_cons, List.length_append, editsOf_cons]
    exact Nat.add_le_add (b.length_changes_le old new) ih

/-- The changes of a patch are the edits of a script between the keys. -/
theorem IsPatch.edits {key : String → String} {i j : Nat} {xs ys : List String}
    {cs : List LineChange} (h : IsPatch key i j xs ys cs) :
    Edits (xs.map key) (ys.map key) cs.length := by
  induction h with
  | nil => exact Edits.same []
  | @keep i j x y xs ys cs hk _ ih => simpa [hk] using (Edits.same [key y]).append ih
  | @delete i j x xs ys cs _ ih =>
    simpa [Nat.add_comm] using (Edits.all [key x] []).append ih
  | @add i j y xs ys cs _ ih =>
    simpa [Nat.add_comm] using (Edits.all [] [key y]).append ih

/-- The line changes of two texts leave a longest common subsequence of their keys, so they are as
many as the lines outside of one. -/
theorem length_lineDiff (old new : String) (mode : LineComparison) :
    ∃ kept : List String,
      LongestCommon kept (mode.keys (Text.linesOf old)) (mode.keys (Text.linesOf new)) ∧
      (lineDiff old new mode).length + 2 * kept.length =
        (Text.linesOf old).length + (Text.linesOf new).length := by
  obtain ⟨kept, hold, hnew, hl⟩ := (lineDiff_isPatch old new mode).edits
  rw [← mode.map_key, ← mode.map_key]
  refine ⟨kept, Edits.longestCommon hold hnew hl fun e he => ?_, by simpa using hl.symm⟩
  rw [lineDiff_eq_flatMap]
  exact Nat.le_trans (length_flatMap_changes_le _ _ _) (script_edits_le he)

end SymbolHistory.Diff
