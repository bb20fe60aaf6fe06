import SymbolHistory.Proofs.Diff.Application
import SymbolHistory.Proofs.Diff.BlockStarts

namespace SymbolHistory.Diff

def HunkLine.isRemoved : HunkLine → Bool
  | removed _ => true
  | _ => false

def HunkLine.isAdded : HunkLine → Bool
  | added _ => true
  | _ => false

namespace Hunk

/-- The body has no context, at least one line, and as many lines as the header says. -/
structure WellCounted (h : Hunk) : Prop where
  noContext : ∀ l ∈ h.lines, l.isContext = false
  nonempty : h.lines ≠ []
  oldCount_eq : h.oldCount = h.lines.countP HunkLine.isRemoved
  newCount_eq : h.newCount = h.lines.countP HunkLine.isAdded

/-- The numbers of the old lines that a hunk removes. -/
def oldNumbers (h : Hunk) : List Nat := List.range' h.oldStart h.oldCount

def newNumbers (h : Hunk) : List Nat := List.range' h.newStart h.newCount

/-- Between the end of one hunk and the start of another stand `gap` lines on either side. -/
def Apart (gap : Nat) (g h : Hunk) : Prop :=
  h.oldStart = g.oldStart + g.oldCount + gap ∧ h.newStart = g.newStart + g.newCount + gap

/-- A hunk that only deletes, from the first line on, starts with the new text. -/
def anchored (h : Hunk) : Hunk :=
  if h.oldStart = 1 ∧ h.newCount = 0 then { h with newStart := 1 } else h

end Hunk

/-- Headers agree with the bodies and with one another: the first hunk starts at one line on both
sides, between two hunks and after the last are equally many lines of both, and the lines outside
have equal keys in turn. -/
structure AlignedHunks (key : String → String) (old new : List String) (hs : List Hunk) :
    Prop where
  counted : ∀ h ∈ hs, h.WellCounted
  first : ∀ h ∈ hs.head?, h.oldStart = h.newStart
  between : hs.IsChain fun g h => ∃ gap, 1 ≤ gap ∧ g.Apart gap h
  last : ∀ h ∈ hs.getLast?, ∃ rest, old.length + 1 = h.oldStart + h.oldCount + rest ∧
    new.length + 1 = h.newStart + h.newCount + rest
  outside : (linesOutside (hs.flatMap Hunk.oldNumbers) 1 old).map key =
    (linesOutside (hs.flatMap Hunk.newNumbers) 1 new).map key

/-- Hunks laid out over texts of `n` and `m` lines, the next lines being `i` and `j`: before the
first hunk stand at least `least` lines, before each later one at least one, equally many of both
texts. -/
inductive LaidOut (n m : Nat) : Nat → Nat → Nat → List Hunk → Prop
  | nil {least i j : Nat} (rest : Nat) (hold : n + 1 = i + rest) (hnew : m + 1 = j + rest) :
    LaidOut n m least i j []
  | cons {least i j : Nat} {h : Hunk} {hs : List Hunk} (gap : Nat) (hcounted : h.WellCounted)
    (hgap : least ≤ gap) (hold : h.oldStart = i + gap) (hnew : h.newStart = j + gap)
    (hs_laid : LaidOut n m 1 (h.oldStart + h.oldCount) (h.newStart + h.newCount) hs) :
    LaidOut n m least i j (h :: hs)

namespace LaidOut

variable {n m least i j : Nat} {hs : List Hunk}

theorem after_equal {len : Nat} (h : LaidOut n m 0 (i + len) (j + len) hs)
    (hlen : least ≤ len) : LaidOut n m least i j hs := by
  cases h with
  | nil rest hold hnew => exact .nil (len + rest) (by omega) (by omega)
  | cons gap hcounted _ hold hnew hrest =>
    exact .cons (len + gap) hcounted (by omega) (by omega) (by omega) hrest

theorem counted (h : LaidOut n m least i j hs) : ∀ g ∈ hs, g.WellCounted := by
  induction h with
  | nil => simp
  | cons _ hcounted _ _ _ _ ih =>
    intro g hg
    rcases List.mem_cons.mp hg with rfl | hg
    · exact hcounted
    · exact ih g hg

theorem first (h : LaidOut n m least i i hs) : ∀ g ∈ hs.head?, g.oldStart = g.newStart := by
  cases h with
  | nil => simp
  | cons gap _ _ hold hnew _ =>
    rintro g ⟨⟩
    exact hold.trans hnew.symm

theorem between (h : LaidOut n m least i j hs) :
    hs.IsChain fun g h => ∃ gap, 1 ≤ gap ∧ g.Apart gap h := by
  induction h with
  | nil => exact List.IsChain.nil
  | cons _ _ _ _ _ hrest ih =>
    refine List.isChain_cons.mpr ⟨?_, ih⟩
    cases hrest with
    | nil => simp
    | cons gap _ hgap hold hnew _ =>
      rintro g ⟨⟩
      exact ⟨gap, hgap, hold, hnew⟩

theorem add_le_oldStart (h : LaidOut n m least i j hs) : ∀ g ∈ hs, i + least ≤ g.oldStart := by
  induction h with
  | nil => simp
  | cons gap _ hgap hold _ _ ih =>
    intro g hg
    rcases List.mem_cons.mp hg with rfl | hg
    · omega
    · have := ih g hg
      omega

theorem last (h : LaidOut n m least i j hs) :
    ∀ g ∈ hs.getLast?, ∃ rest, n + 1 = g.oldStart + g.oldCount + rest ∧
      m + 1 = g.newStart + g.newCount + rest := by
  induction h with
  | nil => simp
  | cons _ _ _ _ _ hrest ih =>
    intro g hg
    cases hrest with
    | nil rest hold hnew =>
      cases hg
      exact ⟨rest, hold, hnew⟩
    | cons _ _ _ _ _ _ =>
      rw [List.getLast?_cons_cons] at hg
      exact ih g hg

end LaidOut

/-- A deletion, insertion or replacement at the positions `i` and `j` of lists of `n` and `m`
elements. Only an insertion need not know its old position, and only a deletion its new one. -/
structure Block.IsChangeAt (n m : Nat) (b : Block) (i j : Nat) : Prop where
  change : b.tag ≠ .equal
  oldLen_eq : b.tag = .insert → b.oldLen = 0
  newLen_eq : b.tag = .delete → b.newLen = 0
  old : b.tag ≠ .insert → b.oldStart = i ∧ i + b.oldLen ≤ n
  new : b.tag ≠ .delete → b.newStart = j ∧ j + b.newLen ≤ m

theorem Leads.step {α : Type} {keys keys' : List α} {b : Block} {bs : List Block}
    {i j i' j' : Nat} (h : Leads keys keys' i j ((b :: bs).flatMap Block.parts) i' j') :
    (b.tag = .equal → b.Fits keys keys' i j) ∧
      (b.tag ≠ .equal → b.IsChangeAt keys.length keys'.length i j) ∧
      Leads keys keys' (i + b.oldLen) (j + b.newLen) (bs.flatMap Block.parts) i' j' := by
  rw [List.flatMap_cons] at h
  cases ht : b.tag with
  | equal =>
    rw [Block.parts_of_ne (by simp [ht])] at h
    exact ⟨fun _ => h.1, fun hne => absurd rfl hne, h.2⟩
  | delete =>
    rw [Block.parts_of_ne (by simp [ht])] at h
    obtain ⟨hstart, hlen, hle⟩ := (Block.fits_delete ht).mp h.1
    exact ⟨by simp, fun _ => ⟨by simp [ht], by simp [ht], fun _ => hlen, fun _ => ⟨hstart, hle⟩,
      fun hne => absurd ht hne⟩, h.2⟩
  | insert =>
    rw [Block.parts_of_ne (by simp [ht])] at h
    obtain ⟨hstart, hlen, hle⟩ := (Block.fits_insert ht).mp h.1
    exact ⟨by simp, fun _ => ⟨by simp [ht], fun _ => hlen, by simp [ht], fun hne => absurd ht hne,
      fun _ => ⟨hstart, hle⟩⟩, h.2⟩
  | replace =>
    simp only [Block.parts, ht, List.cons_append, List.nil_append] at h
    obtain ⟨hdelete, hinsert, hrest⟩ := h
    obtain ⟨ho, -, hole⟩ := (Block.fits_delete rfl).mp hdelete
    obtain ⟨hn, -, hnle⟩ := (Block.fits_insert rfl).mp hinsert
    exact ⟨by simp, fun _ => ⟨by simp [ht], by simp [ht], by simp [ht], fun _ => ⟨ho, hole⟩,
      fun _ => ⟨hn, hnle⟩⟩, hrest⟩

theorem Leads.runEnd_eq {α : Type} {keys keys' : List α} {bs : List Block} {i j i' j' : Nat}
    (h : Leads keys keys' i j (bs.flatMap Block.parts) i' j')
    (hhead : ∀ b ∈ bs.head?, b.tag = .equal) : runEnd i' bs = i := by
  cases bs with
  | nil => exact h.1.symm
  | cons b bs =>
    have ht := hhead b rfl
    rw [runEnd_cons_equal ht]
    exact ((Block.fits_equal ht).mp (h.step.1 ht)).1

theorem Spaced.of_cons {b : Block} {bs : List Block} (h : Spaced (b :: bs)) : Spaced bs :=
  List.IsChain.tail h

theorem Spaced.equal_of_change {c : Block} {rest : List Block} (h : Spaced (c :: rest))
    (hc : c.tag ≠ .equal) : ∀ b ∈ rest.head?, b.tag = .equal := by
  intro b hb
  by_contra hne
  exact hc (((List.isChain_cons.mp h).1 b hb).mpr hne)

theorem Spaced.change_of_equal {e : Block} {rest : List Block} (h : Spaced (e :: rest))
    (he : e.tag = .equal) : ∀ b ∈ rest.head?, b.tag ≠ .equal := fun b hb =>
  ((List.isChain_cons.mp h).1 b hb).mp he

namespace Block.IsChangeAt

variable {n m : Nat} {b : Block} {i j : Nat}

theorem oldEnd_sub (h : b.IsChangeAt n m i j) (hi : b.tag = .insert → b.oldStart ≤ i) :
    b.oldEnd - i = b.oldLen := by
  rw [oldEnd]
  by_cases ht : b.tag = .insert
  · have := hi ht
    have := h.oldLen_eq ht
    omega
  · have := h.old ht
    omega

theorem newEnd_sub (h : b.IsChangeAt n m i j) (hd : b.tag = .delete → b.newStart ≤ j) :
    b.newEnd - j = b.newLen := by
  rw [newEnd]
  by_cases ht : b.tag = .delete
  · have := hd ht
    have := h.newLen_eq ht
    omega
  · have := h.new ht
    omega

end Block.IsChangeAt

def Block.hunkAt (old new : List String) (b : Block) (i j : Nat) : Option Hunk :=
  if (blockLines old new b).all HunkLine.isContext then none
  else some ⟨i + 1, b.oldLen, j + 1, b.newLen, blockLines old new b⟩

/-- The hunks of a script, each at the position where the script has come to. -/
def hunksAlong (old new : List String) (i j : Nat) : List Block → List Hunk
  | [] => []
  | b :: bs =>
    (b.hunkAt old new i j).toList ++ hunksAlong old new (i + b.oldLen) (j + b.newLen) bs

section Bodies

variable {old new : List String} {b : Block} {i j : Nat}

theorem Block.hunkAt_equal (ht : b.tag = .equal) : b.hunkAt old new i j = none := by
  have hall : (blockLines old new b).all HunkLine.isContext = true := by
    simp [blockLines, ht, HunkLine.isContext]
  exact if_pos hall

namespace Block.IsChangeAt

theorem length_oldOf (h : b.IsChangeAt old.length new.length i j) :
    (b.oldOf old).length = b.oldLen := by
  simp only [oldOf, List.length_take, List.length_drop]
  by_cases hi : b.tag = .insert
  · have := h.oldLen_eq hi
    omega
  · have := h.old hi
    omega

theorem length_newOf (h : b.IsChangeAt old.length new.length i j) :
    (b.newOf new).length = b.newLen := by
  simp only [newOf, List.length_take, List.length_drop]
  by_cases hd : b.tag = .delete
  · have := h.newLen_eq hd
    omega
  · have := h.new hd
    omega

theorem blockLines_eq (h : b.IsChangeAt old.length new.length i j) :
    blockLines old new b = (b.oldOf old).map .removed ++ (b.newOf new).map .added := by
  cases ht : b.tag with
  | equal => exact absurd ht h.change
  | delete => simp [blockLines, ht, newOf_eq_nil (h.newLen_eq ht)]
  | insert => simp [blockLines, ht, oldOf, h.oldLen_eq ht]
  | replace => simp only [blockLines, ht]

theorem all_isContext (h : b.IsChangeAt old.length new.length i j) :
    (blockLines old new b).all HunkLine.isContext = true ↔ b.oldLen = 0 ∧ b.newLen = 0 := by
  rw [h.blockLines_eq, ← h.length_oldOf, ← h.length_newOf, List.length_eq_zero_iff,
    List.length_eq_zero_iff]
  cases b.oldOf old with
  | nil =>
    cases b.newOf new with
    | nil => simp
    | cons t ts => simp [HunkLine.isContext]
  | cons t ts => simp [HunkLine.isContext]

theorem wellCounted (h : b.IsChangeAt old.length new.length i j)
    (hne : ¬(blockLines old new b).all HunkLine.isContext = true) (oldStart newStart : Nat) :
    (⟨oldStart, b.oldLen, newStart, b.newLen, blockLines old new b⟩ : Hunk).WellCounted := by
  have hlines := h.blockLines_eq
  constructor
  · intro l hl
    simp only [hlines, List.mem_append, List.mem_map] at hl
    rcases hl with ⟨t, -, rfl⟩ | ⟨t, -, rfl⟩ <;> rfl
  · intro hnil
    have hnil : blockLines old new b = [] := hnil
    simp [hnil] at hne
  · have hremoved : (HunkLine.isRemoved ∘ HunkLine.removed) = fun _ => true := rfl
    have hadded : (HunkLine.isRemoved ∘ HunkLine.added) = fun _ => false := rfl
    simp [hlines, List.countP_map, hremoved, hadded, h.length_oldOf]
  · have hremoved : (HunkLine.isAdded ∘ HunkLine.removed) = fun _ => false := rfl
    have hadded : (HunkLine.isAdded ∘ HunkLine.added) = fun _ => true := rfl
    simp [hlines, List.countP_map, hremoved, hadded, h.length_newOf]

end Block.IsChangeAt

theorem lt_oldStart_of_mem_hunksAlong {bs : List Block} {h : Hunk}
    (hh : h ∈ hunksAlong old new i j bs) : i < h.oldStart := by
  induction bs generalizing i j with
  | nil => cases hh
  | cons b bs ih =>
    rcases List.mem_append.mp hh with hh | hh
    · simp only [Block.hunkAt, Option.mem_toList] at hh
      split at hh <;> cases hh
      exact Nat.lt_succ_self i
    · exact Nat.lt_of_le_of_lt (Nat.le_add_right i b.oldLen) (ih hh)

end Bodies

section Paths

variable {old new keys keys' : List String} (ho : keys.length = old.length)
  (hn : keys'.length = new.length)

include ho hn

/-- The hunks along a path are laid out over both texts. -/
theorem hunksAlong_laidOut {bs : List Block} {i j least : Nat} (hspaced : Spaced bs)
    (hpath : Leads keys keys' i j (bs.flatMap Block.parts) keys.length keys'.length)
    (hleast : least = 0 ∨ least = 1 ∧ ∀ b ∈ bs.head?, b.tag = .equal) :
    LaidOut old.length new.length least (i + 1) (j + 1) (hunksAlong old new i j bs) := by
  induction bs generalizing i j least with
  | nil =>
    obtain ⟨hi, hj⟩ := hpath
    exact .nil 0 (by omega) (by omega)
  | cons b bs ih =>
    obtain ⟨hequal, hchange, hrest⟩ := hpath.step
    by_cases ht : b.tag = .equal
    · obtain ⟨-, -, hlen, hpos, -⟩ := (Block.fits_equal ht).mp (hequal ht)
      have hafter := ih hspaced.of_cons hrest (Or.inl rfl)
      rw [hunksAlong, Block.hunkAt_equal ht]
      rw [hlen] at hafter ⊢
      rw [Nat.add_right_comm i, Nat.add_right_comm j] at hafter
      exact hafter.after_equal (by omega)
    · have hb := hchange ht
      rw [ho, hn] at hb
      have hleast : least = 0 := hleast.resolve_right fun h => ht (h.2 b rfl)
      rw [hunksAlong]
      by_cases hall : (blockLines old new b).all HunkLine.isContext = true
      · -- A change without lines leaves the positions as they are.
        obtain ⟨hold, hnew⟩ := hb.all_isContext.mp hall
        rw [Block.hunkAt, if_pos hall]
        rw [hold, hnew] at hrest ⊢
        exact ih hspaced.of_cons hrest (Or.inl hleast)
      · rw [Block.hunkAt, if_neg hall]
        refine .cons 0 (hb.wellCounted hall _ _) (by omega) rfl rfl ?_
        have hafter := ih hspaced.of_cons hrest (Or.inr ⟨rfl, hspaced.equal_of_change ht⟩)
        rwa [Nat.add_right_comm i, Nat.add_right_comm j] at hafter

end Paths

section Groups

variable {old new : List String} {b c e : Block} {group rest : List Block} {i j : Nat}

/-- A change ends its group together with the start of the equal block after it. -/
theorem groupFrom_change (hc : c.tag ≠ .equal) (he : e.tag = .equal) (hpos : 0 < e.oldLen) :
    groupFrom group (cutLast (c :: e :: rest)) =
      (group.reverse ++ [c, headOf e]) :: groupFrom [tailOf e] (cutLast rest) := by
  have htail : (tailOf e).tag = .equal := he
  have hzero : (headOf e).oldLen = 0 := Nat.sub_self _
  rw [cutLast_cons_of_ne hc]
  cases rest with
  | nil => simp [cutLast, groupFrom, he, hc, hzero, htail]
  | cons d rest => simp [cutLast, groupFrom, he, hc, hpos]

/-- A group around one change has the hunk of the change, at the starts of the first block. -/
theorem hunkOfGroup_eq {first last : Block} (hfirst : group.head? = some first)
    (hlast : group.getLast? = some last)
    (hlines : group.flatMap (blockLines old new) = blockLines old new c)
    (hold : last.oldEnd - first.oldStart = c.oldLen)
    (hnew : last.newEnd - first.newStart = c.newLen) :
    hunkOfGroup old new group = c.hunkAt old new first.oldStart first.newStart := by
  simp only [hunkOfGroup, hfirst, hlast, hlines, hold, hnew]
  rfl

theorem Hunk.anchored_eq_self {h : Hunk} (hlt : 1 < h.oldStart) : h.anchored = h :=
  if_neg fun hh => absurd hh.1 (Nat.ne_of_gt hlt)

variable {keys keys' : List String}

theorem ends_headOf (ht : e.tag = .equal) (h : e.Fits keys keys' i j) :
    (headOf e).oldEnd = i ∧ (headOf e).newEnd = j := by
  obtain ⟨ho, hn, hl, -⟩ := (Block.fits_equal ht).mp h
  constructor
  · simp [headOf, Block.cutEnd, Block.oldEnd, ho]
  · simp [headOf, Block.cutEnd, Block.newEnd, hn, hl]

/-- After an edge the hunks of the groups stand where the script has come to. -/
theorem groupFrom_hunks {e : Block} {i j : Nat} (he : e.IsEdge i j) (hspaced : Spaced rest)
    (hhead : ∀ b ∈ rest.head?, b.tag ≠ .equal)
    (hpath : Leads keys keys' i j (rest.flatMap Block.parts) keys.length keys'.length)
    (hbounded : Bounded keys.length keys'.length rest) :
    (groupFrom [e] (cutLast rest)).filterMap (hunkOfGroup old new) =
      hunksAlong old new i j rest := by
  rw [List.filterMap_eq_flatMap_toList]
  -- Changes and equal blocks take turns, so the groups go on after every second block.
  induction rest using List.twoStepInduction generalizing e i j with
  | nil => simp [cutLast, groupFrom, he.tag_eq, hunksAlong]
  | singleton c =>
    obtain ⟨-, hchange, hi, hj⟩ := hpath.step
    have hc := hchange (hhead c rfl)
    have hgroups : groupFrom [e] (cutLast [c]) = [[e, c]] := by
      simp [cutLast, groupFrom, hc.change]
    have hold : c.oldEnd - i = c.oldLen := hc.oldEnd_sub fun htag => by
      have hstart : c.oldStart ≤ keys.length := hbounded.1.insert htag
      rw [← hi, hc.oldLen_eq htag] at hstart
      exact hstart
    have hnew : c.newEnd - j = c.newLen := hc.newEnd_sub fun htag => by
      have hstart := hbounded.1.delete htag
      rw [← hj, hc.newLen_eq htag] at hstart
      exact hstart
    have hhunk : hunkOfGroup old new [e, c] = c.hunkAt old new e.oldStart e.newStart := by
      apply hunkOfGroup_eq rfl rfl
      · simp [he.blockLines_eq]
      · rw [he.oldStart_eq]
        exact hold
      · rw [he.newStart_eq]
        exact hnew
    rw [hgroups, List.flatMap_singleton, hhunk, he.oldStart_eq, he.newStart_eq, hunksAlong,
      hunksAlong, List.append_nil]
  | cons_cons c d rest ih _ =>
    obtain ⟨-, hchange, hrest⟩ := hpath.step
    obtain ⟨hequal, -, hrest⟩ := hrest.step
    have hc := hchange (hhead c rfl)
    have hd : d.tag = .equal := hspaced.equal_of_change hc.change d rfl
    have hfit := hequal hd
    obtain ⟨hdo, hdn, hdl, hpos, -⟩ := (Block.fits_equal hd).mp hfit
    have hafter := hspaced.of_cons
    have hnext := ih (tailOf_isEdge hd hfit) hafter.of_cons (hafter.change_of_equal hd) hrest
      hbounded.2.2
    obtain ⟨hold, hnew⟩ := ends_headOf hd hfit
    have hhunk : hunkOfGroup old new [e, c, headOf d] =
        c.hunkAt old new e.oldStart e.newStart := by
      apply hunkOfGroup_eq rfl rfl
      · simp [he.blockLines_eq, (headOf_isEdge hd).blockLines_eq]
      · rw [he.oldStart_eq]
        exact (congrArg (· - i) hold).trans (Nat.add_sub_cancel_left i c.oldLen)
      · rw [he.newStart_eq]
        exact (congrArg (· - j) hnew).trans (Nat.add_sub_cancel_left j c.newLen)
    rw [groupFrom_change hc.change hd hpos, List.flatMap_cons, hnext, hunksAlong, hunksAlong,
      Block.hunkAt_equal hd, ← he.oldStart_eq, ← he.newStart_eq, ← hhunk]
    rfl

theorem map_anchored_hunksAlong {bs : List Block} (hpos : 0 < i) :
    (hunksAlong old new i j bs).map Hunk.anchored = hunksAlong old new i j bs := by
  have hself : ∀ h ∈ hunksAlong old new i j bs, h.anchored = h := by
    intro h hh
    have := lt_oldStart_of_mem_hunksAlong hh
    exact Hunk.anchored_eq_self (by omega)
  exact (List.map_congr_left hself).trans (List.map_id _)

theorem anchored_hunks_cons (gs : List (List Block)) :
    ((group :: gs).filterMap (hunkOfGroup old new)).map Hunk.anchored =
      ((hunkOfGroup old new group).map Hunk.anchored).toList ++
        (gs.filterMap (hunkOfGroup old new)).map Hunk.anchored := by
  cases h : hunkOfGroup old new group <;> simp [h]

theorem groups_cons_equal (he : e.tag = .equal) :
    groups (e :: rest) = groupFrom [tailOf e] (cutLast rest) := by
  have htail : (tailOf e).tag = .equal ∧ (tailOf e).oldLen = 0 := ⟨he, Nat.sub_self _⟩
  have hhead : (headOf (tailOf e)).tag = .equal ∧ (headOf (tailOf e)).oldLen = 0 :=
    ⟨he, Nat.sub_self _⟩
  cases rest with
  | nil => simp [groups, cutFirst, cutLast, groupFrom, he, htail, hhead]
  | cons c rest => simp [groups, cutFirst, cutLast, groupFrom, he, htail]

theorem Block.IsChangeAt.oldStart_eq {n m : Nat} (h : c.IsChangeAt n m 0 0)
    (hi : c.tag = .insert → c.oldStart ≤ 0) : c.oldStart = 0 := by
  by_cases ht : c.tag = .insert
  · exact Nat.le_zero.mp (hi ht)
  · exact (h.old ht).1

/-- A leading change that knows its old start is put right by anchoring its hunk. -/
theorem Block.IsChangeAt.anchored_hunkAt {n m : Nat} (h : c.IsChangeAt n m 0 0)
    (hi : c.tag = .insert → c.oldStart ≤ 0) :
    (c.hunkAt old new c.oldStart c.newStart).map Hunk.anchored = c.hunkAt old new 0 0 := by
  simp only [hunkAt, h.oldStart_eq hi]
  split
  · rfl
  · by_cases ht : c.tag = .delete
    · simp [Hunk.anchored, h.newLen_eq ht]
    · simp [Hunk.anchored, (h.new ht).1]

section Scripts

variable (hspaced : Spaced (c :: rest))
  (hpath : Leads keys keys' 0 0 ((c :: rest).flatMap Block.parts) keys.length keys'.length)
  (hbounded : Bounded keys.length keys'.length (c :: rest))

include hspaced hpath hbounded

theorem groups_hunks_equal (ht : c.tag = .equal) :
    ((groups (c :: rest)).filterMap (hunkOfGroup old new)).map Hunk.anchored =
      hunksAlong old new 0 0 (c :: rest) := by
  obtain ⟨hequal, -, hrest⟩ := hpath.step
  have hfit := hequal ht
  have hpos := ((Block.fits_equal ht).mp hfit).2.2.2.1
  rw [groups_cons_equal ht,
    groupFrom_hunks (tailOf_isEdge ht hfit) hspaced.of_cons (hspaced.change_of_equal ht) hrest
      hbounded.2,
    map_anchored_hunksAlong (by omega), hunksAlong, Block.hunkAt_equal ht]
  rfl

/-- A leading change is the first of its group, so the header has the starts it says it has. -/
theorem groups_hunks_change (ht : c.tag ≠ .equal) :
    ((groups (c :: rest)).filterMap (hunkOfGroup old new)).map Hunk.anchored =
      hunksAlong old new 0 0 (c :: rest) := by
  obtain ⟨-, hchange, hrest⟩ := hpath.step
  have hc := hchange ht
  have hnext := hspaced.equal_of_change ht
  -- The next equal lines begin where the change ends, so an insertion starts at zero.
  have hstart : c.tag = .insert → c.oldStart ≤ 0 := by
    intro hi
    have hle := hbounded.1.insert hi
    rw [hrest.runEnd_eq hnext, hc.oldLen_eq hi] at hle
    exact hle
  rw [hunksAlong, ← hc.anchored_hunkAt hstart]
  cases rest with
  | nil =>
    have hgroups : groups [c] = [[c]] := by simp [groups, cutFirst, cutLast, groupFrom, ht]
    have hhunk : hunkOfGroup old new [c] = c.hunkAt old new c.oldStart c.newStart :=
      hunkOfGroup_eq rfl rfl (List.flatMap_singleton _ _) (Nat.add_sub_cancel_left _ _)
        (Nat.add_sub_cancel_left _ _)
    rw [hgroups, anchored_hunks_cons, hhunk]
    rfl
  | cons e rest =>
    have he := hnext e rfl
    obtain ⟨hequal, -, hrest⟩ := hrest.step
    have hafter := hspaced.of_cons
    have hfit := hequal he
    have hpos := ((Block.fits_equal he).mp hfit).2.2.2.1
    have hgroups : groups (c :: e :: rest) =
        [c, headOf e] :: groupFrom [tailOf e] (cutLast rest) := by
      rw [groups, cutFirst, if_neg ht, groupFrom_change ht he hpos]
      rfl
    obtain ⟨hold, hnew⟩ := ends_headOf he hfit
    have hhunk : hunkOfGroup old new [c, headOf e] =
        c.hunkAt old new c.oldStart c.newStart := by
      apply hunkOfGroup_eq rfl rfl
      · simp [(headOf_isEdge he).blockLines_eq]
      · refine (congrArg (· - c.oldStart) hold).trans ?_
        simp [hc.oldStart_eq hstart]
      · refine (congrArg (· - c.newStart) hnew).trans ?_
        by_cases hd : c.tag = .delete
        · simp [hc.newLen_eq hd]
        · simp [(hc.new hd).1]
    rw [hgroups, anchored_hunks_cons, hhunk,
      groupFrom_hunks (tailOf_isEdge he hfit) hafter.of_cons (hafter.change_of_equal he) hrest
        hbounded.2.2,
      map_anchored_hunksAlong (by omega), hunksAlong, Block.hunkAt_equal he]
    rfl

end Scripts

/-- The hunks of a script stand where it has come to, but for the new start of a leading
deletion. -/
theorem groups_hunks {bs : List Block} (hspaced : Spaced bs)
    (hpath : Leads keys keys' 0 0 (bs.flatMap Block.parts) keys.length keys'.length)
    (hbounded : Bounded keys.length keys'.length bs) :
    ((groups bs).filterMap (hunkOfGroup old new)).map Hunk.anchored =
      hunksAlong old new 0 0 bs := by
  cases bs with
  | nil => rfl
  | cons c rest =>
    by_cases ht : c.tag = .equal
    · exact groups_hunks_equal hspaced hpath hbounded ht
    · exact groups_hunks_change hspaced hpath hbounded ht

end Groups

theorem numbers_changesFrom {lines : List HunkLine} {i j : Nat}
    (h : ∀ l ∈ lines, l.isContext = false) :
    (ofKind .delete (changesFrom i j lines)).map (·.line) =
        List.range' i (lines.countP HunkLine.isRemoved) ∧
      (ofKind .add (changesFrom i j lines)).map (·.line) =
        List.range' j (lines.countP HunkLine.isAdded) := by
  induction lines generalizing i j with
  | nil => exact ⟨rfl, rfl⟩
  | cons l lines ih =>
    have hrest : ∀ l' ∈ lines, l'.isContext = false := fun l' hl => h l' (List.mem_cons_of_mem l hl)
    cases l with
    | context t => exact absurd (h _ List.mem_cons_self) (by simp [HunkLine.isContext])
    | removed t =>
      obtain ⟨hdeleted, hadded⟩ := ih (i := i + 1) (j := j) hrest
      simp [changesFrom, List.countP_cons, HunkLine.isRemoved, HunkLine.isAdded, hdeleted, hadded,
        List.range'_succ]
    | added t =>
      obtain ⟨hdeleted, hadded⟩ := ih (i := i) (j := j + 1) hrest
      simp [changesFrom, List.countP_cons, HunkLine.isRemoved, HunkLine.isAdded, hdeleted, hadded,
        List.range'_succ]

namespace Hunk

variable {h : Hunk} {hs : List Hunk}

@[simp] theorem anchored_oldStart (h : Hunk) : h.anchored.oldStart = h.oldStart := by
  unfold anchored
  split <;> rfl

@[simp] theorem anchored_oldNumbers (h : Hunk) : h.anchored.oldNumbers = h.oldNumbers := by
  unfold anchored
  split <;> rfl

@[simp] theorem anchored_newNumbers (h : Hunk) : h.anchored.newNumbers = h.newNumbers := by
  unfold anchored
  split
  · next hh => simp [newNumbers, hh.2]
  · rfl

theorem WellCounted.of_anchored (hh : h.anchored.WellCounted) : h.WellCounted := by
  unfold anchored at hh
  split at hh
  · exact ⟨hh.noContext, hh.nonempty, hh.oldCount_eq, hh.newCount_eq⟩
  · exact hh

theorem WellCounted.changesFrom_ne_nil (hh : h.WellCounted) :
    changesFrom h.oldStart h.newStart h.lines ≠ [] := by
  obtain ⟨l, lines, hlines⟩ := List.exists_cons_of_ne_nil hh.nonempty
  have hl := hh.noContext l (by simp [hlines])
  rw [hlines]
  cases l with
  | context t => exact absurd hl (by simp [HunkLine.isContext])
  | removed t => exact List.cons_ne_nil _ _
  | added t => exact List.cons_ne_nil _ _

/-- Where the first hunk starts with the new text, anchoring changes nothing: later hunks do not
start at the first line. -/
theorem map_anchored_eq_self {n m : Nat} (hlaid : LaidOut n m 0 1 1 (hs.map anchored))
    (hfirst : ∀ h ∈ hs.head?, h.oldStart = 1 → h.newCount = 0 → h.newStart = 1) :
    hs.map anchored = hs := by
  cases hs with
  | nil => rfl
  | cons h hs =>
    have hhead : h.anchored = h := by
      unfold anchored
      split
      · next hh => rw [← hfirst h rfl hh.1 hh.2]
      · rfl
    have htail : ∀ g ∈ hs, g.anchored = g := by
      cases hlaid with
      | cons gap _ _ hold _ hrest =>
        intro g hg
        have hle := hrest.add_le_oldStart _ (List.mem_map_of_mem hg)
        simp only [anchored_oldStart] at hle hold
        exact anchored_eq_self (by omega)
    rw [List.map_cons, hhead, (List.map_congr_left htail).trans (List.map_id _)]

theorem numbers_lineChanges (hh : ∀ h ∈ hs, h.WellCounted) :
    (ofKind .delete (lineChanges hs)).map (·.line) = hs.flatMap oldNumbers ∧
      (ofKind .add (lineChanges hs)).map (·.line) = hs.flatMap newNumbers := by
  simp only [ofKind, lineChanges, List.filter_flatMap, List.map_flatMap]
  constructor
  · refine List.flatMap_congr fun h hmem => ?_
    rw [oldNumbers, (hh h hmem).oldCount_eq]
    exact (numbers_changesFrom (hh h hmem).noContext).1
  · refine List.flatMap_congr fun h hmem => ?_
    rw [newNumbers, (hh h hmem).newCount_eq]
    exact (numbers_changesFrom (hh h hmem).noContext).2

theorem lineChanges_eq_nil (hh : ∀ h ∈ hs, h.WellCounted) : lineChanges hs = [] ↔ hs = [] := by
  rw [lineChanges, List.flatMap_eq_nil_iff, List.eq_nil_iff_forall_not_mem]
  exact forall₂_congr fun h hmem => iff_of_false (hh h hmem).changesFrom_ne_nil id

end Hunk

/-- The anchored hunks between two lists of lines are laid out over them. -/
theorem hunksOfLines_laidOut (mode : LineComparison) (old new : List String) :
    LaidOut old.length new.length 0 1 1 ((hunksOfLines mode old new).map Hunk.anchored) := by
  have hpath := script_leads (old.map mode.key) (new.map mode.key)
  have hspaced := script_spaced (old.map mode.key) (new.map mode.key)
  have hbounded := script_bounded (old.map mode.key) (new.map mode.key)
  rw [hunksOfLines, groups_hunks hspaced hpath hbounded]
  exact hunksAlong_laidOut (List.length_map _) (List.length_map _) hspaced hpath (Or.inl rfl)

/-- All headers are right once a first hunk that only deletes is anchored at the start of the new
text, so they are right as they stand exactly where that hunk starts there. There is no hunk exactly
when the keys of the texts agree. -/
theorem hunks_aligned (old new : String) (mode : LineComparison) :
    AlignedHunks mode.key (Text.linesOf old) (Text.linesOf new)
      ((hunks old new mode).map Hunk.anchored) ∧
    (AlignedHunks mode.key (Text.linesOf old) (Text.linesOf new) (hunks old new mode) ↔
      ∀ h ∈ (hunks old new mode).head?, h.oldStart = 1 → h.newCount = 0 → h.newStart = 1) ∧
    (hunks old new mode = [] ↔
      (Text.linesOf old).map mode.key = (Text.linesOf new).map mode.key) := by
  have hlaid : LaidOut (Text.linesOf old).length (Text.linesOf new).length 0 1 1
      ((hunks old new mode).map Hunk.anchored) :=
    hunksOfLines_laidOut mode (Text.linesOf old) (Text.linesOf new)
  have hcounted : ∀ h ∈ hunks old new mode, h.WellCounted := fun h hh =>
    (hlaid.counted _ (List.mem_map_of_mem hh)).of_anchored
  have haligned : AlignedHunks mode.key (Text.linesOf old) (Text.linesOf new)
      ((hunks old new mode).map Hunk.anchored) := by
    refine ⟨hlaid.counted, hlaid.first, hlaid.between, hlaid.last, ?_⟩
    obtain ⟨hdeleted, hadded⟩ := Hunk.numbers_lineChanges hcounted
    have houtside := (lineDiff_isPatch old new mode).linesOutside_keys
    rw [lineDiff, hdeleted, hadded] at houtside
    simpa only [List.flatMap_map, Hunk.anchored_oldNumbers, Hunk.anchored_newNumbers] using houtside
  refine ⟨haligned, ⟨?_, ?_⟩, ?_⟩
  · intro h g hg hold _
    exact (h.first g hg).symm.trans hold
  · intro hfirst
    rwa [Hunk.map_anchored_eq_self hlaid hfirst] at haligned
  · rw [← Hunk.lineChanges_eq_nil hcounted, mode.map_key, mode.map_key]
    exact lineDiff_eq_nil

/-- A deletion that passed an insertion on its way keeps a new start that is not its own. -/
theorem hunks_unaligned :
    ¬AlignedHunks LineComparison.exact.key (Text.linesOf "b\na\n") (Text.linesOf "a\na\n")
      (hunks "b\na\n" "a\na\n" .exact) := by
  have hhunks : hunks "b\na\n" "a\na\n" .exact =
      [⟨1, 1, 2, 0, [.removed "b"]⟩, ⟨3, 0, 2, 1, [.added "a"]⟩] := by
    decide +kernel
  intro h
  have hfirst := h.first
  rw [hhunks] at hfirst
  exact absurd (hfirst _ rfl) (by decide)

end SymbolHistory.Diff
