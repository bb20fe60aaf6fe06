import SymbolHistory.Diff.Hunk
import SymbolHistory.Proofs.Diff.ScriptPath

namespace SymbolHistory.Diff

def addressed (kind : ChangeKind) (line : Nat) (texts : List String) : List LineChange :=
  (texts.zipIdx line).map fun p => ⟨kind, p.2, p.1⟩

@[simp] theorem addressed_nil (kind : ChangeKind) (line : Nat) : addressed kind line [] = [] := rfl

@[simp] theorem addressed_cons (kind : ChangeKind) (line : Nat) (t : String) (ts : List String) :
    addressed kind line (t :: ts) = ⟨kind, line, t⟩ :: addressed kind (line + 1) ts := by
  simp [addressed]

/-- The added and deleted lines of a block, by its own starts. -/
def Block.changes (old new : List String) (b : Block) : List LineChange :=
  match b.tag with
  | .equal => []
  | .delete => addressed .delete (b.oldStart + 1) (b.oldOf old)
  | .insert => addressed .add (b.newStart + 1) (b.newOf new)
  | .replace =>
    addressed .delete (b.oldStart + 1) (b.oldOf old) ++
      addressed .add (b.newStart + 1) (b.newOf new)

section Counting

variable (i j : Nat) (texts : List String) (rest : List HunkLine)

theorem changesFrom_removed :
    changesFrom i j (texts.map .removed ++ rest) =
      addressed .delete i texts ++ changesFrom (i + texts.length) j rest := by
  induction texts generalizing i with
  | nil => rfl
  | cons t ts ih =>
    simp only [List.map_cons, List.cons_append, changesFrom, ih, addressed_cons,
      List.length_cons]
    rw [show i + 1 + ts.length = i + (ts.length + 1) by omega]

theorem changesFrom_added :
    changesFrom i j (texts.map .added ++ rest) =
      addressed .add j texts ++ changesFrom i (j + texts.length) rest := by
  induction texts generalizing j with
  | nil => rfl
  | cons t ts ih =>
    simp only [List.map_cons, List.cons_append, changesFrom, ih, addressed_cons,
      List.length_cons]
    rw [show j + 1 + ts.length = j + (ts.length + 1) by omega]

theorem changesFrom_context :
    changesFrom i j (texts.map .context ++ rest) =
      changesFrom (i + texts.length) (j + texts.length) rest := by
  induction texts generalizing i j with
  | nil => rfl
  | cons t ts ih =>
    simp only [List.map_cons, List.cons_append, changesFrom, ih, List.length_cons]
    rw [show i + 1 + ts.length = i + (ts.length + 1) by omega,
      show j + 1 + ts.length = j + (ts.length + 1) by omega]

theorem changesFrom_of_all_context {lines : List HunkLine}
    (h : lines.all HunkLine.isContext = true) : changesFrom i j lines = [] := by
  induction lines generalizing i j with
  | nil => rfl
  | cons l ls ih =>
    simp only [List.all_cons, Bool.and_eq_true] at h
    cases l with
    | context t => exact ih (i + 1) (j + 1) h.2
    | removed t => simp [HunkLine.isContext] at h
    | added t => simp [HunkLine.isContext] at h

end Counting

variable {old new : List String} {keys keys' : List String}

/-- Counted from its own starts, the body of a block has the changes of the block. -/
theorem changesFrom_blockLines (old new : List String) (b : Block) :
    changesFrom (b.oldStart + 1) (b.newStart + 1) (blockLines old new b) = b.changes old new := by
  have hr (i j : Nat) (ts : List String) :
      changesFrom i j (ts.map .removed) = addressed .delete i ts := by
    simpa [changesFrom] using changesFrom_removed i j ts []
  have ha (i j : Nat) (ts : List String) :
      changesFrom i j (ts.map .added) = addressed .add j ts := by
    simpa [changesFrom] using changesFrom_added i j ts []
  cases ht : b.tag with
  | equal => simpa [blockLines, Block.changes, ht, changesFrom] using
      changesFrom_context (b.oldStart + 1) (b.newStart + 1) (b.oldOf old) []
  | delete => simp only [blockLines, Block.changes, ht, hr]
  | insert => simp only [blockLines, Block.changes, ht, ha]
  | replace => simp only [blockLines, Block.changes, ht, changesFrom_removed, ha]

theorem flatMap_blockLines_parts (bs : List Block) :
    (bs.flatMap Block.parts).flatMap (blockLines old new) = bs.flatMap (blockLines old new) := by
  rw [List.flatMap_assoc]
  congr 1
  funext b
  cases ht : b.tag with
  | replace => simp [Block.parts, blockLines, ht, Block.delete, Block.insert, Block.oldOf,
      Block.newOf]
  | equal => simp [Block.parts, ht]
  | delete => simp [Block.parts, ht]
  | insert => simp [Block.parts, ht]

theorem flatMap_changes_parts (bs : List Block) :
    (bs.flatMap Block.parts).flatMap (Block.changes old new) =
      bs.flatMap (Block.changes old new) := by
  rw [List.flatMap_assoc]
  congr 1
  funext b
  cases ht : b.tag with
  | replace => simp [Block.parts, Block.changes, ht, Block.delete, Block.insert, Block.oldOf,
      Block.newOf]
  | equal => simp [Block.parts, ht]
  | delete => simp [Block.parts, ht]
  | insert => simp [Block.parts, ht]

section Paths

variable {keys keys' : List String} (ho : keys.length = old.length)
  (hn : keys'.length = new.length)

include ho hn

theorem Block.Fits.changesFrom_eq {b : Block} {i j : Nat} (h : b.Fits keys keys' i j)
    (rest : List HunkLine) :
    changesFrom (i + 1) (j + 1) (blockLines old new b ++ rest) =
      b.changes old new ++ changesFrom (i + b.oldLen + 1) (j + b.newLen + 1) rest := by
  cases ht : b.tag with
  | equal =>
    obtain ⟨hbo, -, hl, -, hio, -, -⟩ := (Block.fits_equal ht).mp h
    have hlen : (b.oldOf old).length = b.oldLen := by
      simp only [Block.oldOf, List.length_take, List.length_drop]
      omega
    simp only [blockLines, Block.changes, ht, changesFrom_context, hlen, hl, List.nil_append]
    rw [show i + 1 + b.oldLen = i + b.oldLen + 1 by omega,
      show j + 1 + b.oldLen = j + b.oldLen + 1 by omega]
  | delete =>
    obtain ⟨hbo, hl, hio⟩ := (Block.fits_delete ht).mp h
    have hlen : (b.oldOf old).length = b.oldLen := by
      simp only [Block.oldOf, List.length_take, List.length_drop]
      omega
    simp only [blockLines, Block.changes, ht, changesFrom_removed, hlen, hl, hbo]
    rw [show i + 1 + b.oldLen = i + b.oldLen + 1 by omega, Nat.add_zero]
  | insert =>
    obtain ⟨hbn, hl, hjn⟩ := (Block.fits_insert ht).mp h
    have hlen : (b.newOf new).length = b.newLen := by
      simp only [Block.newOf, List.length_take, List.length_drop]
      omega
    simp only [blockLines, Block.changes, ht, changesFrom_added, hlen, hl, hbn]
    rw [show j + 1 + b.newLen = j + b.newLen + 1 by omega, Nat.add_zero]
  | replace => simp only [Block.Fits, ht] at h

/-- Counting along a path gives the changes of its blocks. -/
theorem Leads.changesFrom_eq {bs : List Block} {i j i' j' : Nat}
    (h : Leads keys keys' i j (bs.flatMap Block.parts) i' j') :
    changesFrom (i + 1) (j + 1) (bs.flatMap (blockLines old new)) =
      bs.flatMap (Block.changes old new) := by
  rw [← flatMap_blockLines_parts, ← flatMap_changes_parts]
  generalize bs.flatMap Block.parts = plain at h
  induction plain generalizing i j with
  | nil => rfl
  | cons b plain ih =>
    rw [List.flatMap_cons, List.flatMap_cons, h.1.changesFrom_eq ho hn, ih h.2]

end Paths

/-- The changes of a group, counted from the start of its first block. -/
def groupChanges (old new : List String) : List Block → List LineChange
  | [] => []
  | first :: rest =>
    changesFrom (first.oldStart + 1) (first.newStart + 1)
      ((first :: rest).flatMap (blockLines old new))

theorem lineChanges_hunksOfGroups (gs : List (List Block)) :
    lineChanges (gs.filterMap (hunkOfGroup old new)) = gs.flatMap (groupChanges old new) := by
  induction gs with
  | nil => rfl
  | cons g gs ih =>
    rw [List.flatMap_cons, ← ih]
    cases g with
    | nil => rfl
    | cons first rest =>
      obtain ⟨last, hlast⟩ : ∃ last, (first :: rest).getLast? = some last :=
        ⟨_, List.getLast?_eq_some_getLast (by simp)⟩
      by_cases hall : ((first :: rest).flatMap (blockLines old new)).all HunkLine.isContext = true
      · have hnone : hunkOfGroup old new (first :: rest) = none := by
          simp only [hunkOfGroup, List.head?_cons, hlast, hall, if_true]
        rw [List.filterMap_cons_none hnone, groupChanges, changesFrom_of_all_context _ _ hall]
        rfl
      · have hsome : hunkOfGroup old new (first :: rest) = some ⟨first.oldStart + 1,
            last.oldEnd - first.oldStart, first.newStart + 1, last.newEnd - first.newStart,
            (first :: rest).flatMap (blockLines old new)⟩ := by
          simp only [hunkOfGroup, List.head?_cons, hlast, hall]
          rfl
        rw [List.filterMap_cons_some hsome]
        rfl

/-- An empty equal block at a position, the first or last of a group. -/
structure Block.IsEdge (b : Block) (i j : Nat) : Prop where
  tag_eq : b.tag = .equal
  oldLen_eq : b.oldLen = 0
  oldStart_eq : b.oldStart = i
  newStart_eq : b.newStart = j

theorem Block.IsEdge.blockLines_eq {b : Block} {i j : Nat} (h : b.IsEdge i j) :
    blockLines old new b = [] := by
  simp [blockLines, h.tag_eq, Block.oldOf, h.oldLen_eq]

theorem headOf_isEdge {b : Block} (h : b.tag = .equal) :
    (headOf b).IsEdge b.oldStart b.newStart :=
  ⟨h, Nat.sub_self _, rfl, rfl⟩

theorem tailOf_isEdge {keys keys' : List String} {b : Block} {i j : Nat} (ht : b.tag = .equal)
    (h : b.Fits keys keys' i j) : (tailOf b).IsEdge (i + b.oldLen) (j + b.newLen) := by
  obtain ⟨hi, hj, hl, -⟩ := (Block.fits_equal ht).mp h
  exact ⟨ht, Nat.sub_self _, by rw [← hi]; rfl, by rw [← hj, hl]; rfl⟩

theorem cutLast_cons_of_ne {b : Block} (h : b.tag ≠ .equal) (bs : List Block) :
    cutLast (b :: bs) = b :: cutLast bs := by
  cases bs with
  | nil => simp [cutLast, h]
  | cons c bs => rfl

theorem groupChanges_single (b : Block) : groupChanges old new [b] = b.changes old new := by
  simpa [groupChanges] using changesFrom_blockLines old new b

theorem groupChanges_before_edge (b : Block) {e : Block} {i j : Nat} (he : e.IsEdge i j) :
    groupChanges old new [b, e] = b.changes old new := by
  simpa [groupChanges, he.blockLines_eq] using changesFrom_blockLines old new b

theorem groupFrom_of_two_le {group : List Block} (h : 2 ≤ group.length) :
    groupFrom group [] = [group.reverse] := by
  match group, h with
  | _ :: _ :: _, _ => rfl

section Groups

variable {keys keys' : List String} (ho : keys.length = old.length)
  (hn : keys'.length = new.length)

include ho hn

/-- Changes of a group that begins with an edge and may end with one. -/
theorem groupChanges_after_edge {e : Block} {mid last : List Block} {i j i' j' : Nat}
    (he : e.IsEdge i j) (hmid : Leads keys keys' i j (mid.flatMap Block.parts) i' j')
    (hlast : last.flatMap (blockLines old new) = []) :
    groupChanges old new (e :: mid ++ last) = mid.flatMap (Block.changes old new) := by
  have hg : groupChanges old new (e :: mid ++ last) =
      changesFrom (i + 1) (j + 1) (mid.flatMap (blockLines old new)) := by
    simp [groupChanges, he.oldStart_eq, he.newStart_eq, he.blockLines_eq, hlast]
  rw [hg, hmid.changesFrom_eq ho hn]

theorem groupFrom_end {e : Block} {mid last : List Block} {i j i' j' : Nat} (he : e.IsEdge i j)
    (hmid : Leads keys keys' i j (mid.flatMap Block.parts) i' j')
    (hlast : last.flatMap (blockLines old new) = []) :
    (groupFrom (e :: mid ++ last).reverse []).flatMap (groupChanges old new) =
      mid.flatMap (Block.changes old new) := by
  by_cases htwo : 2 ≤ (e :: mid ++ last).reverse.length
  · rw [groupFrom_of_two_le htwo, List.reverse_reverse, List.flatMap_singleton]
    exact groupChanges_after_edge ho hn he hmid hlast
  · have hnil : mid = [] ∧ last = [] := by
      simp only [List.length_reverse, List.length_append, List.length_cons] at htwo
      exact ⟨List.eq_nil_of_length_eq_zero (by omega), List.eq_nil_of_length_eq_zero (by omega)⟩
    obtain ⟨rfl, rfl⟩ := hnil
    simp [groupFrom, he.tag_eq]

/-- Grouping loses no change: what was begun after an edge and what is still to come. -/
theorem groupFrom_changes {e : Block} {mid rest : List Block} {i₀ j₀ i j i' j' : Nat}
    (he : e.IsEdge i₀ j₀) (hmid : Leads keys keys' i₀ j₀ (mid.flatMap Block.parts) i j)
    (hrest : Leads keys keys' i j (rest.flatMap Block.parts) i' j') :
    (groupFrom (e :: mid).reverse (cutLast rest)).flatMap (groupChanges old new) =
      mid.flatMap (Block.changes old new) ++ rest.flatMap (Block.changes old new) := by
  induction rest generalizing e mid i₀ j₀ i j with
  | nil =>
    have hlast : [].flatMap (blockLines old new) = [] := rfl
    simpa [cutLast] using groupFrom_end ho hn he hmid hlast
  | cons b rest ih =>
    rw [List.flatMap_cons] at hrest
    obtain ⟨k, l, hb, hrest⟩ := leads_append.mp hrest
    by_cases ht : b.tag = .equal
    · have hparts : b.parts = [b] := Block.parts_of_ne (by simp [ht])
      have hchanges : b.changes old new = [] := by simp only [Block.changes, ht]
      have hhead : [headOf b].flatMap (blockLines old new) = [] := by
        simp [(headOf_isEdge ht).blockLines_eq]
      rw [hparts] at hb
      obtain ⟨hfit, rfl, rfl⟩ := hb
      have hpos := ((Block.fits_equal ht).mp hfit).2.2.2.1
      rw [List.flatMap_cons, hchanges, List.nil_append]
      cases rest with
      | nil =>
        have hzero : ¬((headOf b).tag = .equal ∧ 0 < (headOf b).oldLen) := by
          simp [(headOf_isEdge ht).oldLen_eq]
        simpa [cutLast, ht, groupFrom, hzero] using groupFrom_end ho hn he hmid hhead
      | cons c rest =>
        -- An equal block ends the group begun, and its own end begins the next.
        have hgroup := groupChanges_after_edge ho hn he hmid hhead
        have hmid' : Leads keys keys' (i + b.oldLen) (j + b.newLen) ([].flatMap Block.parts)
            (i + b.oldLen) (j + b.newLen) := ⟨rfl, rfl⟩
        have hnext := ih (tailOf_isEdge ht hfit) hmid' hrest
        simp only [List.flatMap_nil, List.nil_append, List.reverse_singleton] at hnext
        simp only [cutLast, groupFrom, ht, hpos, and_self, if_true, List.flatMap_cons, hnext,
          List.reverse_cons, List.reverse_append, List.reverse_reverse, List.reverse_nil,
          List.nil_append, List.singleton_append]
        rw [← hgroup]
    · -- Any other block joins the group begun.
      have hgrown : Leads keys keys' i₀ j₀ ((mid ++ [b]).flatMap Block.parts) k l := by
        rw [List.flatMap_append, List.flatMap_singleton]
        exact leads_append.mpr ⟨_, _, hmid, hb⟩
      have hnext := ih he hgrown hrest
      rw [cutLast_cons_of_ne ht]
      simpa [groupFrom, ht] using hnext

theorem groupFrom_after_equal {b : Block} {rest : List Block} {i j i' j' : Nat}
    (ht : b.tag = .equal) (h : Leads keys keys' i j ((b :: rest).flatMap Block.parts) i' j') :
    (groupFrom [tailOf b] (cutLast rest)).flatMap (groupChanges old new) =
      rest.flatMap (Block.changes old new) := by
  rw [List.flatMap_cons, Block.parts_of_ne (by simp [ht])] at h
  have hmid : Leads keys keys' (i + b.oldLen) (j + b.newLen) ([].flatMap Block.parts)
      (i + b.oldLen) (j + b.newLen) := ⟨rfl, rfl⟩
  have hnext := groupFrom_changes ho hn (tailOf_isEdge ht h.1) hmid h.2
  simpa using hnext

/-- The groups of a script carry its changes. -/
theorem groups_changes {bs : List Block} {i' j' : Nat} (hs : Spaced bs)
    (h : Leads keys keys' 0 0 (bs.flatMap Block.parts) i' j') :
    (groups bs).flatMap (groupChanges old new) = bs.flatMap (Block.changes old new) := by
  cases bs with
  | nil => rfl
  | cons b rest =>
    by_cases ht : b.tag = .equal
    · have hchanges : b.changes old new = [] := by simp only [Block.changes, ht]
      have htail : (tailOf b).tag = .equal ∧ (tailOf b).oldLen = 0 := ⟨ht, Nat.sub_self _⟩
      rw [List.flatMap_cons, hchanges, List.nil_append, ← groupFrom_after_equal ho hn ht h]
      cases rest with
      | nil =>
        have hzero : (headOf (tailOf b)).oldLen = 0 := Nat.sub_self _
        have htag : (headOf (tailOf b)).tag = .equal := ht
        simp [groups, cutFirst, ht, cutLast, htail, groupFrom, hzero, htag]
      | cons c rest => simp [groups, cutFirst, ht, cutLast, groupFrom, htail]
    · -- The first block may not know both its positions, but an equal block follows at once.
      rw [List.flatMap_cons]
      cases rest with
      | nil => simp [groups, cutFirst, cutLast, ht, groupFrom, groupChanges_single]
      | cons c rest =>
        have htc : c.tag = .equal := by
          have hbc := (List.isChain_cons_cons.mp hs).1
          by_contra hc
          exact ht (hbc.mpr hc)
        have hchanges : c.changes old new = [] := by simp only [Block.changes, htc]
        have hedge := headOf_isEdge htc
        rw [List.flatMap_cons] at h
        obtain ⟨k, l, -, hrest⟩ := leads_append.mp h
        have hafter := groupFrom_after_equal ho hn htc hrest
        have hpos : 0 < c.oldLen := by
          rw [List.flatMap_cons, Block.parts_of_ne (by simp [htc])] at hrest
          exact ((Block.fits_equal htc).mp hrest.1).2.2.2.1
        rw [List.flatMap_cons, hchanges, List.nil_append, ← hafter,
          ← groupChanges_before_edge b hedge]
        cases rest with
        | nil =>
          simp [groups, cutFirst, ht, cutLast, htc, groupFrom, hedge.oldLen_eq,
            (show (tailOf c).tag = .equal from htc)]
        | cons d rest => simp [groups, cutFirst, ht, cutLast, groupFrom, htc, hpos]

end Groups

/-- The line changes of two texts are those of the script of their keys. -/
theorem lineDiff_eq_flatMap (old new : String) (mode : LineComparison) :
    lineDiff old new mode = (script ((Text.linesOf old).map mode.key)
      ((Text.linesOf new).map mode.key)).flatMap
        (Block.changes (Text.linesOf old) (Text.linesOf new)) := by
  rw [lineDiff, hunks, hunksOfLines, lineChanges_hunksOfGroups]
  generalize Text.linesOf old = os
  generalize Text.linesOf new = ns
  have ho : (os.map mode.key).length = os.length := List.length_map _
  have hn : (ns.map mode.key).length = ns.length := List.length_map _
  exact groups_changes ho hn (script_spaced _ _) (script_leads _ _)

end SymbolHistory.Diff
