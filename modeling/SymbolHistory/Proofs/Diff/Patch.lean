import SymbolHistory.Proofs.Diff.HunkChanges

namespace SymbolHistory.Diff

/-- The changes lead from the old lines to the new ones, the next lines having numbers `i` and
`j`. Kept lines have equal keys. -/
inductive IsPatch (key : String → String) :
    Nat → Nat → List String → List String → List LineChange → Prop
  | nil (i j : Nat) : IsPatch key i j [] [] []
  | keep {i j : Nat} {x y : String} {xs ys : List String} {cs : List LineChange} :
      key x = key y → IsPatch key (i + 1) (j + 1) xs ys cs →
        IsPatch key i j (x :: xs) (y :: ys) cs
  | delete {i j : Nat} {x : String} {xs ys : List String} {cs : List LineChange} :
      IsPatch key (i + 1) j xs ys cs → IsPatch key i j (x :: xs) ys (⟨.delete, i, x⟩ :: cs)
  | add {i j : Nat} {y : String} {xs ys : List String} {cs : List LineChange} :
      IsPatch key i (j + 1) xs ys cs → IsPatch key i j xs (y :: ys) (⟨.add, j, y⟩ :: cs)

/-- What lines count as in a comparison: themselves, or their characters that are not blank. -/
def LineComparison.keys : LineComparison → List String → List String
  | exact, lines => lines
  | ignoringBlanks, lines =>
    lines.map fun line => String.ofList (line.toList.filter fun c => !Text.isBlank c)

theorem LineComparison.map_key (mode : LineComparison) (lines : List String) :
    lines.map mode.key = mode.keys lines := by
  cases mode with
  | exact => exact List.map_id lines
  | ignoringBlanks => rfl

def ofKind (kind : ChangeKind) (changes : List LineChange) : List LineChange :=
  changes.filter (·.kind = kind)

@[simp] theorem ofKind_nil (kind : ChangeKind) : ofKind kind [] = [] := rfl

@[simp] theorem ofKind_cons (kind : ChangeKind) (c : LineChange) (cs : List LineChange) :
    ofKind kind (c :: cs) = if c.kind = kind then c :: ofKind kind cs else ofKind kind cs := by
  simp [ofKind, List.filter_cons]

/-- The keys before some changes, from those after them: additions are taken out from the last to
the first, then deletions are put back from the first to the last. -/
def undo (key : String → String) (deleted added : List LineChange) (keys : List String) :
    List String :=
  deleted.foldl (fun ks c => ks.insertIdx (c.line - 1) (key c.content))
    (added.foldr (fun c ks => ks.eraseIdx (c.line - 1)) keys)

theorem insertIdx_length_append (front rest : List String) (a : String) :
    (front ++ rest).insertIdx front.length a = front ++ a :: rest := by
  induction front with
  | nil => simp
  | cons b front ih => simp [ih]

namespace IsPatch

variable {key : String → String} {i j : Nat} {xs ys : List String} {cs : List LineChange}

theorem keep_all {us vs : List String} (hk : us.map key = vs.map key)
    (h : IsPatch key (i + us.length) (j + vs.length) xs ys cs) :
    IsPatch key i j (us ++ xs) (vs ++ ys) cs := by
  induction us generalizing i j vs with
  | nil =>
    obtain rfl : vs = [] := by simpa using hk.symm
    exact h
  | cons u us ih =>
    cases vs with
    | nil => simp at hk
    | cons v vs =>
      simp only [List.map_cons, List.cons.injEq] at hk
      simp only [List.length_cons] at h
      refine keep hk.1 (ih hk.2 ?_)
      rwa [Nat.add_assoc, Nat.add_comm 1, Nat.add_assoc, Nat.add_comm 1]

theorem delete_all {us : List String} (h : IsPatch key (i + us.length) j xs ys cs) :
    IsPatch key i j (us ++ xs) ys (addressed .delete i us ++ cs) := by
  induction us generalizing i with
  | nil => exact h
  | cons u us ih =>
    rw [addressed_cons]
    refine delete (ih ?_)
    rwa [Nat.add_assoc, Nat.add_comm 1]

theorem add_all {vs : List String} (h : IsPatch key i (j + vs.length) xs ys cs) :
    IsPatch key i j xs (vs ++ ys) (addressed .add j vs ++ cs) := by
  induction vs generalizing j with
  | nil => exact h
  | cons v vs ih =>
    rw [addressed_cons]
    refine add (ih ?_)
    rwa [Nat.add_assoc, Nat.add_comm 1]

/-- Without a change every line is kept. -/
theorem keys_eq_of_nil (h : IsPatch key i j xs ys []) : xs.map key = ys.map key := by
  generalize hc : ([] : List LineChange) = none at h
  induction h with
  | nil => rfl
  | keep hk _ ih => rw [List.map_cons, List.map_cons, hk, ih hc]
  | delete => cases hc
  | add => cases hc

theorem deleted_increasing (h : IsPatch key i j xs ys cs) :
    (ofKind .delete cs).Pairwise (·.line < ·.line) ∧ ∀ c ∈ ofKind .delete cs, i ≤ c.line := by
  induction h with
  | nil => simp
  | keep _ _ ih => exact ⟨ih.1, fun c hc => Nat.le_of_succ_le (ih.2 c hc)⟩
  | delete _ ih =>
    rw [ofKind_cons, if_pos rfl]
    refine ⟨List.pairwise_cons.mpr ⟨ih.2, ih.1⟩, ?_⟩
    rintro c (_ | ⟨_, hc⟩)
    · exact Nat.le_refl _
    · exact Nat.le_of_succ_le (ih.2 c hc)
  | add _ ih => exact ih

theorem added_increasing (h : IsPatch key i j xs ys cs) :
    (ofKind .add cs).Pairwise (·.line < ·.line) ∧ ∀ c ∈ ofKind .add cs, j ≤ c.line := by
  induction h with
  | nil => simp
  | keep _ _ ih => exact ⟨ih.1, fun c hc => Nat.le_of_succ_le (ih.2 c hc)⟩
  | delete _ ih => exact ih
  | add _ ih =>
    rw [ofKind_cons, if_pos rfl]
    refine ⟨List.pairwise_cons.mpr ⟨ih.2, ih.1⟩, ?_⟩
    rintro c (_ | ⟨_, hc⟩)
    · exact Nat.le_refl _
    · exact Nat.le_of_succ_le (ih.2 c hc)

/-- Taking out the additions and putting back the deletions both pass through the kept lines,
whatever stands before. -/
theorem exists_kept (h : IsPatch key i j xs ys cs) :
    ∃ kept : List String,
      (∀ front : List String, front.length + 1 = j →
        (ofKind .add cs).foldr (fun c ks => ks.eraseIdx (c.line - 1)) (front ++ ys.map key) =
          front ++ kept) ∧
      ∀ front : List String, front.length + 1 = i →
        (ofKind .delete cs).foldl (fun ks c => ks.insertIdx (c.line - 1) (key c.content))
          (front ++ kept) = front ++ xs.map key := by
  -- Both folds walk the new and the old keys from the front, so what they passed is the front.
  induction h with
  | nil i j => exact ⟨[], by simp, by simp⟩
  | @keep i j x y xs ys cs hk _ ih =>
    obtain ⟨kept, hadd, hdel⟩ := ih
    refine ⟨key x :: kept, ?_, ?_⟩
    · intro front hf
      have h := hadd (front ++ [key y]) (by simp [hf])
      simpa [hk] using h
    · intro front hf
      have h := hdel (front ++ [key x]) (by simp [hf])
      simpa using h
  | @delete i j x xs ys cs _ ih =>
    obtain ⟨kept, hadd, hdel⟩ := ih
    refine ⟨kept, hadd, ?_⟩
    intro front hf
    have h := hdel (front ++ [key x]) (by simp [hf])
    have hput : (front ++ kept).insertIdx (i - 1) (key x) = front ++ [key x] ++ kept := by
      rw [← hf, Nat.add_sub_cancel, insertIdx_length_append]
      simp
    rw [ofKind_cons, if_pos rfl, List.foldl_cons, hput, h]
    simp
  | @add i j y xs ys cs _ ih =>
    obtain ⟨kept, hadd, hdel⟩ := ih
    refine ⟨kept, ?_, hdel⟩
    intro front hf
    have h := hadd (front ++ [key y]) (by simp [hf])
    have htake : (front ++ [key y] ++ kept).eraseIdx (j - 1) = front ++ kept := by
      rw [← hf, Nat.add_sub_cancel]
      simp [List.eraseIdx_append]
    rw [ofKind_cons, if_pos rfl, List.foldr_cons, ← htake, ← h]
    simp

/-- A patch can be undone from the new keys. -/
theorem undo_eq (h : IsPatch key 1 1 xs ys cs) :
    undo key (ofKind .delete cs) (ofKind .add cs) (ys.map key) = xs.map key := by
  obtain ⟨kept, hadd, hdel⟩ := h.exists_kept
  have h₁ := hadd [] rfl
  have h₂ := hdel [] rfl
  simp only [List.nil_append] at h₁ h₂
  rw [undo, h₁, h₂]

end IsPatch

/-- A path between the keys of two lists of lines is a patch from one to the other. -/
theorem Leads.isPatch {key : String → String} {old new : List String} {bs : List Block}
    {i j : Nat} (h : Leads (old.map key) (new.map key) i j bs old.length new.length) :
    IsPatch key (i + 1) (j + 1) (old.drop i) (new.drop j)
      (bs.flatMap (Block.changes old new)) := by
  induction bs generalizing i j with
  | nil =>
    obtain ⟨rfl, rfl⟩ := h
    simpa using IsPatch.nil _ _
  | cons b bs ih =>
    obtain ⟨hfit, hrest⟩ := h
    have hpatch := ih hrest
    -- A block covers the first lines of what is left of each side.
    have hold : (old.drop i).take b.oldLen ++ old.drop (i + b.oldLen) = old.drop i := by
      rw [← List.drop_drop, List.take_append_drop]
    have hnew : (new.drop j).take b.newLen ++ new.drop (j + b.newLen) = new.drop j := by
      rw [← List.drop_drop, List.take_append_drop]
    rw [List.flatMap_cons]
    cases ht : b.tag with
    | equal =>
      obtain ⟨-, -, hl, -, hio, hjn, hag⟩ := (Block.fits_equal ht).mp hfit
      rw [List.length_map] at hio hjn
      rw [agree_iff, ← List.map_drop, ← List.map_drop, ← List.map_take, ← List.map_take] at hag
      rw [hl] at hnew hpatch hjn
      have h := IsPatch.keep_all hag (show IsPatch key (i + 1 + _) (j + 1 + _)
        (old.drop (i + b.oldLen)) (new.drop (j + b.oldLen)) _ by
          rwa [List.length_take, List.length_drop, List.length_take, List.length_drop,
            Nat.min_eq_left (by omega), Nat.min_eq_left (by omega), Nat.add_right_comm,
            Nat.add_right_comm j])
      simp only [Block.changes, ht, List.nil_append]
      rwa [hold, hnew] at h
    | delete =>
      obtain ⟨hbo, hl, hio⟩ := (Block.fits_delete ht).mp hfit
      rw [List.length_map] at hio
      rw [hl, Nat.add_zero] at hpatch
      have h := IsPatch.delete_all (show IsPatch key
        (i + 1 + ((old.drop i).take b.oldLen).length) _ (old.drop (i + b.oldLen)) _ _ by
          rwa [List.length_take, List.length_drop, Nat.min_eq_left (by omega),
            Nat.add_right_comm])
      simp only [Block.changes, ht, Block.oldOf, hbo]
      rwa [hold] at h
    | insert =>
      obtain ⟨hbn, hl, hjn⟩ := (Block.fits_insert ht).mp hfit
      rw [List.length_map] at hjn
      rw [hl, Nat.add_zero] at hpatch
      have h := IsPatch.add_all (show IsPatch key _
        (j + 1 + ((new.drop j).take b.newLen).length) _ (new.drop (j + b.newLen)) _ by
          rwa [List.length_take, List.length_drop, Nat.min_eq_left (by omega),
            Nat.add_right_comm])
      simp only [Block.changes, ht, Block.newOf, hbn]
      rwa [hnew] at h
    | replace => simp only [Block.Fits, ht] at hfit

/-- The line changes of two texts are a patch between them. -/
theorem lineDiff_isPatch (old new : String) (mode : LineComparison) :
    IsPatch mode.key 1 1 (Text.linesOf old) (Text.linesOf new) (lineDiff old new mode) := by
  rw [lineDiff_eq_flatMap, ← flatMap_changes_parts]
  generalize Text.linesOf old = os
  generalize Text.linesOf new = ns
  have h := script_leads (os.map mode.key) (ns.map mode.key)
  rw [List.length_map, List.length_map] at h
  simpa using h.isPatch

section Unchanged

variable {α : Type} [DecidableEq α]

theorem commonPrefix_self (xs : List α) : commonPrefix xs xs = xs.length := by
  induction xs with
  | nil => rfl
  | cons x xs ih => simp [commonPrefix, ih]

theorem blocks_self (xs : List α) : ∀ b ∈ blocks xs xs, b.tag = .equal := by
  intro b hb
  have hnil : commonSuffix ([] : List α) [] = 0 := rfl
  simp only [blocks, splitBlocks, commonPrefix_self, List.drop_length, hnil] at hb
  split at hb
  · simp at hb
  · obtain rfl : b = .equal 0 0 xs.length := by simpa using hb
    rfl

theorem settle_of_tag_ne {tag : BlockTag} {old new : List α} {after : List Block}
    (h : ∀ b ∈ after, b.tag ≠ tag) (before : List Block) (fuel : Nat) :
    settle tag old new before after fuel = before.reverse ++ after := by
  induction fuel generalizing before after with
  | zero => rfl
  | succ fuel ih =>
    cases after with
    | nil => simp [settle]
    | cons b rest =>
      rw [settle, if_neg (h b List.mem_cons_self),
        ih (fun c hc => h c (List.mem_cons_of_mem b hc))]
      simp

theorem joinFrom_equal {eq : Option Block} {bs : List Block} (heq : ∀ b ∈ eq, b.tag = .equal)
    (h : ∀ b ∈ bs, b.tag = .equal) : ∀ b ∈ joinFrom eq none none bs, b.tag = .equal := by
  induction bs generalizing eq with
  | nil => simpa [joinFrom, pendingChange] using heq
  | cons c bs ih =>
    have hc := h c List.mem_cons_self
    simp only [joinFrom, hc, pendingChange, List.nil_append]
    exact ih (fun b hb => extend_tag heq hc hb) fun b hb => h b (List.mem_cons_of_mem c hb)

/-- The script of a list and itself has no change. -/
theorem script_self (xs : List α) : ∀ b ∈ script xs xs, b.tag = .equal := by
  have h := blocks_self xs
  have hsettle (tag : BlockTag) (ht : tag ≠ .equal) (fuel : Nat) :
      settle tag xs xs [] (blocks xs xs) fuel = blocks xs xs :=
    settle_of_tag_ne (fun b hb => h b hb ▸ ht.symm) [] fuel
  have hcompact : compact xs xs (blocks xs xs) = blocks xs xs := by
    simp only [compact]
    rw [hsettle .delete (by decide), hsettle .insert (by decide)]
  rw [script, hcompact]
  exact joinFrom_equal (by simp) h

end Unchanged

/-- Two texts have no line change exactly when the keys of their lines are equal. -/
theorem lineDiff_eq_nil {old new : String} {mode : LineComparison} :
    lineDiff old new mode = [] ↔ mode.keys (Text.linesOf old) = mode.keys (Text.linesOf new) := by
  rw [← mode.map_key, ← mode.map_key]
  constructor
  · intro h
    have hp := lineDiff_isPatch old new mode
    rw [h] at hp
    exact hp.keys_eq_of_nil
  · intro h
    rw [lineDiff_eq_flatMap, h, List.flatMap_eq_nil_iff]
    intro b hb
    simp only [Block.changes, script_self _ b hb]

end SymbolHistory.Diff
