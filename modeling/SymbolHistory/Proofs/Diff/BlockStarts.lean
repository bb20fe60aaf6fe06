import SymbolHistory.Proofs.Diff.Minimality

namespace SymbolHistory.Diff

variable {α : Type} {old new : List α}

theorem Block.reverse_unlessEmpty (b : Block) : b.unlessEmpty.reverse = b.unlessEmpty := by
  unfold unlessEmpty
  split <;> rfl

/-- Where the next equal lines begin in the old list, `n` when none follow. -/
def runEnd (n : Nat) : List Block → Nat
  | [] => n
  | b :: bs => if b.tag = .equal then b.oldStart else runEnd n bs

/-- An insertion starts by `n` in the old list, a deletion by `m` in the new one. -/
structure Block.StartsBy (n m : Nat) (b : Block) : Prop where
  insert : b.tag = .insert → b.oldStart ≤ n
  delete : b.tag = .delete → b.newStart ≤ m

/-- Insertions start by the next equal lines, and deletions by `m`. -/
def Bounded (n m : Nat) : List Block → Prop
  | [] => True
  | b :: bs => b.StartsBy (runEnd n bs) m ∧ Bounded n m bs

section Lists

variable {n m : Nat} {b : Block} {as bs : List Block}

theorem runEnd_cons_equal (h : b.tag = .equal) : runEnd n (b :: bs) = b.oldStart := if_pos h

theorem runEnd_cons_change (h : b.tag ≠ .equal) : runEnd n (b :: bs) = runEnd n bs := if_neg h

theorem runEnd_append (as bs : List Block) : runEnd n (as ++ bs) = runEnd (runEnd n bs) as := by
  induction as with
  | nil => rfl
  | cons a as ih => simp only [List.cons_append, runEnd, ih]

@[simp] theorem bounded_cons :
    Bounded n m (b :: bs) ↔ b.StartsBy (runEnd n bs) m ∧ Bounded n m bs := Iff.rfl

theorem bounded_append :
    Bounded n m (as ++ bs) ↔ Bounded (runEnd n bs) m as ∧ Bounded n m bs := by
  induction as with
  | nil => exact Iff.of_eq (true_and _).symm
  | cons a as ih => rw [List.cons_append, bounded_cons, bounded_cons, ih, runEnd_append, and_assoc]

theorem Block.startsBy_of_equal (h : b.tag = .equal) : b.StartsBy n m :=
  ⟨by simp [h], by simp [h]⟩

theorem Block.startsBy_of_insert (h : b.tag = .insert) (hn : b.oldStart ≤ n) : b.StartsBy n m :=
  ⟨fun _ => hn, by simp [h]⟩

theorem Block.startsBy_of_delete (h : b.tag = .delete) (hm : b.newStart ≤ m) : b.StartsBy n m :=
  ⟨by simp [h], fun _ => hm⟩

theorem Block.startsBy_of_replace (h : b.tag = .replace) : b.StartsBy n m :=
  ⟨by simp [h], by simp [h]⟩

theorem bounded_cons_equal (h : b.tag = .equal) : Bounded n m (b :: bs) ↔ Bounded n m bs :=
  and_iff_right (Block.startsBy_of_equal h)

theorem runEnd_unlessEmpty (h : b.tag = .equal) :
    runEnd n (b.unlessEmpty ++ bs) = if b.isEmpty then runEnd n bs else b.oldStart := by
  unfold Block.unlessEmpty
  split
  · rfl
  · exact runEnd_cons_equal h

theorem bounded_unlessEmpty (h : b.tag = .equal) :
    Bounded n m (b.unlessEmpty ++ bs) ↔ Bounded n m bs := by
  unfold Block.unlessEmpty
  split
  · rfl
  · exact bounded_cons_equal h

theorem bounded_leaveBelow (prev moving : Block) (s : Nat) :
    Bounded n m (leaveBelow prev moving s bs) ↔ Bounded n m bs := by
  cases bs with
  | nil => exact bounded_cons_equal rfl
  | cons b bs =>
    rw [leaveBelow]
    split
    · next ht =>
      have hg : (b.growStart s).tag = .equal := ht
      rw [bounded_cons_equal ht, bounded_cons_equal hg]
    · exact bounded_cons_equal rfl

theorem runEnd_leaveBelow {prev moving : Block} {s : Nat}
    (hnext : ∀ b ∈ bs.head?, b.tag = .equal → b.oldStart = prev.oldEnd) :
    runEnd n (leaveBelow prev moving s bs) = prev.oldEnd - s := by
  cases bs with
  | nil => exact runEnd_cons_equal rfl
  | cons b bs =>
    rw [leaveBelow]
    split
    · next ht =>
      have hg : (b.growStart s).tag = .equal := ht
      rw [runEnd_cons_equal hg, ← hnext b rfl ht]
      rfl
    · exact runEnd_cons_equal rfl

theorem Bounded.leaveBelow {before : List Block} {prev moving : Block} {s : Nat}
    (h : Bounded n m (before.reverse ++ prev :: bs)) (hp : prev.tag = .equal)
    (hs : s ≤ prev.oldLen) (hnext : ∀ b ∈ bs.head?, b.tag = .equal → b.oldStart = prev.oldEnd) :
    Bounded n m (((prev.cutEnd s).unlessEmpty ++ before).reverse ++
      leaveBelow prev moving s bs) := by
  have hcut : (prev.cutEnd s).tag = .equal := hp
  rw [bounded_append, runEnd_cons_equal hp, bounded_cons_equal hp] at h
  rw [List.reverse_append, Block.reverse_unlessEmpty, List.append_assoc, bounded_append,
    bounded_unlessEmpty hcut, bounded_leaveBelow, runEnd_unlessEmpty hcut, runEnd_leaveBelow hnext]
  refine ⟨?_, h.2⟩
  split
  · next he =>
    -- All of them are left, so they begin where the block above began.
    simp only [Block.isEmpty, Block.cutEnd, Bool.and_eq_true, beq_iff_eq] at he
    rw [Block.oldEnd, show prev.oldStart + prev.oldLen - s = prev.oldStart by omega]
    exact h.1
  · exact h.1

theorem Bounded.leaveAbove {before rest : List Block} {next moving : Block} {p : Nat}
    (h : Bounded n m (before.reverse ++ next :: rest)) (hn : next.tag = .equal)
    (hbs : Bounded n m bs) :
    Bounded n m ((leaveAbove next moving p before).reverse ++ bs) := by
  rw [bounded_append, runEnd_cons_equal hn] at h
  obtain ⟨h, -⟩ := h
  have hleft : Bounded n m (before.reverse ++ .equal next.oldStart moving.newStart p :: bs) :=
    bounded_append.mpr ⟨h, (bounded_cons_equal rfl).mpr hbs⟩
  cases before with
  | nil => exact hleft
  | cons prev before =>
    rw [Diff.leaveAbove]
    split
    · next ht =>
      have hg : (prev.growEnd p).tag = .equal := ht
      rw [List.reverse_cons, bounded_append, runEnd_cons_equal ht] at h
      rw [List.reverse_cons, List.append_assoc, List.singleton_append, bounded_append,
        runEnd_cons_equal hg, bounded_cons_equal hg]
      exact ⟨h.1, hbs⟩
    · rw [List.reverse_cons, List.append_assoc]
      exact hleft

theorem Bounded.remove {pre rest : List Block} (h : Bounded n m (pre ++ b :: rest))
    (hb : b.tag ≠ .equal) : Bounded n m (pre ++ rest) := by
  rw [bounded_append, runEnd_cons_change hb] at h
  exact bounded_append.mpr ⟨h.1, h.2.2⟩

/-- A change that starts early enough may be put in. -/
theorem Bounded.put {pre rest : List Block} (h : Bounded n m (pre ++ rest)) (hb : b.tag ≠ .equal)
    (hstart : b.StartsBy (runEnd n rest) m) : Bounded n m (pre ++ b :: rest) := by
  rw [bounded_append] at h
  rw [bounded_append, runEnd_cons_change hb]
  exact ⟨h.1, hstart, h.2⟩

end Lists

theorem Block.Fits.not_isEmpty {b : Block} {i j : Nat} (h : b.Fits old new i j)
    (ht : b.tag = .equal) : ¬b.isEmpty = true := by
  have hpos := ((Block.fits_equal ht).mp h).2.2.2.1
  simp only [Block.isEmpty, Bool.and_eq_true, beq_iff_eq]
  omega

/-- On a path the next equal lines begin no earlier than the path stands. -/
theorem Leads.le_runEnd {bs : List Block} {i j i' j' n : Nat} (h : Leads old new i j bs i' j')
    (hn : i' ≤ n) : i ≤ runEnd n bs := by
  induction bs generalizing i j with
  | nil => exact h.1 ▸ hn
  | cons b bs ih =>
    obtain ⟨hfit, hrest⟩ := h
    by_cases ht : b.tag = .equal
    · rw [runEnd_cons_equal ht]
      exact Nat.le_of_eq ((Block.fits_equal ht).mp hfit).1.symm
    · rw [runEnd_cons_change ht]
      exact Nat.le_trans (Nat.le_add_right i b.oldLen) (ih hrest)

theorem Leads.oldStart_of_head {bs : List Block} {i j i' j' : Nat}
    (h : Leads old new i j bs i' j') : ∀ b ∈ bs.head?, b.tag = .equal → b.oldStart = i := by
  cases bs with
  | nil => simp
  | cons c bs =>
    rintro b ⟨⟩ ht
    exact ((Block.fits_equal ht).mp h.1).1

/-- Two neighbours on a path, and the path after them. -/
theorem Leads.neighbours {as bs : List Block} {b c : Block} {i j i' j' : Nat}
    (h : Leads old new i j (as ++ b :: c :: bs) i' j') :
    ∃ k l, b.Fits old new k l ∧ c.Fits old new (k + b.oldLen) (l + b.newLen) ∧
      Leads old new (k + b.oldLen + c.oldLen) (l + b.newLen + c.newLen) bs i' j' := by
  obtain ⟨k, l, -, hb, hc, hbs⟩ := leads_append.mp h
  exact ⟨k, l, hb, hc, hbs⟩

/-- An insertion of `len` lines that says it starts at `y` and stands at `j` in the new list sinks
through the blocks below it until `y` is no later than the next equal lines: it passes changes as
they are and equal lines that are its own. -/
def Sinks (old new : List α) (len y j : Nat) : List Block → Prop
  | [] => y ≤ old.length
  | b :: bs =>
    y ≤ runEnd old.length (b :: bs) ∨
      if b.tag = .equal then
        0 < len ∧ Agree old new b.oldStart j b.oldLen ∧
          Sinks old new len (y + b.oldLen) (j + b.oldLen) bs
      else Sinks old new len y j bs

namespace Sinks

variable {len y j : Nat} {b : Block} {bs : List Block}

theorem of_le (h : y ≤ runEnd old.length bs) : Sinks old new len y j bs := by
  cases bs with
  | nil => exact h
  | cons b bs => exact Or.inl h

theorem cons_equal (ht : b.tag = .equal) :
    Sinks old new len y j (b :: bs) ↔ y ≤ b.oldStart ∨
      0 < len ∧ Agree old new b.oldStart j b.oldLen ∧
        Sinks old new len (y + b.oldLen) (j + b.oldLen) bs := by
  simp only [Sinks, runEnd_cons_equal ht, ht, if_true]

theorem cons_change (ht : b.tag ≠ .equal) :
    Sinks old new len y j (b :: bs) ↔ Sinks old new len y j bs := by
  simp only [Sinks, runEnd_cons_change ht, ht, if_false, or_iff_right_iff_imp]
  exact of_le

theorem longer {len' : Nat} (hlen : len ≤ len') (h : Sinks old new len y j bs) :
    Sinks old new len' y j bs := by
  induction bs generalizing y j with
  | nil => exact h
  | cons b bs ih =>
    by_cases ht : b.tag = .equal
    · rw [cons_equal ht] at h ⊢
      exact h.imp_right fun h => ⟨Nat.lt_of_lt_of_le h.1 hlen, h.2.1, ih h.2.2⟩
    · rw [cons_change ht] at h ⊢
      exact ih h

theorem down {p : Nat} (h : Sinks old new len y j (b :: bs)) (ht : b.tag = .equal)
    (hp : p ≤ b.oldLen) (hend : b.oldEnd ≤ runEnd old.length bs) :
    Sinks old new len (y + p) (j + p) ((b.cutStart p).unlessEmpty ++ bs) := by
  have hc : (b.cutStart p).tag = .equal := ht
  rw [cons_equal ht] at h
  unfold Block.unlessEmpty
  split
  · next he =>
    have hall : p = b.oldLen := by
      simp only [Block.isEmpty, Block.cutStart, Bool.and_eq_true, beq_iff_eq] at he
      omega
    subst hall
    rcases h with hy | ⟨-, -, hrest⟩
    · rw [Block.oldEnd] at hend
      refine of_le ?_
      rw [List.nil_append]
      omega
    · exact hrest
  · rw [List.singleton_append, cons_equal hc]
    rcases h with hy | ⟨hpos, hagree, hrest⟩
    · exact Or.inl (Nat.add_le_add_right hy p)
    · refine Or.inr ⟨hpos, hagree.cut_start p, ?_⟩
      have hsum : p + (b.oldLen - p) = b.oldLen := by omega
      simpa only [Block.cutStart, Nat.add_assoc, hsum] using hrest

/-- Rising over equal lines leaves them below, where the insertion can sink over them again. -/
theorem up {prev moving : Block} {s : Nat} (h : Sinks old new len y j bs) (hlen : 0 < len)
    (hsj : s ≤ j) (hse : s ≤ prev.oldEnd)
    (hagree : Agree old new (prev.oldEnd - s) (j - s) s)
    (hnext : ∀ b ∈ bs.head?, b.tag = .equal → b.oldStart = prev.oldEnd) :
    Sinks old new len (y - s) (j - s) (leaveBelow prev moving s bs) := by
  -- A start less than the lines risen over is cut off at zero.
  rcases Nat.lt_or_ge y s with hys | hys
  · exact of_le (by omega)
  have hback : y - s + s = y ∧ j - s + s = j := by omega
  have hleft : Sinks old new len (y - s) (j - s)
      (.equal (prev.oldEnd - s) (moving.newEnd - s) s :: bs) := by
    rw [cons_equal rfl]
    refine Or.inr ⟨hlen, hagree, ?_⟩
    simpa only [Block.equal, hback] using h
  cases bs with
  | nil => exact hleft
  | cons b bs =>
    rw [leaveBelow]
    split
    · next ht =>
      have hb := hnext b rfl ht
      have hg : (b.growStart s).tag = .equal := ht
      rw [cons_equal ht] at h
      rw [cons_equal hg]
      rcases h with hy | ⟨-, hagree', hrest⟩
      · exact Or.inl (Nat.sub_le_sub_right hy s)
      · refine Or.inr ⟨hlen, ?_, ?_⟩
        · simp only [Block.growStart, hb, Nat.add_comm b.oldLen s]
          refine hagree.append ?_
          rwa [Nat.sub_add_cancel hse, Nat.sub_add_cancel hsj, ← hb]
        · simp only [Block.growStart]
          rwa [show y - s + (b.oldLen + s) = y + b.oldLen by omega,
            show j - s + (b.oldLen + s) = j + b.oldLen by omega]
    · exact hleft

end Sinks

/-- A deletion or insertion on its way through a script in which all others are bounded. An
insertion that rose over deletions says too late a start in the old list; it sinks again past all it
rose over. -/
structure InMotion (old new : List α) (before : List Block) (moving : Block)
    (after : List Block) : Prop where
  path : Leads old new 0 0 (before.reverse ++ moving :: after) old.length new.length
  change : moving.tag ≠ .equal
  others : Bounded old.length new.length (before.reverse ++ after)
  delete : moving.tag = .delete → moving.newStart ≤ new.length
  insert : moving.tag = .insert →
    Sinks old new moving.newLen moving.oldStart moving.newStart after

namespace InMotion

variable {before after : List Block} {prev moving next : Block}

theorem above (h : InMotion old new (prev :: before) moving after) :
    ∃ k l, prev.Fits old new k l ∧ moving.Fits old new (k + prev.oldLen) (l + prev.newLen) ∧
      Leads old new (k + prev.oldLen + moving.oldLen) (l + prev.newLen + moving.newLen) after
        old.length new.length := by
  have hpath := h.path
  rw [List.reverse_cons, List.append_assoc] at hpath
  exact hpath.neighbours

theorem others_above (h : InMotion old new (prev :: before) moving after) :
    Bounded old.length new.length (before.reverse ++ prev :: after) := by
  have hothers := h.others
  rwa [List.reverse_cons, List.append_assoc] at hothers

theorem startsBy_above (h : InMotion old new (prev :: before) moving after) :
    prev.StartsBy (runEnd old.length after) new.length :=
  (bounded_append.mp h.others_above).2.1

theorem absorb_up (h : InMotion old new (prev :: before) moving after) (hp : prev.tag ≠ .equal)
    (heq : prev.tag = moving.tag) : InMotion old new before (prev.absorb moving) after where
  path := by
    have hr : Reroutes old new _ _ := (reroutes_absorb heq).within before.reverse after
    simpa using hr _ _ _ _ (by simpa using h.path)
  change := hp
  others := h.others_above.remove hp
  delete hd := h.startsBy_above.delete hd
  insert hi := Sinks.of_le (h.startsBy_above.insert hi)

theorem pass_up (h : InMotion old new (prev :: before) moving after) (hp : prev.tag ≠ .equal)
    (hne : prev.tag ≠ moving.tag) : InMotion old new before moving (prev :: after) where
  path := by
    have hr : Reroutes old new _ _ := (reroutes_pass hp h.change hne).within before.reverse after
    simpa using hr _ _ _ _ (by simpa using h.path)
  change := h.change
  others := h.others_above
  delete := h.delete
  insert hi := (Sinks.cons_change hp).mpr (h.insert hi)

theorem absorb_down (h : InMotion old new before moving (next :: after))
    (heq : next.tag = moving.tag) : InMotion old new before (moving.absorb next) after where
  path := by
    have hr : Reroutes old new _ _ := (reroutes_absorb heq.symm).within before.reverse after
    simpa using hr _ _ _ _ (by simpa using h.path)
  change := h.change
  others := h.others.remove (heq ▸ h.change)
  delete := h.delete
  insert hi :=
    ((Sinks.cons_change (heq ▸ h.change)).mp (h.insert hi)).longer (Nat.le_add_right _ _)

theorem pass_down (h : InMotion old new before moving (next :: after)) (hn : next.tag ≠ .equal)
    (hne : next.tag ≠ moving.tag) : InMotion old new (next :: before) moving after where
  path := by
    have hr : Reroutes old new _ _ :=
      (reroutes_pass h.change hn hne.symm).within before.reverse after
    simpa using hr _ _ _ _ (by simpa using h.path)
  change := h.change
  others := by simpa using h.others
  delete := h.delete
  insert hi := (Sinks.cons_change hn).mp (h.insert hi)

theorem tag_eq_insert {i j : Nat} (h : InMotion old new before moving after)
    (hfit : moving.Fits old new i j) (hne : moving.newOf new ≠ []) : moving.tag = .insert :=
  (hfit.tag_of_ne h.change).resolve_left fun hd =>
    hne (Block.newOf_eq_nil ((Block.fits_delete hd).mp hfit).2.1)

variable [DecidableEq α]

theorem slide_up {s : Nat} (h : InMotion old new (prev :: before) moving after)
    (hp : prev.tag = .equal) (hs : commonSuffix (prev.oldOf old) (moving.newOf new) = s)
    (hpos : s ≠ 0) :
    InMotion old new ((prev.cutEnd s).unlessEmpty ++ before) (moving.moveUp s)
      (leaveBelow prev moving s after) := by
  obtain ⟨k, l, hprev, hmoving, hafter⟩ := h.above
  have hne : moving.newOf new ≠ [] := by
    intro hnil
    rw [hnil, commonSuffix_nil_right] at hs
    exact hpos hs.symm
  have hi := h.tag_eq_insert hmoving hne
  obtain ⟨hpo, hpn, hpl, -, -, -, hagree⟩ := (Block.fits_equal hp).mp hprev
  obtain ⟨hmn, hml, -⟩ := (Block.fits_insert hi).mp hmoving
  have hsp : s ≤ prev.oldLen :=
    hs ▸ Nat.le_trans (commonSuffix_le_left _ _) (prev.length_oldOf_le old)
  have hsm : s ≤ moving.newLen :=
    hs ▸ Nat.le_trans (commonSuffix_le_right _ _) moving.length_newOf_le
  have hend : prev.oldEnd = k + prev.oldLen := congrArg (· + prev.oldLen) hpo
  have hnext : ∀ b ∈ after.head?, b.tag = .equal → b.oldStart = prev.oldEnd := by
    intro b hb ht
    rw [hafter.oldStart_of_head b hb ht, hml, Nat.add_zero, hend]
  -- The lines risen over are the last of the equal lines above.
  have hlast : Agree old new (prev.oldEnd - s) (moving.newStart - s) s := by
    have hcut := hagree.cut_start (prev.oldLen - s)
    rwa [show k + (prev.oldLen - s) = prev.oldEnd - s by omega,
      show l + (prev.oldLen - s) = moving.newStart - s by omega,
      show prev.oldLen - (prev.oldLen - s) = s by omega] at hcut
  exact ⟨reroutes_slide_up_leaving hp h.change hs hpos before after _ _ _ _ h.path, h.change,
    h.others_above.leaveBelow hp hsp hnext, fun hd => absurd (hi.symm.trans hd) (by decide),
    fun _ => (h.insert hi).up (by omega) (by omega) (by omega) hlast hnext⟩

theorem slide_down {p : Nat} (h : InMotion old new before moving (next :: after))
    (hn : next.tag = .equal) (hp : commonPrefix (next.oldOf old) (moving.newOf new) = p)
    (hpos : p ≠ 0) :
    InMotion old new (leaveAbove next moving p before) (moving.moveDown p)
      ((next.cutStart p).unlessEmpty ++ after) := by
  obtain ⟨k, l, hmoving, hnext, hafter⟩ := h.path.neighbours
  have hne : moving.newOf new ≠ [] := by
    intro hnil
    rw [hnil, commonPrefix_nil_right] at hp
    exact hpos hp.symm
  have hi := h.tag_eq_insert hmoving hne
  have hpn : p ≤ next.oldLen :=
    hp ▸ Nat.le_trans (commonPrefix_le_left _ _) (next.length_oldOf_le old)
  have hend : next.oldEnd ≤ runEnd old.length after := by
    rw [Block.oldEnd, ((Block.fits_equal hn).mp hnext).1]
    exact hafter.le_runEnd (Nat.le_refl _)
  have hcut : (next.cutStart p).tag = .equal := hn
  refine ⟨reroutes_slide_down_leaving hn h.change hp hpos before after _ _ _ _ h.path, h.change,
    ?_, fun hd => absurd (hi.symm.trans hd) (by decide), fun _ => (h.insert hi).down hn hpn hend⟩
  refine h.others.leaveAbove hn ((bounded_unlessEmpty hcut).mpr ?_)
  exact (bounded_cons_equal hn).mp (bounded_append.mp h.others).2

/-- Where equal lines stop it, a change starts by their beginning. -/
theorem startsBy_of_stopped (h : InMotion old new before moving (next :: after))
    (hn : next.tag = .equal) (hp : commonPrefix (next.oldOf old) (moving.newOf new) = 0) :
    moving.StartsBy (runEnd old.length (next :: after)) new.length := by
  refine ⟨fun hi => ?_, h.delete⟩
  rw [runEnd_cons_equal hn]
  refine ((Sinks.cons_equal hn).mp (h.insert hi)).resolve_right ?_
  rintro ⟨hpos, hagree, -⟩
  -- The first line of the equal block would be the first line inserted.
  obtain ⟨k, l, -, hnext, -⟩ := h.path.neighbours
  obtain ⟨ho, -, -, hlen, hbound, -, -⟩ := (Block.fits_equal hn).mp hnext
  have hfirst := hagree 0 hlen
  rw [Nat.add_zero, Nat.add_zero] at hfirst
  obtain ⟨a, ha⟩ : ∃ a, old[next.oldStart]? = some a :=
    ⟨_, List.getElem?_eq_getElem (by omega)⟩
  refine commonPrefix_eq_zero.mp hp a ?_ ?_
  · simp [Block.oldOf, List.head?_take, Nat.ne_of_gt hlen, ha]
  · simp [Block.newOf, List.head?_take, Nat.ne_of_gt hpos, ← hfirst, ha]

end InMotion

section Runs

variable [DecidableEq α] {before after before' after' : List Block} {moving moving' : Block}

theorem moveUpThrough_inMotion (hm : InMotion old new before moving after)
    (h : moveUpThrough old new before moving after = (before', moving', after')) :
    InMotion old new before' moving' after' := by
  fun_induction moveUpThrough old new before moving after with
  | case1 moving after =>
    cases h
    exact hm
  | case2 moving after prev rest hp s _ _ he ih =>
    obtain ⟨k, l, hprev, -⟩ := hm.above
    exact absurd he (hprev.not_isEmpty hp)
  | case3 moving after prev rest hp s _ _ he =>
    cases h
    exact hm
  | case4 moving after prev rest hp s _ hs below he ih =>
    have hslide := hm.slide_up hp rfl hs
    rw [Block.unlessEmpty, if_pos he] at hslide
    exact ih hslide h
  | case5 moving after prev rest hp s _ hs below he ih =>
    have hslide := hm.slide_up hp rfl hs
    rw [Block.unlessEmpty, if_neg he] at hslide
    exact ih hslide h
  | case6 moving after prev rest hp heq ih => exact ih (hm.absorb_up hp heq) h
  | case7 moving after prev rest hp hne ih => exact ih (hm.pass_up hp hne) h

/-- A change that sinks comes to rest early enough. -/
theorem moveDownThrough_bounded (hm : InMotion old new before moving after)
    (h : moveDownThrough old new before moving after = (before', moving', after')) :
    Bounded old.length new.length (before'.reverse ++ moving' :: after') := by
  fun_induction moveDownThrough old new before moving after with
  | case1 before moving =>
    cases h
    exact hm.others.put hm.change ⟨hm.insert, hm.delete⟩
  | case2 before moving next rest hn p _ _ he ih =>
    obtain ⟨k, l, -, hnext, -⟩ := hm.path.neighbours
    exact absurd he (hnext.not_isEmpty hn)
  | case3 before moving next rest hn p _ hp he =>
    cases h
    exact hm.others.put hm.change (hm.startsBy_of_stopped hn hp)
  | case4 before moving next rest hn p _ hp above he ih =>
    have hslide := hm.slide_down hn rfl hp
    rw [Block.unlessEmpty, if_pos he] at hslide
    exact ih hslide h
  | case5 before moving next rest hn p _ hp above he ih =>
    have hslide := hm.slide_down hn rfl hp
    rw [Block.unlessEmpty, if_neg he] at hslide
    exact ih hslide h
  | case6 before moving next rest hn heq ih => exact ih (hm.absorb_down heq) h
  | case7 before moving next rest hn hne ih => exact ih (hm.pass_down hn hne) h

/-- Settling blocks of one kind keeps all of them bounded. -/
theorem settle_bounded {tag : BlockTag} (ht : tag ≠ .equal) {before after : List Block}
    (fuel : Nat) (hpath : Leads old new 0 0 (before.reverse ++ after) old.length new.length)
    (h : Bounded old.length new.length (before.reverse ++ after)) :
    Bounded old.length new.length (settle tag old new before after fuel) := by
  induction fuel generalizing before after with
  | zero => exact h
  | succ fuel ih =>
    cases after with
    | nil => simpa [settle] using h
    | cons b rest =>
      simp only [settle]
      split
      · next hb =>
        rcases hup : moveUpThrough old new before b rest with ⟨before₁, b₁, after₁⟩
        rcases hdown : moveDownThrough old new before₁ b₁ after₁ with ⟨before₂, b₂, after₂⟩
        have hchange : b.tag ≠ .equal := hb ▸ ht
        have hstart := (bounded_append.mp h).2.1
        have hmotion : InMotion old new before b rest :=
          ⟨hpath, hchange, h.remove hchange, hstart.delete,
            fun hi => Sinks.of_le (hstart.insert hi)⟩
        -- Risen, it may start too late; it is bounded again only once it has sunk.
        have hrisen := moveUpThrough_inMotion hmotion hup
        obtain ⟨-, hroute⟩ := moveDownThrough_reroutes hrisen.change hdown
        refine ih ?_ ?_
        · simpa using hroute _ _ _ _ hrisen.path
        · simpa using moveDownThrough_bounded hrisen hdown
      · exact ih (by simpa using hpath) (by simpa using h)

theorem compact_bounded {bs : List Block} (hpath : Leads old new 0 0 bs old.length new.length)
    (h : Bounded old.length new.length bs) :
    Bounded old.length new.length (compact old new bs) := by
  have hdelete : BlockTag.delete ≠ .equal := by decide
  have hinsert : BlockTag.insert ≠ .equal := by decide
  exact settle_bounded hinsert _ (settle_reroutes hdelete [] bs _ _ _ _ _ hpath)
    (settle_bounded hdelete _ hpath h)

theorem bounded_exchange {i j a b n m : Nat} (hi : i ≤ n) (hj : j ≤ m) :
    Bounded n m [.delete i a j, .insert i j b] :=
  ⟨Block.startsBy_of_delete rfl hj, Block.startsBy_of_insert rfl hi, trivial⟩

theorem bounded_equals {i j len n m : Nat} :
    Bounded n m (if len = 0 then [] else [.equal i j len]) := by
  split
  · trivial
  · exact (bounded_cons_equal rfl).mpr trivial

/-- The blocks of the search know where they stand. -/
theorem splitBlocks_bounded {i j n m : Nat} {xs ys : List α} (hx : StandsAt xs old i)
    (hy : StandsAt ys new j) (hn : i + xs.length ≤ n) (hm : j + ys.length ≤ m) (fuel : Nat) :
    Bounded n m (splitBlocks i j xs ys fuel) := by
  induction fuel generalizing i j n m xs ys with
  | zero => exact bounded_exchange (by omega) (by omega)
  | succ fuel ih =>
    simp only [splitBlocks]
    generalize hp : commonPrefix xs ys = p
    have hpx : p ≤ xs.length := hp ▸ commonPrefix_le_left xs ys
    have hpy : p ≤ ys.length := hp ▸ commonPrefix_le_right xs ys
    have hx₁ := hx.drop hpx
    have hy₁ := hy.drop hpy
    have hlx₁ : i + p + (xs.drop p).length ≤ n := by simp only [List.length_drop]; omega
    have hly₁ : j + p + (ys.drop p).length ≤ m := by simp only [List.length_drop]; omega
    -- Of what is left only where it stands and that it fits matters from here on.
    generalize xs.drop p = xs₁ at hx₁ hlx₁ ⊢
    generalize ys.drop p = ys₁ at hy₁ hly₁ ⊢
    generalize commonSuffix xs₁ ys₁ = s
    have hx₂ := hx₁.take (xs₁.length - s)
    have hy₂ := hy₁.take (ys₁.length - s)
    have hlx₂ : i + p + (xs₁.take (xs₁.length - s)).length ≤ n := by
      simp only [List.length_take]
      omega
    have hly₂ : j + p + (ys₁.take (ys₁.length - s)).length ≤ m := by
      simp only [List.length_take]
      omega
    generalize xs₁.take (xs₁.length - s) = xs₂ at hx₂ hlx₂ ⊢
    generalize ys₁.take (ys₁.length - s) = ys₂ at hy₂ hly₂ ⊢
    refine bounded_append.mpr ⟨bounded_append.mpr ⟨bounded_equals, ?_⟩, bounded_equals⟩
    have hlimit : i + p + xs₂.length ≤ runEnd n
        (if s = 0 then [] else [.equal (i + p + xs₂.length) (j + p + ys₂.length) s]) := by
      split
      · exact hlx₂
      · exact Nat.le_refl _
    generalize runEnd n _ = n₂ at hlimit ⊢
    split
    · trivial
    · split
      · have hstart : j + p ≤ m := Nat.le_trans (Nat.le_add_right _ _) hly₂
        exact ⟨Block.startsBy_of_delete rfl hstart, trivial⟩
      · split
        · have hstart : i + p ≤ n₂ := Nat.le_trans (Nat.le_add_right _ _) hlimit
          exact ⟨Block.startsBy_of_insert rfl hstart, trivial⟩
        · split
          · next x y hmeet =>
            obtain ⟨hxle, hyle⟩ := meeting_le hmeet
            have hx₃ := hx₂.drop hxle
            have hy₃ := hy₂.drop hyle
            have hbelow := (splitBlocks_leads hx₃ hy₃ fuel).le_runEnd (n := n₂)
              (by simp only [List.length_drop]; omega)
            refine bounded_append.mpr ⟨ih (hx₂.take x) (hy₂.take y) ?_ ?_, ih hx₃ hy₃ ?_ ?_⟩
            all_goals simp only [List.length_take, List.length_drop]
            all_goals omega
          · exact bounded_exchange (by omega) (by omega)

end Runs

section Joining

variable {n m : Nat} {eq del ins : Option Block}

theorem extend_startsBy {pending : Option Block} {b c : Block}
    (hp : ∀ a ∈ pending, a.StartsBy n m) (hb : b.StartsBy n m) (hc : c ∈ extend pending b) :
    c.StartsBy n m := by
  cases pending with
  | none =>
    cases hc
    exact hb
  | some a =>
    cases hc
    exact ⟨(hp a rfl).insert, (hp a rfl).delete⟩

theorem bounded_pendingChange (hdel : ∀ b ∈ del, b.StartsBy n m)
    (hins : ∀ b ∈ ins, b.StartsBy n m) : Bounded n m (pendingChange del ins) := by
  cases del with
  | none =>
    cases ins with
    | none => trivial
    | some c => exact ⟨hins c rfl, trivial⟩
  | some b =>
    cases ins with
    | none => exact ⟨hdel b rfl, trivial⟩
    | some c => exact ⟨Block.startsBy_of_replace rfl, trivial⟩

theorem Pending.runEnd_pendingChange (h : Pending eq del ins) (bs : List Block) :
    runEnd n (pendingChange del ins ++ bs) = runEnd n bs := by
  by_cases hne : del ≠ none ∨ ins ≠ none
  · obtain ⟨c, hpc, hc⟩ := pendingChange_cases h hne
    rw [hpc]
    exact runEnd_cons_change hc
  · obtain ⟨rfl, rfl⟩ : del = none ∧ ins = none := by simpa using hne
    rfl

theorem runEnd_joinFrom (h : Pending eq del ins) {bs : List Block}
    (hbs : ∀ b ∈ bs, b.tag ≠ .replace) :
    runEnd n (joinFrom eq del ins bs) = runEnd n (eq.toList ++ bs) := by
  induction bs generalizing eq del ins with
  | nil =>
    rw [joinFrom, runEnd_append, ← List.append_nil (pendingChange del ins),
      h.runEnd_pendingChange, runEnd_append]
  | cons b rest ih =>
    have hrest : ∀ c ∈ rest, c.tag ≠ .replace := fun c hc => hbs c (List.mem_cons_of_mem b hc)
    cases ht : b.tag with
    | equal =>
      simp only [joinFrom, ht]
      rw [h.runEnd_pendingChange, ih (h.add_equal ht) hrest]
      cases he : eq with
      | none => rfl
      | some e =>
        have hte := h.eq_tag e he
        have hta : (e.absorb b).tag = .equal := hte
        exact (runEnd_cons_equal hta).trans (runEnd_cons_equal hte).symm
    | insert =>
      have hne : b.tag ≠ .equal := by simp [ht]
      simp only [joinFrom, ht]
      rw [runEnd_append, ih (h.add_insert ht) hrest, runEnd_append eq.toList (b :: rest),
        runEnd_cons_change hne]
      rfl
    | delete =>
      have hne : b.tag ≠ .equal := by simp [ht]
      simp only [joinFrom, ht]
      rw [runEnd_append, ih (h.add_delete ht) hrest, runEnd_append eq.toList (b :: rest),
        runEnd_cons_change hne]
      rfl
    | replace => exact absurd ht (hbs b List.mem_cons_self)

theorem Pending.bounded_equal (h : Pending eq del ins) {bs : List Block} :
    Bounded n m (eq.toList ++ bs) ↔ Bounded n m bs := by
  cases he : eq with
  | none => rfl
  | some e => exact bounded_cons_equal (h.eq_tag e he)

/-- Joining keeps the blocks bounded; a replacement knows both its positions. -/
theorem joinFrom_bounded (h : Pending eq del ins) {bs : List Block} (hbs : Bounded n m bs)
    (hreplace : ∀ b ∈ bs, b.tag ≠ .replace) (hdel : ∀ b ∈ del, b.StartsBy (runEnd n bs) m)
    (hins : ∀ b ∈ ins, b.StartsBy (runEnd n bs) m) : Bounded n m (joinFrom eq del ins bs) := by
  induction bs generalizing eq del ins with
  | nil => exact h.bounded_equal.mpr (bounded_pendingChange hdel hins)
  | cons b rest ih =>
    have hrest : ∀ c ∈ rest, c.tag ≠ .replace :=
      fun c hc => hreplace c (List.mem_cons_of_mem b hc)
    obtain ⟨hb, hbs⟩ := hbs
    cases ht : b.tag with
    | equal =>
      simp only [joinFrom, ht]
      refine bounded_append.mpr ⟨?_, ih (h.add_equal ht) hbs hrest (by simp) (by simp)⟩
      -- Equal lines are held back only while no change is.
      rcases h.one_kind with rfl | ⟨rfl, rfl⟩
      · rw [runEnd_joinFrom (h.add_equal ht) hrest]
        exact bounded_pendingChange hdel hins
      · trivial
    | insert =>
      have hne : b.tag ≠ .equal := by simp [ht]
      rw [runEnd_cons_change hne] at hdel hins
      simp only [joinFrom, ht]
      exact h.bounded_equal.mpr (ih (h.add_insert ht) hbs hrest hdel
        fun c hc => extend_startsBy hins hb hc)
    | delete =>
      have hne : b.tag ≠ .equal := by simp [ht]
      rw [runEnd_cons_change hne] at hdel hins
      simp only [joinFrom, ht]
      exact h.bounded_equal.mpr (ih (h.add_delete ht) hbs hrest
        (fun c hc => extend_startsBy hdel hb hc) hins)
    | replace => exact absurd ht (hreplace b List.mem_cons_self)

end Joining

/-- In the script of two lists a lone insertion starts by the next equal lines, and a lone deletion
by the end of the new list. -/
theorem script_bounded [DecidableEq α] (old new : List α) :
    Bounded old.length new.length (script old new) := by
  have hx : StandsAt old old 0 := ⟨Nat.zero_le _, List.prefix_refl _⟩
  have hy : StandsAt new new 0 := ⟨Nat.zero_le _, List.prefix_refl _⟩
  have hpath := blocks_leads old new
  have hblocks : Bounded old.length new.length (blocks old new) :=
    splitBlocks_bounded hx hy (by simp) (by simp) _
  have hsettled := compact_reroutes _ _ _ _ _ hpath
  exact joinFrom_bounded pending_none (compact_bounded hpath hblocks) hsettled.tag_ne_replace
    (by simp) (by simp)

end SymbolHistory.Diff
