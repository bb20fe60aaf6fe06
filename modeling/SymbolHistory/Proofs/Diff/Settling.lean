import SymbolHistory.Proofs.Diff.EditPath

namespace SymbolHistory.Diff

variable {α : Type} {old new : List α}

/-- A list with the block, or nothing for an empty block. -/
def Block.unlessEmpty (b : Block) : List Block := if b.isEmpty then [] else [b]

theorem Block.leads_unlessEmpty {b : Block} {i j : Nat} (ht : b.tag = .equal)
    (hi : b.oldStart = i) (hj : b.newStart = j) (hl : b.newLen = b.oldLen)
    (hio : i + b.oldLen ≤ old.length) (hjn : j + b.newLen ≤ new.length)
    (ha : Agree old new i j b.oldLen) :
    Leads old new i j b.unlessEmpty (i + b.oldLen) (j + b.newLen) := by
  unfold unlessEmpty
  split
  · next he =>
    simp only [isEmpty, Bool.and_eq_true, beq_iff_eq] at he
    exact ⟨by omega, by omega⟩
  · next he =>
    simp only [isEmpty, Bool.and_eq_true, beq_iff_eq, not_and] at he
    have hpos : 0 < b.oldLen := Nat.pos_of_ne_zero fun h0 => he h0 (by omega)
    exact ⟨(fits_equal ht).mpr ⟨hi, hj, hl, hpos, hio, hjn, ha⟩, rfl, rfl⟩

theorem Block.newOf_eq_nil {b : Block} (h : b.newLen = 0) : b.newOf new = [] := by
  simp [newOf, h]

theorem Block.length_newOf_le (b : Block) : (b.newOf new).length ≤ b.newLen := by
  simp only [newOf, List.length_take]
  omega

theorem reroutes_leaveBelow (old new : List α) (prev moving : Block) (s : Nat)
    (after : List Block) :
    Reroutes old new (.equal (prev.oldEnd - s) (moving.newEnd - s) s :: after)
      (leaveBelow prev moving s after) := by
  cases after with
  | nil => exact Reroutes.refl _
  | cons next after =>
    simp only [leaveBelow]
    split
    · next hn =>
      suffices h : Reroutes old new [.equal (prev.oldEnd - s) (moving.newEnd - s) s, next]
          [next.growStart s] from h.append_right after
      rintro i j i' j' ⟨hfe, hfn, hi, hj⟩
      obtain ⟨heo, hen, -, hep, -, -, hea⟩ := (Block.fits_equal rfl).mp hfe
      obtain ⟨hno, hnn, hnl, hnp, hnio, hnjn, hna⟩ := (Block.fits_equal hn).mp hfn
      simp only [Block.equal] at hep hea hno hnn hnio hnjn hna hi hj
      have hag := hea.append hna
      rw [Nat.add_comm s] at hag
      have hg : (next.growStart s).tag = .equal := hn
      refine ⟨(Block.fits_equal hg).mpr ⟨?_, ?_, ?_, ?_, ?_, ?_, hag⟩, ?_, ?_⟩
      all_goals simp only [Block.growStart]
      all_goals omega
    · exact Reroutes.refl _

theorem reroutes_drop_empty {b : Block} (hb : b.tag = .equal) (he : b.isEmpty = true) :
    Reroutes old new [b] [] := by
  rintro i j i' j' ⟨hf, -, -⟩
  have hpos := ((Block.fits_equal hb).mp hf).2.2.2.1
  simp only [Block.isEmpty, Bool.and_eq_true, beq_iff_eq] at he
  omega

theorem reroutes_leaveAbove (old new : List α) (next moving : Block) (p : Nat)
    (before : List Block) :
    Reroutes old new (before.reverse ++ [.equal next.oldStart moving.newStart p])
      (leaveAbove next moving p before).reverse := by
  cases before with
  | nil => exact Reroutes.refl _
  | cons prev before =>
    simp only [leaveAbove]
    split
    · next hp =>
      have h : Reroutes old new [prev, .equal next.oldStart moving.newStart p]
          [prev.growEnd p] := reroutes_absorb hp
      simpa using h.append_left before.reverse
    · simpa using Reroutes.refl _

variable [DecidableEq α]

theorem commonPrefix_nil_right (xs : List α) : commonPrefix xs [] = 0 := by
  cases xs <;> rfl

theorem commonSuffix_nil_right (xs : List α) : commonSuffix xs [] = 0 :=
  commonPrefix_nil_right xs.reverse

/-- An insertion slides up over the lines that end both it and the equal block before it. -/
theorem reroutes_slide_up {prev moving : Block} {s : Nat} (hp : prev.tag = .equal)
    (hm : moving.tag ≠ .equal) (hs : commonSuffix (prev.oldOf old) (moving.newOf new) = s)
    (hpos : s ≠ 0) :
    Reroutes old new [prev, moving] ((prev.cutEnd s).unlessEmpty ++
      [moving.moveUp s, .equal (prev.oldEnd - s) (moving.newEnd - s) s]) := by
  rintro i j i' j' ⟨hfp, hfm, hi, hj⟩
  rcases hfm.tag_of_ne hm with tm | tm
  · -- A deletion has no new lines that could end like the block before it.
    rw [Block.newOf_eq_nil ((Block.fits_delete tm).mp hfm).2.1, commonSuffix_nil_right] at hs
    exact absurd hs.symm hpos
  · obtain ⟨hpo, hpn, hpl, hpp, hpio, hpjn, hpa⟩ := (Block.fits_equal hp).mp hfp
    obtain ⟨hmn, hml, hmb⟩ := (Block.fits_insert tm).mp hfm
    have hsp : s ≤ prev.oldLen :=
      hs ▸ Nat.le_trans (commonSuffix_le_left _ _) (prev.length_oldOf_le old)
    have hsm : s ≤ moving.newLen :=
      hs ▸ Nat.le_trans (commonSuffix_le_right _ _) moving.length_newOf_le
    have hbo : prev.oldEnd ≤ old.length := by unfold Block.oldEnd; omega
    have hbn : moving.newEnd ≤ new.length := by unfold Block.newEnd; omega
    have hag := agree_commonSuffix prev moving hbo hbn
    rw [hs] at hag
    have hcut : Leads old new i j (prev.cutEnd s).unlessEmpty
        (i + (prev.oldLen - s)) (j + (prev.newLen - s)) :=
      Block.leads_unlessEmpty hp hpo hpn (by simp only [Block.cutEnd]; omega)
        (by simp only [Block.cutEnd]; omega) (by simp only [Block.cutEnd]; omega)
        (hpa.cut_end s)
    have hold : prev.oldEnd - s = i + (prev.oldLen - s) + moving.oldLen := by
      unfold Block.oldEnd
      omega
    have hnew : moving.newEnd - s = j + (prev.newLen - s) + moving.newLen := by
      unfold Block.newEnd
      omega
    rw [hold, hnew] at hag
    refine leads_append.mpr ⟨_, _, hcut, (Block.fits_insert ?_).mpr ?_,
      (Block.fits_equal rfl).mpr ⟨hold, hnew, rfl, ?_, ?_, ?_, hag⟩, ?_, ?_⟩
    · exact tm
    all_goals simp only [Block.moveUp, Block.equal]
    all_goals omega

theorem reroutes_slide_down {moving next : Block} {p : Nat} (hn : next.tag = .equal)
    (hm : moving.tag ≠ .equal) (hp : commonPrefix (next.oldOf old) (moving.newOf new) = p)
    (hpos : p ≠ 0) :
    Reroutes old new [moving, next] ([.equal next.oldStart moving.newStart p, moving.moveDown p] ++
      (next.cutStart p).unlessEmpty) := by
  rintro i j i' j' ⟨hfm, hfn, hi, hj⟩
  rcases hfm.tag_of_ne hm with tm | tm
  · rw [Block.newOf_eq_nil ((Block.fits_delete tm).mp hfm).2.1, commonPrefix_nil_right] at hp
    exact absurd hp.symm hpos
  · obtain ⟨hmn, hml, hmb⟩ := (Block.fits_insert tm).mp hfm
    obtain ⟨hno, hnn, hnl, hnp, hnio, hnjn, hna⟩ := (Block.fits_equal hn).mp hfn
    have hpn : p ≤ next.oldLen :=
      hp ▸ Nat.le_trans (commonPrefix_le_left _ _) (next.length_oldOf_le old)
    have hpm : p ≤ moving.newLen :=
      hp ▸ Nat.le_trans (commonPrefix_le_right _ _) moving.length_newOf_le
    have hag := agree_commonPrefix old new next moving
    rw [hp] at hag
    have hio : next.oldStart = i := by omega
    rw [hio, hmn] at hag
    have hcut : Leads old new (i + moving.oldLen + p) (j + moving.newLen + p)
        (next.cutStart p).unlessEmpty i' j' := by
      have h : Leads old new (i + moving.oldLen + p) (j + moving.newLen + p)
          (next.cutStart p).unlessEmpty _ _ := Block.leads_unlessEmpty hn
        (by simp only [Block.cutStart]; omega) (by simp only [Block.cutStart]; omega)
        (by simp only [Block.cutStart]; omega) (by simp only [Block.cutStart]; omega)
        (by simp only [Block.cutStart]; omega) (hna.cut_start p)
      simp only [Block.cutStart] at h
      rwa [show i + moving.oldLen + p + (next.oldLen - p) = i' by omega,
        show j + moving.newLen + p + (next.newLen - p) = j' by omega] at h
    have hmove : (moving.moveDown p).tag = .insert := tm
    refine leads_append.mpr ⟨_, _, ⟨(Block.fits_equal rfl).mpr ⟨hio, hmn, rfl, ?_, ?_, ?_, hag⟩,
      (Block.fits_insert hmove).mpr ?_, rfl, rfl⟩, ?_⟩
    all_goals simp only [Block.moveDown, Block.equal]
    · omega
    · omega
    · omega
    · omega
    · rwa [show i + p + moving.oldLen = i + moving.oldLen + p by omega,
        show j + p + moving.newLen = j + moving.newLen + p by omega]

/-- One slide up, with the lines left behind joined to what follows. -/
theorem reroutes_slide_up_leaving {prev moving : Block} {s : Nat} (hp : prev.tag = .equal)
    (hm : moving.tag ≠ .equal) (hs : commonSuffix (prev.oldOf old) (moving.newOf new) = s)
    (hpos : s ≠ 0) (before after : List Block) :
    Reroutes old new ((prev :: before).reverse ++ moving :: after)
      (((prev.cutEnd s).unlessEmpty ++ before).reverse ++
        moving.moveUp s :: leaveBelow prev moving s after) := by
  have h₁ := (reroutes_slide_up hp hm hs hpos).within before.reverse after
  have h₂ := (reroutes_leaveBelow old new prev moving s after).append_left
    (before.reverse ++ (prev.cutEnd s).unlessEmpty ++ [moving.moveUp s])
  have hrev : (prev.cutEnd s).unlessEmpty.reverse = (prev.cutEnd s).unlessEmpty := by
    unfold Block.unlessEmpty
    split <;> rfl
  simp only [List.reverse_cons, List.reverse_append, hrev, List.append_assoc, List.cons_append,
    List.nil_append] at h₁ h₂ ⊢
  exact h₁.trans h₂

/-- Moving up keeps the path and the kind of the block. -/
theorem moveUpThrough_reroutes {before after before' after' : List Block} {moving moving' : Block}
    (hm : moving.tag ≠ .equal)
    (h : moveUpThrough old new before moving after = (before', moving', after')) :
    moving'.tag = moving.tag ∧ Reroutes old new (before.reverse ++ moving :: after)
      (before'.reverse ++ moving' :: after') := by
  fun_induction moveUpThrough old new before moving after with
  | case1 moving after =>
    cases h
    exact ⟨rfl, Reroutes.refl _⟩
  | case2 moving after prev rest hp s _ _ he ih =>
    obtain ⟨ht, hr⟩ := ih hm h
    refine ⟨ht, Reroutes.trans ?_ hr⟩
    simpa using (reroutes_drop_empty hp he).within rest.reverse (moving :: after)
  | case3 moving after prev rest hp s _ _ he =>
    cases h
    exact ⟨rfl, Reroutes.refl _⟩
  | case4 moving after prev rest hp s _ hs below he ih =>
    obtain ⟨ht, hr⟩ := ih hm h
    have hslide := reroutes_slide_up_leaving hp hm rfl hs rest after
    rw [Block.unlessEmpty, if_pos he] at hslide
    exact ⟨ht, hslide.trans hr⟩
  | case5 moving after prev rest hp s _ hs below he ih =>
    obtain ⟨ht, hr⟩ := ih hm h
    have hslide := reroutes_slide_up_leaving hp hm rfl hs rest after
    rw [Block.unlessEmpty, if_neg he] at hslide
    exact ⟨ht, hslide.trans hr⟩
  | case6 moving after prev rest hp heq ih =>
    obtain ⟨ht, hr⟩ := ih hp h
    refine ⟨ht.trans heq, Reroutes.trans ?_ hr⟩
    simpa using (reroutes_absorb heq).within rest.reverse after
  | case7 moving after prev rest hp hne ih =>
    obtain ⟨ht, hr⟩ := ih hm h
    refine ⟨ht, Reroutes.trans ?_ hr⟩
    simpa using (reroutes_pass hp hm hne).within rest.reverse after

theorem reroutes_slide_down_leaving {moving next : Block} {p : Nat} (hn : next.tag = .equal)
    (hm : moving.tag ≠ .equal) (hp : commonPrefix (next.oldOf old) (moving.newOf new) = p)
    (hpos : p ≠ 0) (before after : List Block) :
    Reroutes old new (before.reverse ++ moving :: next :: after)
      ((leaveAbove next moving p before).reverse ++
        moving.moveDown p :: ((next.cutStart p).unlessEmpty ++ after)) := by
  have h₁ := (reroutes_slide_down hn hm hp hpos).within before.reverse after
  have h₂ := (reroutes_leaveAbove old new next moving p before).append_right
    (moving.moveDown p :: ((next.cutStart p).unlessEmpty ++ after))
  simp only [List.append_assoc, List.cons_append, List.nil_append] at h₁ h₂ ⊢
  exact h₁.trans h₂

theorem moveDownThrough_reroutes {before after before' after' : List Block}
    {moving moving' : Block} (hm : moving.tag ≠ .equal)
    (h : moveDownThrough old new before moving after = (before', moving', after')) :
    moving'.tag = moving.tag ∧ Reroutes old new (before.reverse ++ moving :: after)
      (before'.reverse ++ moving' :: after') := by
  fun_induction moveDownThrough old new before moving after with
  | case1 before moving =>
    cases h
    exact ⟨rfl, Reroutes.refl _⟩
  | case2 before moving next rest hn p _ _ he ih =>
    obtain ⟨ht, hr⟩ := ih hm h
    refine ⟨ht, Reroutes.trans ?_ hr⟩
    simpa using (reroutes_drop_empty hn he).within (before.reverse ++ [moving]) rest
  | case3 before moving next rest hn p _ _ he =>
    cases h
    exact ⟨rfl, Reroutes.refl _⟩
  | case4 before moving next rest hn p _ hp above he ih =>
    obtain ⟨ht, hr⟩ := ih hm h
    have hslide := reroutes_slide_down_leaving hn hm rfl hp before rest
    rw [Block.unlessEmpty, if_pos he] at hslide
    exact ⟨ht, hslide.trans hr⟩
  | case5 before moving next rest hn p _ hp above he ih =>
    obtain ⟨ht, hr⟩ := ih hm h
    have hslide := reroutes_slide_down_leaving hn hm rfl hp before rest
    rw [Block.unlessEmpty, if_neg he] at hslide
    exact ⟨ht, hslide.trans hr⟩
  | case6 before moving next rest hn heq ih =>
    obtain ⟨ht, hr⟩ := ih hm h
    refine ⟨ht, Reroutes.trans ?_ hr⟩
    simpa using (reroutes_absorb heq.symm).within before.reverse rest
  | case7 before moving next rest hn hne ih =>
    obtain ⟨ht, hr⟩ := ih hm h
    refine ⟨ht, Reroutes.trans ?_ hr⟩
    simpa using (reroutes_pass hm hn (Ne.symm hne)).within before.reverse rest

/-- Settling blocks of one kind keeps the path, however many rounds it is given. -/
theorem settle_reroutes {tag : BlockTag} (ht : tag ≠ .equal) (before after : List Block)
    (fuel : Nat) :
    Reroutes old new (before.reverse ++ after) (settle tag old new before after fuel) := by
  induction fuel generalizing before after with
  | zero => exact Reroutes.refl _
  | succ fuel ih =>
    cases after with
    | nil => simpa [settle] using Reroutes.refl _
    | cons b rest =>
      simp only [settle]
      split
      · next hb =>
        rcases hup : moveUpThrough old new before b rest with ⟨before₁, b₁, after₁⟩
        rcases hdown : moveDownThrough old new before₁ b₁ after₁ with ⟨before₂, b₂, after₂⟩
        obtain ⟨ht₁, hr₁⟩ := moveUpThrough_reroutes (hb ▸ ht) hup
        obtain ⟨-, hr₂⟩ := moveDownThrough_reroutes (ht₁ ▸ hb ▸ ht) hdown
        have hr₃ := ih (b₂ :: before₂) after₂
        simp only [List.reverse_cons, List.append_assoc, List.cons_append,
          List.nil_append] at hr₃
        simpa only [hdown] using (hr₁.trans hr₂).trans hr₃
      · have hr := ih (b :: before) rest
        simpa only [List.reverse_cons, List.append_assoc, List.cons_append,
          List.nil_append] using hr

theorem compact_reroutes (bs : List Block) : Reroutes old new bs (compact old new bs) :=
  (settle_reroutes (show BlockTag.delete ≠ .equal by decide) [] bs _).trans
    (settle_reroutes (show BlockTag.insert ≠ .equal by decide) [] _ _)

end SymbolHistory.Diff
