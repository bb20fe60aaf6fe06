import SymbolHistory.Diff.Script

namespace SymbolHistory.Diff

variable {α : Type} {old new : List α}

def Agree (old new : List α) (i j len : Nat) : Prop :=
  ∀ n, n < len → old[i + n]? = new[j + n]?

theorem agree_iff {i j len : Nat} :
    Agree old new i j len ↔ (old.drop i).take len = (new.drop j).take len := by
  constructor
  · intro h
    apply List.ext_getElem?
    intro n
    by_cases hn : n < len
    · simpa [List.getElem?_take, hn] using h n hn
    · rw [List.getElem?_take, List.getElem?_take, if_neg hn, if_neg hn]
  · intro h n hn
    have hh := congrArg (fun l : List α => l[n]?) h
    simpa [List.getElem?_take, hn] using hh

theorem Agree.cut_end {i j len : Nat} (h : Agree old new i j len) (s : Nat) :
    Agree old new i j (len - s) := by
  intro n hn
  exact h n (by omega)

theorem Agree.cut_start {i j len : Nat} (h : Agree old new i j len) (s : Nat) :
    Agree old new (i + s) (j + s) (len - s) := by
  intro n hn
  have hh := h (s + n) (by omega)
  simpa only [← Nat.add_assoc] using hh

theorem Agree.append {i j s len : Nat} (h : Agree old new i j s)
    (h' : Agree old new (i + s) (j + s) len) : Agree old new i j (s + len) := by
  intro n hn
  by_cases hs : n < s
  · exact h n hs
  · have hh := h' (n - s) (by omega)
    rwa [show i + s + (n - s) = i + n by omega, show j + s + (n - s) = j + n by omega] at hh

section Runs

variable [DecidableEq α]

theorem drop_commonSuffix (xs ys : List α) :
    xs.drop (xs.length - commonSuffix xs ys) = ys.drop (ys.length - commonSuffix xs ys) := by
  have h := take_commonPrefix xs.reverse ys.reverse
  rw [List.take_reverse, List.take_reverse] at h
  exact List.reverse_inj.mp h

theorem agree_commonPrefix (old new : List α) (b c : Block) :
    Agree old new b.oldStart c.newStart (commonPrefix (b.oldOf old) (c.newOf new)) := by
  have hb : commonPrefix (b.oldOf old) (c.newOf new) ≤ b.oldLen :=
    Nat.le_trans (commonPrefix_le_left _ _) (b.length_oldOf_le old)
  have hc : commonPrefix (b.oldOf old) (c.newOf new) ≤ c.newLen := by
    have := commonPrefix_le_right (b.oldOf old) (c.newOf new)
    simp only [Block.newOf, List.length_take] at this ⊢
    omega
  have h := take_commonPrefix (b.oldOf old) (c.newOf new)
  rw [agree_iff]
  generalize commonPrefix (b.oldOf old) (c.newOf new) = p at hb hc h ⊢
  simpa only [Block.oldOf, Block.newOf, List.take_take, Nat.min_eq_left hb,
    Nat.min_eq_left hc] using h

theorem agree_commonSuffix (b c : Block) (hb : b.oldEnd ≤ old.length)
    (hc : c.newEnd ≤ new.length) :
    Agree old new (b.oldEnd - commonSuffix (b.oldOf old) (c.newOf new))
      (c.newEnd - commonSuffix (b.oldOf old) (c.newOf new))
      (commonSuffix (b.oldOf old) (c.newOf new)) := by
  have hlb : (b.oldOf old).length = b.oldLen := by
    simp only [Block.oldOf, Block.oldEnd, List.length_take, List.length_drop] at hb ⊢
    omega
  have hlc : (c.newOf new).length = c.newLen := by
    simp only [Block.newOf, Block.newEnd, List.length_take, List.length_drop] at hc ⊢
    omega
  have hsb := commonSuffix_le_left (b.oldOf old) (c.newOf new)
  have hsc := commonSuffix_le_right (b.oldOf old) (c.newOf new)
  have h := drop_commonSuffix (b.oldOf old) (c.newOf new)
  rw [hlb, hlc] at h
  rw [hlb] at hsb
  rw [hlc] at hsc
  rw [agree_iff]
  generalize commonSuffix (b.oldOf old) (c.newOf new) = s at h hsb hsc ⊢
  simp only [Block.oldOf, Block.newOf, List.drop_take, List.drop_drop] at h
  rw [Block.oldEnd, Block.newEnd, Nat.add_sub_assoc hsb, Nat.add_sub_assoc hsc]
  rwa [Nat.sub_sub_self hsb, Nat.sub_sub_self hsc] at h

end Runs

/-- Whether a block can stand at the positions `i` and `j`. A deletion need not know where it
stands in the new list, nor an insertion where it stands in the old one, because blocks that pass
each other keep their starts. Replacements are made of two blocks and do not stand for
themselves. -/
def Block.Fits (old new : List α) (b : Block) (i j : Nat) : Prop :=
  match b.tag with
  | .equal =>
    b.oldStart = i ∧ b.newStart = j ∧ b.newLen = b.oldLen ∧ 0 < b.oldLen ∧
      i + b.oldLen ≤ old.length ∧ j + b.newLen ≤ new.length ∧ Agree old new i j b.oldLen
  | .delete => b.oldStart = i ∧ b.newLen = 0 ∧ i + b.oldLen ≤ old.length
  | .insert => b.newStart = j ∧ b.oldLen = 0 ∧ j + b.newLen ≤ new.length
  | .replace => False

theorem Block.fits_equal {b : Block} {i j : Nat} (h : b.tag = .equal) :
    b.Fits old new i j ↔
      b.oldStart = i ∧ b.newStart = j ∧ b.newLen = b.oldLen ∧ 0 < b.oldLen ∧
        i + b.oldLen ≤ old.length ∧ j + b.newLen ≤ new.length ∧ Agree old new i j b.oldLen := by
  simp only [Fits, h]

theorem Block.fits_delete {b : Block} {i j : Nat} (h : b.tag = .delete) :
    b.Fits old new i j ↔ b.oldStart = i ∧ b.newLen = 0 ∧ i + b.oldLen ≤ old.length := by
  simp only [Fits, h]

theorem Block.fits_insert {b : Block} {i j : Nat} (h : b.tag = .insert) :
    b.Fits old new i j ↔ b.newStart = j ∧ b.oldLen = 0 ∧ j + b.newLen ≤ new.length := by
  simp only [Fits, h]

theorem Block.Fits.tag_of_ne {b : Block} {i j : Nat} (h : b.Fits old new i j)
    (hb : b.tag ≠ .equal) : b.tag = .delete ∨ b.tag = .insert := by
  cases ht : b.tag with
  | equal => exact absurd ht hb
  | delete => exact Or.inl rfl
  | insert => exact Or.inr rfl
  | replace => simp only [Fits, ht] at h

/-- The blocks stand one after another from `i` and `j` to `i'` and `j'`. -/
def Leads (old new : List α) (i j : Nat) : List Block → Nat → Nat → Prop
  | [], i', j' => i = i' ∧ j = j'
  | b :: bs, i', j' =>
    b.Fits old new i j ∧ Leads old new (i + b.oldLen) (j + b.newLen) bs i' j'

@[simp] theorem leads_nil {i j i' j' : Nat} :
    Leads old new i j [] i' j' ↔ i = i' ∧ j = j' := Iff.rfl

@[simp] theorem leads_cons {i j i' j' : Nat} {b : Block} {bs : List Block} :
    Leads old new i j (b :: bs) i' j' ↔
      b.Fits old new i j ∧ Leads old new (i + b.oldLen) (j + b.newLen) bs i' j' := Iff.rfl

theorem leads_append {i j i' j' : Nat} {as bs : List Block} :
    Leads old new i j (as ++ bs) i' j' ↔
      ∃ k l, Leads old new i j as k l ∧ Leads old new k l bs i' j' := by
  induction as generalizing i j with
  | nil =>
    constructor
    · intro h
      exact ⟨i, j, ⟨rfl, rfl⟩, h⟩
    · rintro ⟨k, l, ⟨rfl, rfl⟩, h⟩
      exact h
  | cons a as ih =>
    simp only [List.cons_append, leads_cons, ih]
    constructor
    · rintro ⟨ha, k, l, has, hbs⟩
      exact ⟨k, l, ⟨ha, has⟩, hbs⟩
    · rintro ⟨k, l, ⟨ha, has⟩, hbs⟩
      exact ⟨ha, k, l, has, hbs⟩

/-- Wherever the first blocks lead, the second ones lead too. -/
def Reroutes (old new : List α) (as bs : List Block) : Prop :=
  ∀ i j i' j', Leads old new i j as i' j' → Leads old new i j bs i' j'

namespace Reroutes

variable {as bs cs : List Block}

theorem refl (as : List Block) : Reroutes old new as as := fun _ _ _ _ h => h

theorem trans (h : Reroutes old new as bs) (h' : Reroutes old new bs cs) :
    Reroutes old new as cs := fun i j i' j' hl => h' i j i' j' (h i j i' j' hl)

theorem append_left (h : Reroutes old new as bs) (ds : List Block) :
    Reroutes old new (ds ++ as) (ds ++ bs) := by
  intro i j i' j' hl
  obtain ⟨k, l, hd, ha⟩ := leads_append.mp hl
  exact leads_append.mpr ⟨k, l, hd, h k l i' j' ha⟩

theorem append_right (h : Reroutes old new as bs) (ds : List Block) :
    Reroutes old new (as ++ ds) (bs ++ ds) := by
  intro i j i' j' hl
  obtain ⟨k, l, ha, hd⟩ := leads_append.mp hl
  exact leads_append.mpr ⟨k, l, h i j k l ha, hd⟩

/-- An exchange in the middle of a path. -/
theorem within (h : Reroutes old new as bs) (before after : List Block) :
    Reroutes old new (before ++ as ++ after) (before ++ bs ++ after) :=
  (h.append_left before).append_right after

end Reroutes

/-- A deletion and an insertion change places and stay as they are. -/
theorem reroutes_pass {b c : Block} (hb : b.tag ≠ .equal) (hc : c.tag ≠ .equal)
    (hne : b.tag ≠ c.tag) : Reroutes old new [b, c] [c, b] := by
  rintro i j i' j' ⟨hfb, hfc, hi, hj⟩
  rcases hfb.tag_of_ne hb with tb | tb <;> rcases hfc.tag_of_ne hc with tc | tc
  · exact absurd (tb.trans tc.symm) hne
  · rw [Block.fits_delete tb] at hfb
    rw [Block.fits_insert tc] at hfc
    refine ⟨(Block.fits_insert tc).mpr ?_, (Block.fits_delete tb).mpr ?_, ?_, ?_⟩ <;> omega
  · rw [Block.fits_insert tb] at hfb
    rw [Block.fits_delete tc] at hfc
    refine ⟨(Block.fits_delete tc).mpr ?_, (Block.fits_insert tb).mpr ?_, ?_, ?_⟩ <;> omega
  · exact absurd (tb.trans tc.symm) hne

/-- Two deletions, two insertions or two equal blocks in a row are one. -/
theorem reroutes_absorb {b c : Block} (hbc : b.tag = c.tag) :
    Reroutes old new [b, c] [b.absorb c] := by
  rintro i j i' j' ⟨hfb, hfc, hi, hj⟩
  have hl : (b.absorb c).oldLen = b.oldLen + c.oldLen ∧
      (b.absorb c).newLen = b.newLen + c.newLen := ⟨rfl, rfl⟩
  have hs : (b.absorb c).oldStart = b.oldStart ∧ (b.absorb c).newStart = b.newStart :=
    ⟨rfl, rfl⟩
  by_cases tb : b.tag = .equal
  · have ta : (b.absorb c).tag = .equal := tb
    rw [Block.fits_equal tb] at hfb
    rw [Block.fits_equal (hbc ▸ tb)] at hfc
    obtain ⟨hob, hnb, hlen, hpos, hio, hjn, hab⟩ := hfb
    obtain ⟨hoc, hnc, hlen', hpos', hio', hjn', hac⟩ := hfc
    rw [hlen] at hac
    refine ⟨(Block.fits_equal ta).mpr ⟨?_, ?_, ?_, ?_, ?_, ?_, hab.append hac⟩, ?_, ?_⟩ <;> omega
  · rcases hfb.tag_of_ne tb with tb | tb
    · have ta : (b.absorb c).tag = .delete := tb
      rw [Block.fits_delete tb] at hfb
      rw [Block.fits_delete (hbc ▸ tb)] at hfc
      refine ⟨(Block.fits_delete ta).mpr ?_, ?_, ?_⟩ <;> omega
    · have ta : (b.absorb c).tag = .insert := tb
      rw [Block.fits_insert tb] at hfb
      rw [Block.fits_insert (hbc ▸ tb)] at hfc
      refine ⟨(Block.fits_insert ta).mpr ?_, ?_, ?_⟩ <;> omega

end SymbolHistory.Diff
