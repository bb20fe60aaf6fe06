import Mathlib.Data.List.Chain
import SymbolHistory.Proofs.Diff.MeetingPoint
import SymbolHistory.Proofs.Diff.Settling

namespace SymbolHistory.Diff

variable {α : Type} {old new : List α}

def StandsAt (xs whole : List α) (i : Nat) : Prop := i ≤ whole.length ∧ xs <+: whole.drop i

namespace StandsAt

variable {xs whole : List α} {i : Nat}

theorem length_le (h : StandsAt xs whole i) : i + xs.length ≤ whole.length := by
  have h₁ := h.2.length_le
  have h₂ := h.1
  rw [List.length_drop] at h₁
  omega

theorem take (h : StandsAt xs whole i) (n : Nat) : StandsAt (xs.take n) whole i :=
  ⟨h.1, (List.take_prefix n xs).trans h.2⟩

theorem drop (h : StandsAt xs whole i) {n : Nat} (hn : n ≤ xs.length) :
    StandsAt (xs.drop n) whole (i + n) := by
  have hl := h.length_le
  refine ⟨by omega, ?_⟩
  obtain ⟨rest, hrest⟩ := h.2
  refine ⟨rest, ?_⟩
  rw [← List.drop_drop, ← hrest, List.drop_append_of_le_length hn]

theorem getElem? (h : StandsAt xs whole i) {n : Nat} (hn : n < xs.length) :
    whole[i + n]? = xs[n]? := by
  obtain ⟨rest, hrest⟩ := h.2
  rw [← List.getElem?_drop, ← hrest, List.getElem?_append_left hn]

end StandsAt

theorem StandsAt.agree {zs : List α} {i j : Nat} (ho : StandsAt zs old i)
    (hn : StandsAt zs new j) : Agree old new i j zs.length := by
  intro n hlt
  rw [ho.getElem? hlt, hn.getElem? hlt]

theorem leads_equal {i j len : Nat} (hi : i + len ≤ old.length) (hj : j + len ≤ new.length)
    (ha : Agree old new i j len) :
    Leads old new i j (if len = 0 then [] else [.equal i j len]) (i + len) (j + len) := by
  split
  · next h0 =>
    subst h0
    exact ⟨rfl, rfl⟩
  · next h0 =>
    exact ⟨(Block.fits_equal rfl).mpr
      ⟨rfl, rfl, rfl, Nat.pos_of_ne_zero h0, hi, hj, ha⟩, rfl, rfl⟩

theorem leads_delete {i j len : Nat} (hi : i + len ≤ old.length) :
    Leads old new i j [.delete i len j] (i + len) j :=
  ⟨(Block.fits_delete rfl).mpr ⟨rfl, rfl, hi⟩, rfl, rfl⟩

theorem leads_insert {i j k len : Nat} (hj : j + len ≤ new.length) :
    Leads old new i j [.insert k j len] i (j + len) :=
  ⟨(Block.fits_insert rfl).mpr ⟨rfl, rfl, hj⟩, rfl, rfl⟩

theorem leads_exchange {i j a b : Nat} (hi : i + a ≤ old.length) (hj : j + b ≤ new.length) :
    Leads old new i j [.delete i a j, .insert i j b] (i + a) (j + b) :=
  leads_append.mpr ⟨i + a, j, leads_delete hi, leads_insert hj⟩

/-- The plain blocks that a block stands for: a replacement is a deletion and an insertion. -/
def Block.parts (b : Block) : List Block :=
  match b.tag with
  | .replace => [.delete b.oldStart b.oldLen b.newStart, .insert b.oldEnd b.newStart b.newLen]
  | _ => [b]

theorem Block.parts_of_ne {b : Block} (h : b.tag ≠ .replace) : b.parts = [b] := by
  cases ht : b.tag with
  | equal => simp only [parts, ht]
  | delete => simp only [parts, ht]
  | insert => simp only [parts, ht]
  | replace => exact absurd ht h

/-- What joining holds back: an equal block, or a deletion and an insertion. -/
structure Pending (eq del ins : Option Block) : Prop where
  eq_tag : ∀ b ∈ eq, b.tag = .equal
  del_tag : ∀ b ∈ del, b.tag = .delete
  ins_tag : ∀ b ∈ ins, b.tag = .insert
  one_kind : eq = none ∨ del = none ∧ ins = none

theorem extend_tag {pending : Option Block} {b c : Block} {tag : BlockTag}
    (hp : ∀ a ∈ pending, a.tag = tag) (hb : b.tag = tag) (hc : c ∈ extend pending b) :
    c.tag = tag := by
  cases pending with
  | none =>
    cases hc
    exact hb
  | some a =>
    cases hc
    exact hp a rfl

theorem extend_reroutes (old new : List α) {pending : Option Block} {b : Block} {tag : BlockTag}
    (hp : ∀ a ∈ pending, a.tag = tag) (hb : b.tag = tag) :
    Reroutes old new (pending.toList ++ [b]) (extend pending b).toList := by
  cases pending with
  | none => exact Reroutes.refl _
  | some a => exact reroutes_absorb ((hp a rfl).trans hb.symm)

theorem pendingChange_reroutes (old new : List α) {eq del ins : Option Block}
    (h : Pending eq del ins) :
    Reroutes old new (del.toList ++ ins.toList) ((pendingChange del ins).flatMap Block.parts) := by
  cases hd : del with
  | none =>
    cases hi : ins with
    | none => exact Reroutes.refl _
    | some c =>
      have hc := h.ins_tag c hi
      simpa [pendingChange, Block.parts_of_ne, hc] using Reroutes.refl _
  | some b =>
    have hb := h.del_tag b hd
    cases hi : ins with
    | none => simpa [pendingChange, Block.parts_of_ne, hb] using Reroutes.refl _
    | some c =>
      have hc := h.ins_tag c hi
      rintro i j i' j' ⟨hfb, hfc, hi', hj'⟩
      obtain ⟨hbo, hbl, hbb⟩ := (Block.fits_delete hb).mp hfb
      obtain ⟨hcn, hcl, hcb⟩ := (Block.fits_insert hc).mp hfc
      refine ⟨(Block.fits_delete rfl).mpr ⟨hbo, rfl, hbb⟩,
        (Block.fits_insert rfl).mpr ⟨?_, rfl, ?_⟩, ?_, ?_⟩
      all_goals simp only [Block.delete, Block.insert, Block.replace]
      all_goals omega

namespace Pending

variable {eq del ins : Option Block} {b : Block}

theorem add_equal (h : Pending eq del ins) (hb : b.tag = .equal) :
    Pending (extend eq b) none none :=
  ⟨fun _ hc => extend_tag h.eq_tag hb hc, by simp, by simp, Or.inr ⟨rfl, rfl⟩⟩

theorem add_insert (h : Pending eq del ins) (hb : b.tag = .insert) :
    Pending none del (extend ins b) :=
  ⟨by simp, h.del_tag, fun _ hc => extend_tag h.ins_tag hb hc, Or.inl rfl⟩

theorem add_delete (h : Pending eq del ins) (hb : b.tag = .delete) :
    Pending none (extend del b) ins :=
  ⟨by simp, fun _ hc => extend_tag h.del_tag hb hc, h.ins_tag, Or.inl rfl⟩

theorem parts_eq (h : Pending eq del ins) : eq.toList.flatMap Block.parts = eq.toList := by
  cases he : eq with
  | none => rfl
  | some e => simp [Block.parts_of_ne, h.eq_tag e he]

theorem pass_insert (h : Pending eq del ins) (hb : b.tag = .delete) (old new : List α) :
    Reroutes old new (ins.toList ++ [b]) ([b] ++ ins.toList) := by
  cases hi : ins with
  | none => exact Reroutes.refl _
  | some c =>
    have hc := h.ins_tag c hi
    exact reroutes_pass (by simp [hc]) (by simp [hb]) (by simp [hb, hc])

end Pending

/-- Joining keeps the path. -/
theorem joinFrom_reroutes {eq del ins : Option Block} (h : Pending eq del ins)
    (bs : List Block) :
    Reroutes old new (eq.toList ++ del.toList ++ ins.toList ++ bs)
      ((joinFrom eq del ins bs).flatMap Block.parts) := by
  induction bs generalizing eq del ins with
  | nil =>
    have hr := (pendingChange_reroutes old new h).append_left eq.toList
    simpa only [joinFrom, List.flatMap_append, h.parts_eq, List.append_nil,
      List.append_assoc] using hr
  | cons b rest ih =>
    cases ht : b.tag with
    | equal =>
      simp only [joinFrom, ht, List.flatMap_append]
      have hr := ih (h.add_equal ht)
      simp only [Option.toList_none, List.append_nil] at hr
      rcases h.one_kind with rfl | ⟨rfl, rfl⟩
      · have hp := (pendingChange_reroutes old new h).append_right (b :: rest)
        simpa using hp.trans (hr.append_left _)
      · have he := (extend_reroutes old new h.eq_tag ht).append_right rest
        simpa [pendingChange] using he.trans hr
    | insert =>
      simp only [joinFrom, ht, List.flatMap_append, h.parts_eq]
      have hr := (ih (h.add_insert ht)).append_left eq.toList
      have he := (extend_reroutes old new h.ins_tag ht).within
        (eq.toList ++ del.toList) rest
      simp only [Option.toList_none, List.nil_append, List.append_assoc,
        List.cons_append] at hr he ⊢
      exact he.trans hr
    | delete =>
      -- A deletion passes the insertions held back and joins the deletions before them.
      simp only [joinFrom, ht, List.flatMap_append, h.parts_eq]
      have hr := (ih (h.add_delete ht)).append_left eq.toList
      have hp := (h.pass_insert ht old new).within
        (eq.toList ++ del.toList) rest
      have he := (extend_reroutes old new h.del_tag ht).within
        eq.toList (ins.toList ++ rest)
      simp only [Option.toList_none, List.nil_append, List.append_assoc,
        List.cons_append] at hr hp he ⊢
      exact (hp.trans he).trans hr
    | replace =>
      intro i j i' j' hl
      obtain ⟨k, l, -, hf, -⟩ := leads_append.mp hl
      simp only [Block.Fits, ht] at hf

theorem pending_none : Pending none none none :=
  ⟨by simp, by simp, by simp, Or.inl rfl⟩

/-- Of two neighbours one is equal and one is a change. -/
def Spaced (bs : List Block) : Prop :=
  bs.IsChain fun b c => b.tag = .equal ↔ c.tag ≠ .equal

theorem pendingChange_cases {eq del ins : Option Block} (h : Pending eq del ins)
    (hne : del ≠ none ∨ ins ≠ none) :
    ∃ b, pendingChange del ins = [b] ∧ b.tag ≠ .equal := by
  cases hd : del with
  | none =>
    cases hi : ins with
    | none => simp [hd, hi] at hne
    | some c => exact ⟨c, rfl, by simp [h.ins_tag c hi]⟩
  | some b =>
    cases hi : ins with
    | none => exact ⟨b, rfl, by simp [h.del_tag b hd]⟩
    | some c => exact ⟨_, rfl, by simp [Block.replace]⟩

theorem extend_ne_none (pending : Option Block) (b : Block) : extend pending b ≠ none := by
  cases pending <;> simp [extend]

theorem Spaced.cons {b : Block} {bs : List Block} (hbs : Spaced bs)
    (h : ∀ c ∈ bs.head?, b.tag = .equal ↔ c.tag ≠ .equal) : Spaced (b :: bs) :=
  List.isChain_cons.mpr ⟨h, hbs⟩

/-- Before joined blocks that begin with a change may stand the equal block that was held back. -/
theorem Pending.spaced_equal {eq del ins : Option Block} (h : Pending eq del ins)
    {bs : List Block} (hbs : Spaced bs) (hhead : ∀ b ∈ bs.head?, b.tag ≠ .equal) :
    Spaced (eq.toList ++ bs) ∧ (eq ≠ none → ∀ b ∈ (eq.toList ++ bs).head?, b.tag = .equal) ∧
      (del ≠ none ∨ ins ≠ none → ∀ b ∈ (eq.toList ++ bs).head?, b.tag ≠ .equal) := by
  cases he : eq with
  | none => exact ⟨hbs, fun hne => absurd rfl hne, fun _ => hhead⟩
  | some e =>
    have ht := h.eq_tag e he
    have hnone : del = none ∧ ins = none := h.one_kind.resolve_left (by simp [he])
    refine ⟨hbs.cons fun c hc => ⟨fun _ => hhead c hc, fun _ => ht⟩, ?_, ?_⟩
    · intro _ b hb
      cases hb
      exact ht
    · simp [hnone]

theorem Pending.spaced_change {eq del ins : Option Block} (h : Pending eq del ins)
    {bs : List Block} (hbs : Spaced bs) (hhead : ∀ b ∈ bs.head?, b.tag = .equal) :
    Spaced (pendingChange del ins ++ bs) ∧
      (eq ≠ none → ∀ b ∈ (pendingChange del ins ++ bs).head?, b.tag = .equal) ∧
      (del ≠ none ∨ ins ≠ none → ∀ b ∈ (pendingChange del ins ++ bs).head?, b.tag ≠ .equal) := by
  by_cases hne : del ≠ none ∨ ins ≠ none
  · obtain ⟨c, hpc, hc⟩ := pendingChange_cases h hne
    rw [hpc]
    refine ⟨hbs.cons fun d hd => ⟨fun he => absurd he hc, fun hd' => absurd (hhead d hd) hd'⟩,
      ?_, ?_⟩
    · intro heq
      rcases h.one_kind with rfl | hnone
      · exact absurd rfl heq
      · simp [hnone] at hne
    · intro _ b hb
      cases hb
      exact hc
  · obtain ⟨rfl, rfl⟩ : del = none ∧ ins = none := by simpa using hne
    exact ⟨hbs, fun _ => hhead, fun h' => absurd h' hne⟩

/-- Kinds take turns after joining, and the first block is of the kind held back. -/
theorem joinFrom_spaced {eq del ins : Option Block} (h : Pending eq del ins) (bs : List Block)
    (hbs : ∀ b ∈ bs, b.tag ≠ .replace) :
    Spaced (joinFrom eq del ins bs) ∧
      (eq ≠ none → ∀ b ∈ (joinFrom eq del ins bs).head?, b.tag = .equal) ∧
      (del ≠ none ∨ ins ≠ none → ∀ b ∈ (joinFrom eq del ins bs).head?, b.tag ≠ .equal) := by
  induction bs generalizing eq del ins with
  | nil =>
    have hnil : Spaced [] := List.IsChain.nil
    rcases h.one_kind with rfl | ⟨rfl, rfl⟩
    · simpa [joinFrom] using h.spaced_change hnil (by simp)
    · simpa [joinFrom, pendingChange] using h.spaced_equal hnil (by simp)
  | cons b rest ih =>
    have hrest : ∀ c ∈ rest, c.tag ≠ .replace := fun c hc => hbs c (List.mem_cons_of_mem b hc)
    cases ht : b.tag with
    | equal =>
      simp only [joinFrom, ht]
      obtain ⟨hs, hhead, -⟩ := ih (h.add_equal ht) hrest
      exact h.spaced_change hs (hhead (extend_ne_none eq b))
    | insert =>
      simp only [joinFrom, ht]
      obtain ⟨hs, -, hhead⟩ := ih (h.add_insert ht) hrest
      exact h.spaced_equal hs (hhead (Or.inr (extend_ne_none ins b)))
    | delete =>
      simp only [joinFrom, ht]
      obtain ⟨hs, -, hhead⟩ := ih (h.add_delete ht) hrest
      exact h.spaced_equal hs (hhead (Or.inl (extend_ne_none del b)))
    | replace => exact absurd ht (hbs b List.mem_cons_self)

theorem Leads.tag_ne_replace {bs : List Block} {i j i' j' : Nat}
    (h : Leads old new i j bs i' j') : ∀ b ∈ bs, b.tag ≠ .replace := by
  induction bs generalizing i j with
  | nil => simp
  | cons b bs ih =>
    obtain ⟨hf, hl⟩ := h
    intro c hc
    rcases List.mem_cons.mp hc with rfl | hc
    · intro ht
      simp only [Block.Fits, ht] at hf
    · exact ih hl c hc

/-- Two paths that meet at a point inside make one. -/
theorem leads_halves {i j x y : Nat} {xs ys : List α} {as bs : List Block} (hx : x ≤ xs.length)
    (hy : y ≤ ys.length)
    (ha : Leads old new i j as (i + (xs.take x).length) (j + (ys.take y).length))
    (hb : Leads old new (i + x) (j + y) bs (i + x + (xs.drop x).length)
      (j + y + (ys.drop y).length)) :
    Leads old new i j (as ++ bs) (i + xs.length) (j + ys.length) := by
  rw [List.length_take, List.length_take, Nat.min_eq_left hx, Nat.min_eq_left hy] at ha
  rw [List.length_drop, List.length_drop,
    show i + x + (xs.length - x) = i + xs.length by omega,
    show j + y + (ys.length - y) = j + ys.length by omega] at hb
  exact leads_append.mpr ⟨_, _, ha, hb⟩

variable [DecidableEq α]

section Ends

variable {i j : Nat} {xs ys : List α} (hx : StandsAt xs old i) (hy : StandsAt ys new j)

include hx hy

theorem leads_commonPrefix :
    Leads old new i j
      (if commonPrefix xs ys = 0 then [] else [.equal i j (commonPrefix xs ys)])
      (i + commonPrefix xs ys) (j + commonPrefix xs ys) := by
  have hpx := commonPrefix_le_left xs ys
  have hpy := commonPrefix_le_right xs ys
  have hpe := take_commonPrefix xs ys
  have ha := (hx.take (commonPrefix xs ys)).agree (hpe ▸ hy.take (commonPrefix xs ys))
  rw [List.length_take, Nat.min_eq_left hpx] at ha
  have := hx.length_le
  have := hy.length_le
  exact leads_equal (by omega) (by omega) ha

theorem leads_commonSuffix {s : Nat} (hs : commonSuffix xs ys = s) :
    Leads old new (i + (xs.length - s)) (j + (ys.length - s))
      (if s = 0 then [] else [.equal (i + (xs.length - s)) (j + (ys.length - s)) s])
      (i + xs.length) (j + ys.length) := by
  have hsx := commonSuffix_le_left xs ys
  have hsy := commonSuffix_le_right xs ys
  have hse := drop_commonSuffix xs ys
  rw [hs] at hsx hsy hse
  have hx' := hx.drop (Nat.sub_le xs.length s)
  have hy' := hy.drop (Nat.sub_le ys.length s)
  rw [← hse] at hy'
  have ha := hx'.agree hy'
  rw [List.length_drop, show xs.length - (xs.length - s) = s by omega] at ha
  have := hx.length_le
  have := hy.length_le
  have h := leads_equal (by omega) (by omega) ha
  rwa [show i + (xs.length - s) + s = i + xs.length by omega,
    show j + (ys.length - s) + s = j + ys.length by omega] at h

end Ends

/-- The blocks between two lists lead from their starts to their ends. -/
theorem splitBlocks_leads {i j : Nat} {xs ys : List α} (hx : StandsAt xs old i)
    (hy : StandsAt ys new j) (fuel : Nat) :
    Leads old new i j (splitBlocks i j xs ys fuel) (i + xs.length) (j + ys.length) := by
  induction fuel generalizing i j xs ys with
  | zero => exact leads_exchange hx.length_le hy.length_le
  | succ fuel ih =>
    simp only [splitBlocks]
    have hstart := leads_commonPrefix hx hy
    have hpx := commonPrefix_le_left xs ys
    have hpy := commonPrefix_le_right xs ys
    generalize commonPrefix xs ys = p at hpx hpy hstart ⊢
    have hx₁ := hx.drop hpx
    have hy₁ := hy.drop hpy
    have hlx₁ : i + p + (xs.drop p).length = i + xs.length := by simp; omega
    have hly₁ : j + p + (ys.drop p).length = j + ys.length := by simp; omega
    generalize xs.drop p = xs₁ at hx₁ hlx₁ ⊢
    generalize ys.drop p = ys₁ at hy₁ hly₁ ⊢
    generalize hs : commonSuffix xs₁ ys₁ = s
    have hend := leads_commonSuffix hx₁ hy₁ hs
    have hx₂ := hx₁.take (xs₁.length - s)
    have hy₂ := hy₁.take (ys₁.length - s)
    have hlx₂ : (xs₁.take (xs₁.length - s)).length = xs₁.length - s := by simp
    have hly₂ : (ys₁.take (ys₁.length - s)).length = ys₁.length - s := by simp
    rw [← hlx₂, ← hly₂, hlx₁, hly₁] at hend
    generalize xs₁.take (xs₁.length - s) = xs₂ at hx₂ hend ⊢
    generalize ys₁.take (ys₁.length - s) = ys₂ at hy₂ hend ⊢
    -- Between the common ends, whatever branch is taken leads from one to the other.
    refine leads_append.mpr ⟨_, _, leads_append.mpr ⟨_, _, hstart, ?_⟩, hend⟩
    split
    · next he =>
      simp only [Bool.and_eq_true, List.isEmpty_iff] at he
      simp [he.1, he.2]
    · split
      · next he =>
        rw [List.isEmpty_iff.mp he]
        exact leads_delete hx₂.length_le
      · split
        · next he =>
          rw [List.isEmpty_iff.mp he]
          exact leads_insert hy₂.length_le
        · split
          · next x y hmeet =>
            obtain ⟨hxle, hyle⟩ := meeting_le hmeet
            exact leads_halves hxle hyle (ih (hx₂.take x) (hy₂.take y))
              (ih (hx₂.drop hxle) (hy₂.drop hyle))
          · exact leads_exchange hx₂.length_le hy₂.length_le

theorem blocks_leads (xs ys : List α) : Leads xs ys 0 0 (blocks xs ys) xs.length ys.length := by
  have hx : StandsAt xs xs 0 := ⟨Nat.zero_le _, List.prefix_refl _⟩
  have hy : StandsAt ys ys 0 := ⟨Nat.zero_le _, List.prefix_refl _⟩
  simpa [blocks] using splitBlocks_leads hx hy _

/-- The script of two lists leads through their whole grid. -/
theorem script_leads (old new : List α) :
    Leads old new 0 0 ((script old new).flatMap Block.parts) old.length new.length := by
  have h := compact_reroutes _ _ _ _ _ (blocks_leads old new)
  exact joinFrom_reroutes pending_none _ _ _ _ _ h

theorem script_spaced (old new : List α) : Spaced (script old new) := by
  have h := compact_reroutes _ _ _ _ _ (blocks_leads old new)
  exact (joinFrom_spaced pending_none _ h.tag_ne_replace).1

end SymbolHistory.Diff
