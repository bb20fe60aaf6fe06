import Mathlib.Tactic.Choose
import SymbolHistory.SourceModel

namespace SymbolHistory

namespace Binary64

variable {x y z : Binary64}

theorem le_of_keys {a b : Int} (hx : x.key? = some a) (hy : y.key? = some b) :
    le x y = decide (a ≤ b) := by
  unfold le
  rw [hx, hy]

theorem lt_of_keys {a b : Int} (hx : x.key? = some a) (hy : y.key? = some b) :
    lt x y = decide (a < b) := by
  unfold lt
  rw [hx, hy]

theorem exists_keys_of_le (h : le x y = true) :
    ∃ a b, x.key? = some a ∧ y.key? = some b ∧ a ≤ b := by
  unfold le at h
  split at h
  · next a b hx hy => exact ⟨a, b, hx, hy, of_decide_eq_true h⟩
  · cases h

theorem le_trans (hxy : le x y = true) (hyz : le y z = true) : le x z = true := by
  obtain ⟨a, b, hx, hy, hab⟩ := exists_keys_of_le hxy
  obtain ⟨b', c, hy', hz, hbc⟩ := exists_keys_of_le hyz
  rw [hy] at hy'
  obtain rfl := Option.some.inj hy'
  rw [le_of_keys hx hz]
  exact decide_eq_true (Int.le_trans hab hbc)

theorem exists_key_ofRatio (negative : Bool) (num den : Nat) :
    ∃ a, (ofRatio negative num den).key? = some a := by
  unfold ofRatio ofUnits
  cases negative <;> split <;> exact ⟨_, rfl⟩

end Binary64

namespace Node

theorem exists_key_damage (n : Node) : ∃ a, n.damage.key? = some a := by
  unfold damage
  dsimp only
  split
  · exact Binary64.exists_key_ofRatio _ _ _
  · exact Binary64.exists_key_ofRatio _ _ _

theorem damage_le_one (n : Node) : Binary64.le n.damage .one = true := by
  unfold damage
  dsimp only
  split
  · assumption
  · obtain ⟨a, ha⟩ := Binary64.exists_key_ofRatio false 1 1
    rw [Binary64.one, Binary64.le_of_keys ha ha]
    exact decide_eq_true (Int.le_refl a)

end Node

/-- A tree with less damage than each one before it and no more than any after it. -/
structure LeastAmong (before : List Node) (tree : Node) (after : List Node) : Prop where
  lt_before : ∀ t ∈ before, Binary64.lt tree.damage t.damage = true
  le_after : ∀ t ∈ after, Binary64.le tree.damage t.damage = true

/-- The least damaged tree is the earliest of those with the least damage. -/
theorem leastDamaged_leastAmong (best : Grammar × Node) (trees : List (Grammar × Node)) :
    ∃ before after, best :: trees = before ++ leastDamaged best trees :: after ∧
      LeastAmong (before.map Prod.snd) (leastDamaged best trees).2 (after.map Prod.snd) := by
  choose key hkey using Node.exists_key_damage
  have hle (m n : Node) : Binary64.le m.damage n.damage = true ↔ key m ≤ key n := by
    rw [Binary64.le_of_keys (hkey m) (hkey n), decide_eq_true_eq]
  have hlt (m n : Node) : Binary64.lt m.damage n.damage = true ↔ key m < key n := by
    rw [Binary64.lt_of_keys (hkey m) (hkey n), decide_eq_true_eq]
  induction trees generalizing best with
  | nil => exact ⟨[], [], rfl, by simp, by simp⟩
  | cons t rest ih =>
    unfold leastDamaged
    split
    · next hbetter =>
      -- What beats `t` beats the one that `t` beats.
      obtain ⟨before, after, hsplit, hbefore, hafter⟩ := ih t
      refine ⟨best :: before, after, by rw [hsplit, List.cons_append], ?_, hafter⟩
      intro n hn
      rcases List.mem_cons.mp hn with rfl | hn
      · rw [hlt] at hbetter ⊢
        have hfirst : key (leastDamaged t rest).2 ≤ key t.2 := by
          rcases List.append_eq_cons_iff.mp hsplit.symm with ⟨-, hr⟩ | ⟨before', rfl, -⟩
          · exact Int.le_of_eq (congrArg (fun c => key c.2) (List.cons.inj hr).1)
          · have := (hlt _ _).mp (hbefore t.2 (by simp))
            omega
        omega
      · exact hbefore n hn
    · next hworse =>
      rw [hlt] at hworse
      obtain ⟨before, after, hsplit, hbefore, hafter⟩ := ih best
      rcases List.append_eq_cons_iff.mp hsplit.symm with ⟨rfl, hr⟩ | ⟨before', rfl, hrest⟩
      · obtain ⟨hbest, rfl⟩ := List.cons.inj hr
        refine ⟨[], t :: after, by rw [hbest, List.nil_append], by simp, ?_⟩
        intro n hn
        rcases List.mem_cons.mp hn with rfl | hn
        · rw [hle, hbest]
          omega
        · exact hafter n hn
      · refine ⟨best :: t :: before', after, ?_, ?_, hafter⟩
        · rw [List.cons_append, List.cons_append, ← hrest]
        have hbest := (hlt _ _).mp (hbefore best.2 (by simp))
        intro n hn
        simp only [List.map_cons, List.mem_cons] at hn
        rcases hn with rfl | rfl | hn
        · exact (hlt _ _).mpr hbest
        · rw [hlt]
          omega
        · exact hbefore n (by simp [hn])

namespace SourceModel

variable (language : Language) (path : String) (source : Bytes) {trees : List (Grammar × Node)}

/-- Before the first undamaged tree all are damaged, and it is taken at any tolerance. -/
theorem ofTrees_of_undamaged {before after : List (Grammar × Node)} {g : Grammar} {t : Node}
    (htrees : trees = before ++ (g, t) :: after) (hbefore : ∀ b ∈ before, b.2.hasError = true)
    (ht : t.hasError = false) (tolerance : Binary64) :
    ofTrees language path source tolerance trees =
      .parsed ⟨t, source, path, language, g, false⟩ := by
  have hfind : trees.find? (fun t => !t.2.hasError) = some (g, t) := by
    rw [List.find?_eq_some_iff_append]
    exact ⟨by simp [ht], before, after, htrees, fun b hb => by simp [hbefore b hb]⟩
  unfold ofTrees
  rw [hfind]

theorem ofTrees_of_damaged (hne : trees ≠ []) (hall : ∀ t ∈ trees, t.2.hasError = true) :
    ∃ before g t after, trees = before ++ (g, t) :: after ∧
      LeastAmong (before.map Prod.snd) t (after.map Prod.snd) ∧
      ∀ tolerance, ofTrees language path source tolerance trees =
        if Binary64.le t.damage tolerance then .parsed ⟨t, source, path, language, g, true⟩
        else ofReason language path source (damageReason t.damage tolerance) := by
  have hfind : trees.find? (fun t => !t.2.hasError) = none := by
    rw [List.find?_eq_none]
    intro t ht
    simp [hall t ht]
  obtain ⟨first, rest, rfl⟩ := List.exists_cons_of_ne_nil hne
  obtain ⟨before, after, hsplit, hleast⟩ := leastDamaged_leastAmong first rest
  refine ⟨before, _, _, after, hsplit, hleast, fun tolerance => ?_⟩
  unfold ofTrees
  rw [hfind]

section Reading

variable (trees : Grammar → Bytes → Node)

/-- The model of a source for which every grammar has a tree. -/
def readTrees (tolerance : Binary64) : SourceModel :=
  read (fun g s => some (trees g s)) language path source tolerance

theorem readTrees_eq (tolerance : Binary64) :
    readTrees language path source trees tolerance =
      ofTrees language path source tolerance
        (language.grammars.map fun g => (g, trees g source)) := by
  simp [readTrees, read, List.filterMap_eq_map']

theorem readTrees_of_undamaged {before after : List Grammar} {g : Grammar}
    (hsplit : language.grammars = before ++ g :: after)
    (hbefore : ∀ b ∈ before, (trees b source).hasError = true)
    (hg : (trees g source).hasError = false) (tolerance : Binary64) :
    readTrees language path source trees tolerance =
      .parsed ⟨trees g source, source, path, language, g, false⟩ := by
  rw [readTrees_eq, hsplit, List.map_append, List.map_cons]
  refine ofTrees_of_undamaged language path source rfl ?_ hg tolerance
  intro b hb
  obtain ⟨b, hmem, rfl⟩ := List.mem_map.mp hb
  exact hbefore b hmem

theorem readTrees_of_damaged
    (hall : ∀ g ∈ language.grammars, (trees g source).hasError = true) :
    ∃ before g after, language.grammars = before ++ g :: after ∧
      LeastAmong (before.map (trees · source)) (trees g source) (after.map (trees · source)) ∧
      ∀ tolerance, readTrees language path source trees tolerance =
        if Binary64.le (trees g source).damage tolerance then
          .parsed ⟨trees g source, source, path, language, g, true⟩
        else ofReason language path source (damageReason (trees g source).damage tolerance) := by
  have hne : language.grammars.map (fun g => (g, trees g source)) ≠ [] := by
    cases language <;> simp [Language.grammars]
  obtain ⟨before, g, t, after, hsplit, hleast, hmodel⟩ := ofTrees_of_damaged language path
    source hne (by simpa using hall)
  obtain ⟨before, rest, hgrammars, rfl, hrest⟩ := List.map_eq_append_iff.mp hsplit
  obtain ⟨g, after, rfl, hg, rfl⟩ := List.map_eq_cons_iff.mp hrest
  cases hg
  refine ⟨before, g, after, hgrammars, by simpa [Function.comp_def] using hleast, ?_⟩
  intro tolerance
  rw [readTrees_eq, hmodel]

/-- What decides at any tolerance: a tree without damage, or how much the least damaged one has. -/
theorem readTrees_cases :
    (∃ p, ∀ tolerance, readTrees language path source trees tolerance = .parsed p) ∨
      ∃ (p : ParsedSource) (reason : Binary64 → String), ∀ tolerance,
        readTrees language path source trees tolerance =
          if Binary64.le p.tree.damage tolerance then .parsed p
          else ofReason language path source (reason tolerance) := by
  by_cases hclean : ∃ g ∈ language.grammars, (trees g source).hasError = false
  · obtain ⟨g, hfind⟩ : ∃ g,
        language.grammars.find? (fun g => !(trees g source).hasError) = some g := by
      simpa [← Option.isSome_iff_exists] using hclean
    obtain ⟨hg, before, after, hsplit, hbefore⟩ := List.find?_eq_some_iff_append.mp hfind
    exact Or.inl ⟨_, readTrees_of_undamaged language path source trees hsplit
      (by simpa using hbefore) (by simpa using hg)⟩
  · obtain ⟨before, g, after, -, -, hmodel⟩ := readTrees_of_damaged language path source trees
      (by simpa using hclean)
    exact Or.inr ⟨⟨trees g source, source, path, language, g, true⟩,
      damageReason (trees g source).damage, hmodel⟩

/-- The first tree without damage is the model of a source, at any tolerance. If all are damaged,
the earliest of the least damaged ones is, when its damage is tolerated, and else the text of the
source. So a tree stays the model at every larger tolerance, and a tolerance of one gives a tree. -/
theorem readTrees_fallback :
    (∀ before g after, language.grammars = before ++ g :: after →
      (∀ b ∈ before, (trees b source).hasError = true) → (trees g source).hasError = false →
      ∀ tolerance, readTrees language path source trees tolerance =
        .parsed ⟨trees g source, source, path, language, g, false⟩) ∧
    ((∀ g ∈ language.grammars, (trees g source).hasError = true) →
      ∃ before g after, language.grammars = before ++ g :: after ∧
        LeastAmong (before.map (trees · source)) (trees g source) (after.map (trees · source)) ∧
        ∀ tolerance, readTrees language path source trees tolerance =
          if Binary64.le (trees g source).damage tolerance then
            .parsed ⟨trees g source, source, path, language, g, true⟩
          else .plain ⟨path, language, Text.decodeLossy source,
            (Error.parse path (damageReason (trees g source).damage tolerance)).message⟩) ∧
    (∀ tolerance larger, Binary64.le tolerance larger = true →
      (readTrees language path source trees tolerance).isPlain = false →
      readTrees language path source trees larger =
        readTrees language path source trees tolerance) ∧
    ∀ tolerance, Binary64.le .one tolerance = true →
      (readTrees language path source trees tolerance).isPlain = false := by
  refine ⟨fun before g after hsplit hbefore hg =>
    readTrees_of_undamaged language path source trees hsplit hbefore hg,
    readTrees_of_damaged language path source trees, ?_, ?_⟩
  · intro tolerance larger hle htree
    rcases readTrees_cases language path source trees with ⟨p, hmodel⟩ | ⟨p, reason, hmodel⟩
    · rw [hmodel, hmodel]
    · rw [hmodel] at htree
      split at htree
      · next htolerated =>
        rw [hmodel, hmodel, if_pos htolerated, if_pos (Binary64.le_trans htolerated hle)]
      · cases htree
  · intro tolerance hone
    rcases readTrees_cases language path source trees with ⟨p, hmodel⟩ | ⟨p, reason, hmodel⟩
    · rw [hmodel]
      rfl
    · rw [hmodel, if_pos (Binary64.le_trans p.tree.damage_le_one hone)]
      rfl

end Reading

/-- A script that the grammars read with errors in a half, a tenth and a quarter of it. -/
def damagedScript (g : Grammar) (_ : Bytes) : Node :=
  let width := match g with
    | .typescript => 10
    | .tsx => 2
    | _ => 5
  ⟨0, "program", "", 0, 20, true, false, false, true,
    [⟨1, "ERROR", "", 0, width, true, false, true, true, []⟩]⟩

/-- The tree with the least errors is the model, and none is where even that has too many. -/
theorem readTrees_damagedScript :
    let source := Text.encode "let x = <a>y</a> as\n"
    (∀ g ∈ Language.typeScript.grammars, (damagedScript g source).hasError = true) ∧
      readTrees .typeScript "a.ts" source damagedScript defaultTolerance =
        .parsed ⟨damagedScript .tsx source, source, "a.ts", .typeScript, .tsx, true⟩ ∧
      readTrees .typeScript "a.ts" source damagedScript (.ofRatio false 1 20) =
        .plain ⟨"a.ts", .typeScript, "let x = <a>y</a> as\n",
          "failed to parse a.ts: syntax errors cover 10% of the file (tolerance 5%)"⟩ := by
  intro source
  have hall : ∀ g ∈ Language.typeScript.grammars, (damagedScript g source).hasError = true := by
    decide
  obtain ⟨before, g, after, hsplit, hleast, hmodel⟩ :=
    (readTrees_fallback .typeScript "a.ts" source damagedScript).2.1 hall
  have hg : g = .tsx := by
    rcases List.append_eq_cons_iff.mp hsplit.symm with ⟨rfl, hfirst⟩ | ⟨before, rfl, hrest⟩
    · obtain ⟨rfl, rfl⟩ := List.cons.inj hfirst
      have hle := hleast.le_after (damagedScript .tsx source) (by simp)
      exact absurd hle (by decide +kernel)
    rcases List.append_eq_cons_iff.mp hrest.symm with ⟨rfl, hsecond⟩ | ⟨before, rfl, hlast⟩
    · exact (List.cons.inj hsecond).1
    · have hmem : g ∈ [Grammar.javascript] := hlast ▸ by simp
      obtain rfl := List.mem_singleton.mp hmem
      have hlt := hleast.lt_before (damagedScript .tsx source) (by simp)
      exact absurd hlt (by decide +kernel)
  subst hg
  refine ⟨hall, ?_, ?_⟩
  · rw [hmodel, if_pos (by decide +kernel)]
  · have htext : Text.decodeLossy source = "let x = <a>y</a> as\n" := by decide +kernel
    have hreason : (Error.parse "a.ts" (damageReason (damagedScript .tsx source).damage
        (.ofRatio false 1 20))).message =
        "failed to parse a.ts: syntax errors cover 10% of the file (tolerance 5%)" := by
      decide +kernel
    rw [hmodel, if_neg (by decide +kernel), htext, hreason]

end SourceModel
end SymbolHistory
