import SymbolHistory.Diff.Greedy
import SymbolHistory.Proofs.MaximalRun

namespace SymbolHistory.Diff

def SideStep.isAdded : SideStep → Bool
  | added .. => true
  | _ => false

def SideStep.isRemoved : SideStep → Bool
  | removed .. => true
  | _ => false

theorem SideStep.isAdded_and_isRemoved (s : SideStep) : (s.isAdded && s.isRemoved) = false := by
  cases s <;> rfl

/-- The lines in sight at a line: that line and the five after it. -/
def inSight (texts : List String) (line : Nat) : List String :=
  texts.extract line (line + 1 + 5)

/-- The lines from `start` up to `stop` are skipped for the line at `stop`: it reads `needle`, no
line before it does, and it lies at most five lines ahead. -/
structure Skips (texts : List String) (start stop : Nat) (needle : String) : Prop where
  lt : start < stop
  near : stop - start ≤ 5
  found : texts[stop]? = some needle
  first : needle ∉ texts.extract start stop

section Search

variable {texts ahead : List String} {first needle : String} {line d : Nat}

theorem getElem?_of_drop_eq (h : texts.drop line = first :: ahead) : texts[line]? = some first := by
  rw [← List.head?_drop, h, List.head?_cons]

theorem drop_succ_of_drop_eq (h : texts.drop line = first :: ahead) :
    texts.drop (line + 1) = ahead := by
  rw [← List.tail_drop, h, List.tail_cons]

theorem drop_after_of_drop_eq (h : texts.drop line = first :: ahead) (d : Nat) :
    texts.drop (line + 1 + d + 1) = ahead.drop (d + 1) := by
  rw [← drop_succ_of_drop_eq h, List.drop_drop, Nat.add_assoc (line + 1)]

theorem extract_of_drop_eq (h : texts.drop line = first :: ahead) (d : Nat) :
    texts.extract line (line + 1 + d) = first :: ahead.take d := by
  rw [List.extract_eq_take_drop, h, show line + 1 + d - line = d + 1 by omega, List.take_succ_cons]

theorem skips_of_linesAhead? (h : texts.drop line = first :: ahead) (hne : needle ≠ first)
    (hd : linesAhead? needle ahead = some d) : Skips texts line (line + 1 + d) needle := by
  obtain ⟨hlt, hfound, hbefore⟩ := List.findIdx?_eq_some_iff_getElem.mp hd
  simp only [lookahead, List.length_take, List.getElem_take, beq_iff_eq] at hlt hfound hbefore
  refine ⟨by omega, by omega, ?_, ?_⟩
  · rw [← List.getElem?_drop, drop_succ_of_drop_eq h, ← hfound]
    exact List.getElem?_eq_getElem _
  · rw [extract_of_drop_eq h, List.mem_cons, not_or]
    refine ⟨hne, ?_⟩
    intro hmem
    obtain ⟨e, he, heq⟩ := List.mem_take_iff_getElem.mp hmem
    exact hbefore e (by omega) heq

theorem not_mem_inSight (h : texts.drop line = first :: ahead) (hne : needle ≠ first)
    (hnone : linesAhead? needle ahead = none) : needle ∉ inSight texts line := by
  rw [linesAhead?, lookahead, List.findIdx?_eq_none_iff] at hnone
  rw [inSight, extract_of_drop_eq h, List.mem_cons, not_or]
  refine ⟨hne, ?_⟩
  intro hmem
  simpa using hnone needle hmem

end Search

/-- The moves of the two cursors from a pair of lines on, with the steps they give. Lines count from
zero here and from one in the steps. -/
inductive Walk (old new : List String) : Nat → Nat → List SideStep → Prop
  | oldEnds {i j : Nat} (h : old.length ≤ i) : Walk old new i j (addedFrom (j + 1) (new.drop j))
  | newEnds {i j : Nat} (h : new.length ≤ j) : Walk old new i j (removedFrom (i + 1) (old.drop i))
  | keep {i j : Nat} {text : String} {steps : List SideStep} (hold : old[i]? = some text)
    (hnew : new[j]? = some text) (rest : Walk old new (i + 1) (j + 1) steps) :
    Walk old new i j (.unchanged (i + 1) (j + 1) text :: steps)
  | add {i j k : Nat} {text : String} {steps : List SideStep} (hold : old[i]? = some text)
    (hskips : Skips new j k text) (rest : Walk old new (i + 1) (k + 1) steps) :
    Walk old new i j (addedFrom (j + 1) (new.extract j k) ++
      .unchanged (i + 1) (k + 1) text :: steps)
  | remove {i j k : Nat} {first text : String} {steps : List SideStep}
    (hold : old[i]? = some first) (hnew : new[j]? = some text) (hfirst : first ∉ inSight new j)
    (hskips : Skips old i k text) (rest : Walk old new (k + 1) (j + 1) steps) :
    Walk old new i j (removedFrom (i + 1) (old.extract i k) ++
      .unchanged (k + 1) (j + 1) text :: steps)
  | modify {i j : Nat} {o n : String} {steps : List SideStep} (hold : old[i]? = some o)
    (hnew : new[j]? = some n) (ho : o ∉ inSight new j) (hn : n ∉ inSight old i)
    (rest : Walk old new (i + 1) (j + 1) steps) :
    Walk old new i j (.modified (i + 1) (j + 1) o n :: steps)

/-- The script is what the cursors give. -/
theorem greedyFrom_walk (old new : List String) (i j : Nat) :
    Walk old new i j (greedyFrom (i + 1) (j + 1) (old.drop i) (new.drop j)) := by
  generalize hi : i + 1 = a, hj : j + 1 = b, ho : old.drop i = xs, hn : new.drop j = ys
  fun_induction greedyFrom a b xs ys generalizing i j with
  | case1 a b ys =>
    rw [← hj, ← hn]
    exact .oldEnds (List.drop_eq_nil_iff.mp ho)
  | case2 a b xs =>
    rw [← hi, ← ho]
    exact .newEnds (List.drop_eq_nil_iff.mp hn)
  | case3 a b xs n ys ih =>
    subst hi hj
    have hrest := ih (i + 1) (j + 1) rfl rfl (drop_succ_of_drop_eq ho) (drop_succ_of_drop_eq hn)
    exact .keep (getElem?_of_drop_eq ho) (getElem?_of_drop_eq hn) hrest
  | case4 a b o xs n ys hne d hd ih =>
    subst hi hj
    have hrest := ih (i + 1) (j + 1 + d + 1) rfl (by omega) (drop_succ_of_drop_eq ho)
      (drop_after_of_drop_eq hn d)
    rw [← extract_of_drop_eq hn, show j + 1 + 1 + d = j + 1 + d + 1 by omega]
    exact .add (getElem?_of_drop_eq ho) (skips_of_linesAhead? hn hne hd) hrest
  | case5 a b o xs n ys hne hnone d hd ih =>
    subst hi hj
    have hrest := ih (i + 1 + d + 1) (j + 1) (by omega) rfl (drop_after_of_drop_eq ho d)
      (drop_succ_of_drop_eq hn)
    rw [← extract_of_drop_eq ho, show i + 1 + 1 + d = i + 1 + d + 1 by omega]
    exact .remove (getElem?_of_drop_eq ho) (getElem?_of_drop_eq hn)
      (not_mem_inSight hn hne hnone) (skips_of_linesAhead? ho (Ne.symm hne) hd) hrest
  | case6 a b o xs n ys hne hnone hnone' ih =>
    subst hi hj
    have hrest := ih (i + 1) (j + 1) rfl rfl (drop_succ_of_drop_eq ho) (drop_succ_of_drop_eq hn)
    exact .modify (getElem?_of_drop_eq ho) (getElem?_of_drop_eq hn)
      (not_mem_inSight hn hne hnone) (not_mem_inSight ho (Ne.symm hne) hnone') hrest

section Runs

variable (line : Nat) (texts : List String)

theorem isAdded_addedFrom : ∀ s ∈ addedFrom line texts, s.isAdded = true ∧ s.isRemoved = false := by
  induction texts generalizing line with
  | nil => simp [addedFrom]
  | cons t texts ih =>
    intro s hs
    rcases List.mem_cons.mp hs with rfl | hs
    · exact ⟨rfl, rfl⟩
    · exact ih (line + 1) s hs

theorem isRemoved_removedFrom :
    ∀ s ∈ removedFrom line texts, s.isAdded = false ∧ s.isRemoved = true := by
  induction texts generalizing line with
  | nil => simp [removedFrom]
  | cons t texts ih =>
    intro s hs
    rcases List.mem_cons.mp hs with rfl | hs
    · exact ⟨rfl, rfl⟩
    · exact ih (line + 1) s hs

theorem extract_to_end : texts.extract line texts.length = texts.drop line :=
  List.take_of_length_le (by simp)

end Runs

theorem Skips.stop_le {texts : List String} {start stop : Nat} {needle : String}
    (h : Skips texts start stop needle) : stop ≤ texts.length :=
  Nat.le_of_lt (List.getElem?_eq_some_iff.mp h.found).1

/-- A run of added lines with the steps after it: it ends the script, or its lines were skipped for
an unchanged one. -/
def AddsRun (old new : List String) (run after : List SideStep) : Prop :=
  ∃ j k, k ≤ new.length ∧ run = addedFrom (j + 1) (new.extract j k) ∧
    (after = [] ∨ ∃ i text rest, after = .unchanged (i + 1) (k + 1) text :: rest ∧
      old[i]? = some text ∧ Skips new j k text)

/-- A run of removed lines with the steps after it. Lines are skipped in the old text only where the
first of them is out of sight in the new one. -/
def RemovesRun (old new : List String) (run after : List SideStep) : Prop :=
  ∃ i k, k ≤ old.length ∧ run = removedFrom (i + 1) (old.extract i k) ∧
    (after = [] ∨ ∃ j first text rest, after = .unchanged (k + 1) (j + 1) text :: rest ∧
      new[j]? = some text ∧ Skips old i k text ∧ old[i]? = some first ∧ first ∉ inSight new j)

namespace Walk

variable {old new : List String} {i j : Nat} {steps before run after : List SideStep}

theorem out_of_sight (h : Walk old new i j steps) {oldLine newLine : Nat} {o n : String}
    (hmem : .modified oldLine newLine o n ∈ steps) :
    ∃ i j, oldLine = i + 1 ∧ newLine = j + 1 ∧ old[i]? = some o ∧ new[j]? = some n ∧
      o ∉ inSight new j ∧ n ∉ inSight old i := by
  have hadded {line : Nat} {texts : List String} :
      .modified oldLine newLine o n ∉ addedFrom line texts :=
    fun hs => Bool.false_ne_true (isAdded_addedFrom line texts _ hs).1
  have hremoved {line : Nat} {texts : List String} :
      .modified oldLine newLine o n ∉ removedFrom line texts :=
    fun hs => Bool.false_ne_true (isRemoved_removedFrom line texts _ hs).2
  induction h with
  | oldEnds h => exact absurd hmem hadded
  | newEnds h => exact absurd hmem hremoved
  | keep hold hnew rest ih => exact ih (by simpa using hmem)
  | add hold hskips rest ih => exact ih (by simpa [hadded] using hmem)
  | remove hold hnew hfirst hskips rest ih => exact ih (by simpa [hremoved] using hmem)
  | modify hold hnew ho hn rest ih =>
    rcases List.mem_cons.mp hmem with heq | hmem
    · cases heq
      exact ⟨_, _, rfl, rfl, hold, hnew, ho, hn⟩
    · exact ih hmem

theorem addsRun (h : Walk old new i j steps)
    (hrun : IsMaximalRun SideStep.isAdded steps before run after) : AddsRun old new run after := by
  induction h generalizing before with
  | oldEnds h =>
    obtain ⟨rfl, rfl⟩ := hrun.eq_of_all fun s hs => (isAdded_addedFrom _ _ s hs).1
    exact ⟨_, new.length, Nat.le_refl _, by rw [extract_to_end], Or.inl rfl⟩
  | newEnds h =>
    obtain ⟨s, hs, hadded⟩ := hrun.exists_mem
    rw [(isRemoved_removedFrom _ _ s hs).1] at hadded
    cases hadded
  | keep hold hnew rest ih =>
    obtain ⟨before, hrun⟩ := hrun.skip rfl
    exact ih hrun
  | add hold hskips rest ih =>
    rcases hrun.eq_or_skip (fun s hs => (isAdded_addedFrom _ _ s hs).1) rfl with
      ⟨rfl, rfl⟩ | ⟨before, hrun⟩
    · exact ⟨_, _, hskips.stop_le, rfl, Or.inr ⟨_, _, _, rfl, hold, hskips⟩⟩
    · exact ih hrun
  | remove hold hnew hfirst hskips rest ih =>
    obtain ⟨before, hrun⟩ := hrun.skip_append fun s hs => (isRemoved_removedFrom _ _ s hs).1
    obtain ⟨before, hrun⟩ := hrun.skip rfl
    exact ih hrun
  | modify hold hnew ho hn rest ih =>
    obtain ⟨before, hrun⟩ := hrun.skip rfl
    exact ih hrun

theorem removesRun (h : Walk old new i j steps)
    (hrun : IsMaximalRun SideStep.isRemoved steps before run after) :
    RemovesRun old new run after := by
  induction h generalizing before with
  | oldEnds h =>
    obtain ⟨s, hs, hremoved⟩ := hrun.exists_mem
    rw [(isAdded_addedFrom _ _ s hs).2] at hremoved
    cases hremoved
  | newEnds h =>
    obtain ⟨rfl, rfl⟩ := hrun.eq_of_all fun s hs => (isRemoved_removedFrom _ _ s hs).2
    exact ⟨_, old.length, Nat.le_refl _, by rw [extract_to_end], Or.inl rfl⟩
  | keep hold hnew rest ih =>
    obtain ⟨before, hrun⟩ := hrun.skip rfl
    exact ih hrun
  | add hold hskips rest ih =>
    obtain ⟨before, hrun⟩ := hrun.skip_append fun s hs => (isAdded_addedFrom _ _ s hs).2
    obtain ⟨before, hrun⟩ := hrun.skip rfl
    exact ih hrun
  | remove hold hnew hfirst hskips rest ih =>
    rcases hrun.eq_or_skip (fun s hs => (isRemoved_removedFrom _ _ s hs).2) rfl with
      ⟨rfl, rfl⟩ | ⟨before, hrun⟩
    · exact ⟨_, _, hskips.stop_le, rfl,
        Or.inr ⟨_, _, _, _, rfl, hnew, hskips, hold, hfirst⟩⟩
    · exact ih hrun
  | modify hold hnew ho hn rest ih =>
    obtain ⟨before, hrun⟩ := hrun.skip rfl
    exact ih hrun

/-- The run that ends at an added or a removed line is not followed by a line of the other kind. -/
theorem apart {s t : SideStep} (h : Walk old new i j (before ++ s :: t :: after)) :
    ¬(s.isAdded = true ∧ t.isRemoved = true) ∧ ¬(s.isRemoved = true ∧ t.isAdded = true) := by
  have ht := t.isAdded_and_isRemoved
  constructor
  · rintro ⟨hs, hremoved⟩
    rw [hremoved, Bool.and_true] at ht
    obtain ⟨start, run, hrun⟩ := exists_isMaximalRun before after hs ht
    obtain ⟨j, k, -, -, hend | ⟨i, text, rest, hend, -⟩⟩ := h.addsRun hrun
    · cases hend
    · cases hend
      cases hremoved
  · rintro ⟨hs, hadded⟩
    rw [hadded, Bool.true_and] at ht
    obtain ⟨start, run, hrun⟩ := exists_isMaximalRun before after hs ht
    obtain ⟨i, k, -, -, hend | ⟨j, first, text, rest, hend, -⟩⟩ := h.removesRun hrun
    · cases hend
    · cases hend
      cases hadded

end Walk

/-- Lines are set against each other only out of each other's sight; a longest run of added or of
removed lines ends the script or leads to the nearest line equal to the one that waits on the other
side, adding being tried before removing; and added and removed lines never stand side by side. -/
theorem greedy_honours_lookahead (old new : List String) :
    (∀ oldLine newLine o n, .modified oldLine newLine o n ∈ greedy old new →
      ∃ i j, oldLine = i + 1 ∧ newLine = j + 1 ∧ old[i]? = some o ∧ new[j]? = some n ∧
        o ∉ inSight new j ∧ n ∉ inSight old i) ∧
    (∀ before run after, IsMaximalRun SideStep.isAdded (greedy old new) before run after →
      AddsRun old new run after) ∧
    (∀ before run after, IsMaximalRun SideStep.isRemoved (greedy old new) before run after →
      RemovesRun old new run after) ∧
    ∀ before s t after, greedy old new = before ++ s :: t :: after →
      ¬(s.isAdded = true ∧ t.isRemoved = true) ∧ ¬(s.isRemoved = true ∧ t.isAdded = true) := by
  have hwalk : Walk old new 0 0 (greedy old new) := greedyFrom_walk old new 0 0
  refine ⟨?_, ?_, ?_, ?_⟩
  · intro oldLine newLine o n hmem
    exact hwalk.out_of_sight hmem
  · intro before run after hrun
    exact hwalk.addsRun hrun
  · intro before run after hrun
    exact hwalk.removesRun hrun
  · intro before s t after hsplit
    rw [hsplit] at hwalk
    exact hwalk.apart

def mixedOld : List String := ["a", "x", "b", "m"]

def mixedNew : List String := ["p", "a", "b", "q"]

theorem greedy_mixed : greedy mixedOld mixedNew =
    [.added 1 "p", .unchanged 1 2 "a", .removed 2 "x", .unchanged 3 3 "b",
      .modified 4 4 "m" "q"] := by
  decide +kernel

theorem mixed_honours_lookahead :
    (∃ i j, 4 = i + 1 ∧ 4 = j + 1 ∧ mixedOld[i]? = some "m" ∧ mixedNew[j]? = some "q" ∧
      "m" ∉ inSight mixedNew j ∧ "q" ∉ inSight mixedOld i) ∧
    AddsRun mixedOld mixedNew [.added 1 "p"]
      [.unchanged 1 2 "a", .removed 2 "x", .unchanged 3 3 "b", .modified 4 4 "m" "q"] ∧
    RemovesRun mixedOld mixedNew [.removed 2 "x"] [.unchanged 3 3 "b", .modified 4 4 "m" "q"] ∧
    ¬((SideStep.added 1 "p").isAdded = true ∧ (SideStep.unchanged 1 2 "a").isRemoved = true) ∧
    ¬((SideStep.added 1 "p").isRemoved = true ∧ (SideStep.unchanged 1 2 "a").isAdded = true) := by
  obtain ⟨hmodified, hadded, hremoved, hapart⟩ := greedy_honours_lookahead mixedOld mixedNew
  rw [greedy_mixed] at hmodified hadded hremoved hapart
  refine ⟨hmodified 4 4 "m" "q" (by decide), hadded [] _ _ ⟨rfl, ?_, ?_, ?_, ?_⟩,
    hremoved [.added 1 "p", .unchanged 1 2 "a"] _ _ ⟨rfl, ?_, ?_, ?_, ?_⟩,
    hapart [] _ _ _ rfl⟩
  all_goals decide

end SymbolHistory.Diff
