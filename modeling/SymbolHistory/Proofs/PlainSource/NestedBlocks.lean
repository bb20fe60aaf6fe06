import SymbolHistory.Proofs.PlainSource.SpannedText

namespace SymbolHistory

def HasInk (line : List Char) : Prop := (Text.trim line).isEmpty = false

section Indentation

variable {base last i : Nat} {l : SourceLine} {rest : List SourceLine}

theorem indentEndFrom_blank (h : ¬HasInk l.text) :
    indentEndFrom base last i (l :: rest) = indentEndFrom base last (i + 1) rest := by
  rw [indentEndFrom, if_pos (Bool.not_eq_false _ ▸ h)]

theorem indentEndFrom_stop (hink : HasInk l.text) (h : indentation l.text ≤ base) :
    indentEndFrom base last i (l :: rest) = last := by
  rw [indentEndFrom, if_neg (Bool.eq_false_iff.mp hink), if_pos h]

theorem indentEndFrom_deeper (hink : HasInk l.text) (h : base < indentation l.text) :
    indentEndFrom base last i (l :: rest) = indentEndFrom base i (i + 1) rest := by
  rw [indentEndFrom, if_neg (Bool.eq_false_iff.mp hink), if_neg (Nat.not_le.mpr h)]

/-- A block that must be indented further ends no later. -/
theorem indentEndFrom_anti {deeper : Nat} (hdeeper : base ≤ deeper) (hlast : last < i)
    (lines : List SourceLine) :
    indentEndFrom deeper last i lines ≤ indentEndFrom base last i lines := by
  induction lines generalizing last i with
  | nil => exact Nat.le_refl _
  | cons l rest ih =>
    by_cases hink : HasInk l.text
    · rcases Nat.lt_or_ge base (indentation l.text) with hin | hout
      · rw [indentEndFrom_deeper hink hin]
        rcases Nat.lt_or_ge deeper (indentation l.text) with hdeep | hshallow
        · rw [indentEndFrom_deeper hink hdeep]
          exact ih (Nat.lt_succ_self i)
        · rw [indentEndFrom_stop hink hshallow]
          have hreach : i ≤ indentEndFrom base i (i + 1) rest :=
            (indentEndFrom_bounds (Nat.lt_succ_self i) rest).1
          omega
      · refine Nat.le_of_eq ?_
        rw [indentEndFrom_stop hink hout, indentEndFrom_stop hink (Nat.le_trans hout hdeeper)]
    · rw [indentEndFrom_blank hink, indentEndFrom_blank hink]
      exact ih (Nat.lt_succ_of_lt hlast)

/-- A block that begins inside another one ends inside it. -/
theorem indentEndFrom_nested {between : List SourceLine} (hlast : last < i) (hink : HasInk l.text)
    (hreach : i + between.length ≤ indentEndFrom base last i (between ++ l :: rest)) :
    indentEndFrom (indentation l.text) (i + between.length) (i + between.length + 1) rest ≤
      indentEndFrom base last i (between ++ l :: rest) := by
  induction between generalizing last i with
  | nil =>
    rw [List.nil_append, List.length_nil, Nat.add_zero] at hreach ⊢
    rcases Nat.lt_or_ge base (indentation l.text) with hin | hout
    · rw [indentEndFrom_deeper hink hin]
      exact indentEndFrom_anti (Nat.le_of_lt hin) (Nat.lt_succ_self i) rest
    · rw [indentEndFrom_stop hink hout] at hreach
      omega
  | cons m between ih =>
    have hshift : i + (m :: between).length = i + 1 + between.length := by
      rw [List.length_cons]
      omega
    rw [hshift, List.cons_append] at hreach ⊢
    by_cases hm : HasInk m.text
    · rcases Nat.lt_or_ge base (indentation m.text) with hin | hout
      · rw [indentEndFrom_deeper hm hin] at hreach ⊢
        exact ih (Nat.lt_succ_self i) hreach
      · -- The outer block would have ended before the inner one began.
        rw [indentEndFrom_stop hm hout] at hreach
        omega
    · rw [indentEndFrom_blank hm] at hreach ⊢
      exact ih (Nat.lt_succ_of_lt hlast) hreach

end Indentation

theorem blockEnd_nested {lines : List SourceLine} {i j : Nat} {l : SourceLine} (hij : i < j)
    (hl : lines[j]? = some l) (hink : HasInk l.text)
    (hreach : j ≤ blockEnd .python i (lines.drop i)) :
    blockEnd .python j (lines.drop j) ≤ blockEnd .python i (lines.drop i) := by
  obtain ⟨hj, rfl⟩ := List.getElem?_eq_some_iff.mp hl
  have hi : i < lines.length := Nat.lt_trans hij hj
  let between := (lines.drop (i + 1)).take (j - (i + 1))
  have hbetween : i + 1 + between.length = j := by
    simp only [between, List.length_take, List.length_drop]
    omega
  have hinner : lines.drop j = lines[j] :: lines.drop (j + 1) := List.drop_eq_getElem_cons hj
  have houter : lines.drop i = lines[i] :: (between ++ lines[j] :: lines.drop (j + 1)) := by
    have hsplit := List.take_append_drop (j - (i + 1)) (lines.drop (i + 1))
    rw [List.drop_drop, Nat.add_sub_cancel' hij, hinner] at hsplit
    rw [List.drop_eq_getElem_cons hi, hsplit]
  rw [houter] at hreach ⊢
  rw [hinner]
  have hnested := indentEndFrom_nested (Nat.lt_succ_self i) hink (by rw [hbetween]; exact hreach)
  rw [hbetween] at hnested
  exact hnested

namespace PlainSource

section Forms

variable {line : List Char} {around : Option String} {nested : Bool}

open Pattern

theorem opens_classForm : Python.classForm.Opens (· = 'c') := by
  rw [Python.classForm]
  simp only [opens_assoc]
  exact opens_blanks ((opens_lit rfl).seq _)

theorem opens_defForm : Python.defForm.Opens fun y => y = 'a' ∨ y = 'd' := by
  rw [Python.defForm]
  simp only [opens_assoc]
  refine opens_blanks (opens_opt (Opens.mono ?_ fun _ => Or.inl) (Opens.mono ?_ fun _ => Or.inr))
  · exact (opens_lit rfl).seq _
  · exact (opens_lit rfl).seq _

theorem opens_constantForm : Python.constantForm.Opens fun y => y.isUpper = true := by
  rw [Python.constantForm]
  simp only [opens_assoc]
  exact (((opens_one _).seq _).group 1).seq _

theorem opens_globalForm : Python.globalForm.Opens (· = 'g') := by
  rw [Python.globalForm]
  simp only [opens_assoc]
  exact opens_blanks ((opens_lit rfl).seq _)

theorem isBlank_of_isUpper {y : Char} (h : y.isUpper = true) : Text.isBlank y = false := by
  have hrange : 'A'.val ≤ y.val ∧ y.val ≤ 'Z'.val := of_decide_eq_true h
  have hlo : 65 ≤ y.toNat := hrange.1
  have hhi : y.toNat ≤ 90 := hrange.2
  simp only [Text.isBlank, Bool.or_eq_false_iff, Bool.and_eq_false_iff, beq_eq_false_iff_ne,
    decide_eq_false_iff_not]
  omega

theorem matchStart?_of_start? {form : Pattern} {found : String × Cursor}
    (h : found ∈ start? form line) : form.matchStart? line = some found.2 := by
  obtain ⟨c, hc, h⟩ := Option.bind_eq_some_iff.mp h
  obtain ⟨name, -, rfl⟩ := Option.map_eq_some_iff.mp h
  exact hc

theorem hasInk_of_start? {form : Pattern} {q : Char → Prop} {found : String × Cursor}
    (hform : form.Opens q) (hq : ∀ y, q y → Text.isBlank y = false)
    (h : found ∈ start? form line) : HasInk line := by
  obtain ⟨y, rest, htrim, hy⟩ := hform.trimStart_eq hq (matchStart?_of_start? h)
  have hline : y ∈ line := by
    have hsuffix : Text.trimStart line <:+ line := List.dropWhile_suffix _
    exact hsuffix.mem (by simp [htrim])
  have hmem := Text.mem_trim (hq y hy) hline
  unfold HasInk
  cases hempty : Text.trim line with
  | nil =>
    rw [hempty] at hmem
    cases hmem
  | cons _ _ => rfl

/-- What a line of Python declares, with the class around it. -/
inductive PythonForm (around : Option String) : LineForm → Prop
  | class (name : String) (base : Option String) : PythonForm around (.class name base)
  | definition (name : String) : PythonForm around
      (.routine (if around.isSome then .method else .function) name around true)
  | names {kind : SymbolKind} (h : kind = .constant ∨ kind = .global) (listed : List String) :
      PythonForm around (.names kind listed)

theorem formOf_python :
    ∀ f ∈ formOf .python nested around line, HasInk line ∧ PythonForm around f := by
  refine forall_orElse (forall_map fun _ h => ?_) <| forall_orElse (forall_map fun _ h => ?_) <|
    forall_orElse (forall_map fun _ h => ?_) (forall_map fun _ h => ?_)
  · refine ⟨hasInk_of_start? opens_classForm ?_ h, .class _ _⟩
    rintro y rfl
    decide
  · refine ⟨hasInk_of_start? opens_defForm ?_ h, .definition _⟩
    rintro y (rfl | rfl) <;> decide
  · exact ⟨hasInk_of_start? opens_constantForm (fun _ => isBlank_of_isUpper) h,
      .names (Or.inl rfl) _⟩
  · refine ⟨hasInk_of_start? opens_globalForm ?_ h, .names (Or.inr rfl) _⟩
    rintro y rfl
    decide

theorem formOf_of_defForm {name : String} {c : Cursor}
    (h : start? Python.defForm line = some (name, c)) :
    formOf .python nested around line =
      some (.routine (if around.isSome then .method else .function) name around true) := by
  have hclass : classLine Python.classForm line = none := by
    unfold classLine
    rw [Option.map_eq_none_iff, Option.eq_none_iff_forall_not_mem]
    intro found hfound
    obtain ⟨x, rest, hx, rfl⟩ := opens_classForm.trimStart_eq (by rintro y rfl; decide)
      (matchStart?_of_start? hfound)
    obtain ⟨y, rest', hy, hdef⟩ := opens_defForm.trimStart_eq (by rintro y (rfl | rfl) <;> decide)
      (matchStart?_of_start? h)
    rw [hx] at hy
    obtain ⟨rfl, -⟩ := List.cons.inj hy
    revert hdef
    decide
  unfold formOf
  rw [hclass, h]
  rfl

end Forms

section Seen

variable {i : Nat} {seen : Seen} {lines : List SourceLine} {nested : Bool} {s : Symbol}

def blockOf (s : Symbol) : OpenBlock := ⟨s.name, s.startLine - 1, s.endLine - 1⟩

/-- The blocks of the classes among some declarations, the latest first. -/
def classBlocks (symbols : List Symbol) : List OpenBlock :=
  ((symbols.filter (·.kind == .class)).map blockOf).reverse

theorem classBlocks_append (xs ys : List Symbol) :
    classBlocks (xs ++ ys) = classBlocks ys ++ classBlocks xs := by
  simp [classBlocks]

theorem classBlocks_eq_nil {symbols : List Symbol} (h : ∀ s ∈ symbols, s.kind ≠ .class) :
    classBlocks symbols = [] := by
  rw [classBlocks, List.filter_eq_nil_iff.mpr (by simpa using h)]
  rfl

/-- After a line the classes seen are those that it declares and those seen before. -/
theorem classes_after {form : Option LineForm} {around : Option String}
    (hform : ∀ f ∈ form, PythonForm around f) :
    (seen.after i (blockEnd .python i lines) form).classes =
      classBlocks (symbolsOf .python i lines nested form) ++ seen.classes := by
  cases form with
  | none => rfl
  | some f =>
    cases hform f rfl with
    | «class» name base => rfl
    | definition name =>
      rw [classBlocks_eq_nil]
      · rfl
      · intro s hs
        obtain rfl := List.mem_singleton.mp hs
        cases around <;> exact SymbolKind.noConfusion
    | names h listed =>
      rw [classBlocks_eq_nil]
      · rfl
      · intro s hs
        obtain ⟨name, -, rfl⟩ := List.mem_map.mp hs
        rcases h with rfl | rfl <;> exact SymbolKind.noConfusion

def declaredOn (n : Nat) (seen : Seen) (l : SourceLine) (rest : List SourceLine) : List Symbol :=
  symbolsOf .python n (l :: rest) (seen.isNested n)
    (formOf .python (seen.isNested n) (seen.classAround? n) l.text)

/-- Declarations split at line `n` into those before it, on it and after it. -/
structure SplitAt (n : Nat) (declared earlier here later : List Symbol) : Prop where
  declared_eq : declared = earlier ++ (here ++ later)
  earlier_le : ∀ t ∈ earlier, t.startLine ≤ n
  here_eq : ∀ t ∈ here, t.startLine = n + 1
  lt_later : ∀ t ∈ later, n + 1 < t.startLine

namespace SplitAt

variable {n : Nat} {declared earlier here later : List Symbol}

theorem filter_startLine (h : SplitAt n declared earlier here later) :
    declared.filter (·.startLine == n + 1) = here := by
  have hearlier : earlier.filter (·.startLine == n + 1) = [] := by
    simp only [List.filter_eq_nil_iff, beq_iff_eq]
    intro t ht
    have := h.earlier_le t ht
    omega
  have hlater : later.filter (·.startLine == n + 1) = [] := by
    simp only [List.filter_eq_nil_iff, beq_iff_eq]
    intro t ht
    have := h.lt_later t ht
    omega
  have hhere : here.filter (·.startLine == n + 1) = here :=
    List.filter_eq_self.mpr fun t ht => beq_iff_eq.mpr (h.here_eq t ht)
  rw [h.declared_eq, List.filter_append, List.filter_append, hearlier, hhere, hlater,
    List.nil_append, List.append_nil]

theorem mem_here (h : SplitAt n declared earlier here later) (hs : s ∈ declared)
    (hstart : s.startLine = n + 1) : s ∈ here := by
  rw [← h.filter_startLine, List.mem_filter]
  exact ⟨hs, beq_iff_eq.mpr hstart⟩

theorem mem_earlier (h : SplitAt n declared earlier here later) (hs : s ∈ declared)
    (hstart : s.startLine < n + 1) : s ∈ earlier := by
  rw [h.declared_eq, List.mem_append, List.mem_append] at hs
  rcases hs with hs | hs | hs
  · exact hs
  · exact absurd (h.here_eq s hs) (Nat.ne_of_lt hstart)
  · exact absurd (h.lt_later s hs) (Nat.not_lt_of_gt hstart)

end SplitAt

/-- At every line the classes seen are those declared before it. -/
theorem exists_splitAt (i : Nat) (seen : Seen) (before : List SourceLine) (l : SourceLine)
    (rest : List SourceLine) : ∃ seen' earlier later, SplitAt (i + before.length)
      (declaredFrom .python i seen (before ++ l :: rest)) earlier
        (declaredOn (i + before.length) seen' l rest) later ∧
      seen'.classes = classBlocks earlier ++ seen.classes := by
  induction before generalizing i seen with
  | nil =>
    refine ⟨seen, [], _, ⟨rfl, by simp, fun t ht => (of_mem_symbolsOf ht).1, ?_⟩, rfl⟩
    intro t ht
    obtain ⟨m, n, hcovers⟩ := exists_covers_of_mem_declaredFrom ht
    have hstart := hcovers.startLine_eq
    simp only [List.length_nil]
    omega
  | cons m before ih =>
    obtain ⟨seen', earlier, later, hsplit, hclasses⟩ := ih (i + 1)
      (seen.after i (blockEnd .python i (m :: (before ++ l :: rest)))
        (formOf .python (seen.isNested i) (seen.classAround? i) m.text))
    have hshift : i + (m :: before).length = i + 1 + before.length := by
      rw [List.length_cons]
      omega
    rw [hshift]
    refine ⟨seen', declaredOn i seen m (before ++ l :: rest) ++ earlier, later,
      ⟨?_, ?_, hsplit.here_eq, hsplit.lt_later⟩, ?_⟩
    · rw [List.append_assoc, ← hsplit.declared_eq]
      rfl
    · intro t ht
      rcases List.mem_append.mp ht with ht | ht
      · have hstart := (of_mem_symbolsOf ht).1
        omega
      · exact hsplit.earlier_le t ht
    · rw [hclasses, classBlocks_append, List.append_assoc]
      congr 1
      exact classes_after fun f hf => (formOf_python f hf).2

theorem of_mem_declaredOn {n : Nat} {l : SourceLine} {rest : List SourceLine}
    (h : s ∈ declaredOn n seen l rest) :
    HasInk l.text ∧ s.startLine = n + 1 ∧
      (s.endLine = blockEnd .python n (l :: rest) + 1 ∧
          (s.kind = .class ∨
            s.kind = (if (seen.classAround? n).isSome then .method else .function) ∧
              s.parent = seen.classAround? n) ∨
        s.endLine = n + 1 ∧ (s.kind = .constant ∨ s.kind = .global)) := by
  obtain ⟨hstart, -, f, hf, -⟩ := of_mem_symbolsOf h
  obtain ⟨hink, hform⟩ := formOf_python f hf
  refine ⟨hink, hstart, ?_⟩
  rw [declaredOn, hf] at h
  cases hform with
  | «class» name base =>
    obtain rfl := List.mem_singleton.mp h
    exact Or.inl ⟨rfl, Or.inl rfl⟩
  | definition name =>
    obtain rfl := List.mem_singleton.mp h
    exact Or.inl ⟨rfl, Or.inr ⟨rfl, rfl⟩⟩
  | names hkind listed =>
    obtain ⟨name, -, rfl⟩ := List.mem_map.mp h
    exact Or.inr ⟨rfl, hkind⟩

/-- Declarations are listed by the lines they begin on. -/
theorem declaredFrom_ordered (language : Language) (i : Nat) (seen : Seen)
    (lines : List SourceLine) :
    (declaredFrom language i seen lines).Pairwise (·.startLine ≤ ·.startLine) := by
  induction lines generalizing i seen with
  | nil => exact List.Pairwise.nil
  | cons l rest ih =>
    refine List.pairwise_append.mpr ⟨?_, ih _ _, ?_⟩
    · refine List.pairwise_of_forall_mem_list fun s hs t ht => ?_
      exact Nat.le_of_eq ((of_mem_symbolsOf hs).1.trans (of_mem_symbolsOf ht).1.symm)
    · intro s hs t ht
      obtain ⟨m, n, hcovers⟩ := exists_covers_of_mem_declaredFrom ht
      have hstart := hcovers.startLine_eq
      have hfirst := (of_mem_symbolsOf hs).1
      omega

theorem mem_classBlocks {symbols : List Symbol} {b : OpenBlock} :
    b ∈ classBlocks symbols ↔ ∃ c ∈ symbols, c.kind = .class ∧ blockOf c = b := by
  simp [classBlocks, and_assoc]

/-- The blocks of the classes among ordered declarations begin later and later, read backwards. -/
theorem classBlocks_ordered {symbols : List Symbol}
    (h : symbols.Pairwise (·.startLine ≤ ·.startLine)) :
    (classBlocks symbols).Pairwise (·.first ≥ ·.first) := by
  rw [classBlocks, List.pairwise_reverse, List.pairwise_map]
  exact (h.filter _).imp fun hle => Nat.sub_le_sub_right hle 1

end Seen

section Python

variable {p : PlainSource} {s t : Symbol}

theorem exists_splitAt_line (hp : p.language = .python) {i : Nat} {l : SourceLine}
    (hl : p.lines[i]? = some l) :
    ∃ seen earlier later,
      SplitAt i p.declared earlier (declaredOn i seen l (p.lines.drop (i + 1))) later ∧
      seen.classes = classBlocks earlier := by
  obtain ⟨hi, rfl⟩ := List.getElem?_eq_some_iff.mp hl
  have hlines : p.lines.take i ++ p.lines[i] :: p.lines.drop (i + 1) = p.lines := by
    rw [← List.drop_eq_getElem_cons hi, List.take_append_drop]
  obtain ⟨seen, earlier, later, hsplit, hclasses⟩ :=
    exists_splitAt 0 {} (p.lines.take i) p.lines[i] (p.lines.drop (i + 1))
  have hlength : 0 + (p.lines.take i).length = i := by
    rw [List.length_take]
    omega
  rw [hlines, hlength, ← hp] at hsplit
  exact ⟨seen, earlier, later, hsplit, by rw [hclasses, List.append_nil]⟩

theorem exists_splitAt_of_mem (hp : p.language = .python) (hs : s ∈ p.declared) :
    ∃ n l seen earlier later, p.lines[n]? = some l ∧
      SplitAt n p.declared earlier (declaredOn n seen l (p.lines.drop (n + 1))) later ∧
      seen.classes = classBlocks earlier ∧
      s ∈ declaredOn n seen l (p.lines.drop (n + 1)) := by
  have hspans := spans_of_mem_declared hs
  obtain ⟨n, hn⟩ := Nat.exists_eq_add_of_le' hspans.one_le_startLine
  have hin : n < p.lines.length := by
    have hordered := hspans.startLine_le_endLine
    have hend := hspans.endLine_le
    rw [length_lines]
    omega
  have hl := List.getElem?_eq_getElem hin
  obtain ⟨seen, earlier, later, hsplit, hclasses⟩ := exists_splitAt_line hp hl
  exact ⟨n, _, seen, earlier, later, hl, hsplit, hclasses, hsplit.mem_here hs hn⟩

/-- A declaration takes its line, or the block that begins there. -/
theorem exists_block_of_mem (hp : p.language = .python) (hs : s ∈ p.declared) :
    ∃ n l, p.lines[n]? = some l ∧ HasInk l.text ∧ s.startLine = n + 1 ∧
      (s.endLine = blockEnd .python n (p.lines.drop n) + 1 ∨
        s.endLine = n + 1 ∧ (s.kind = .constant ∨ s.kind = .global)) := by
  obtain ⟨n, l, seen, -, -, hl, -, -, hs⟩ := exists_splitAt_of_mem hp hs
  obtain ⟨hink, hstart, hends⟩ := of_mem_declaredOn hs
  refine ⟨n, l, hl, hink, hstart, ?_⟩
  obtain ⟨hn, rfl⟩ := List.getElem?_eq_some_iff.mp hl
  rw [List.drop_eq_getElem_cons hn]
  exact hends.imp And.left id

/-- A declaration that begins inside another one ends inside it. -/
theorem endLine_le_of_reaches (hp : p.language = .python) (hs : s ∈ p.declared)
    (ht : t ∈ p.declared) (hlt : s.startLine < t.startLine) (hreach : t.startLine ≤ s.endLine) :
    t.endLine ≤ s.endLine := by
  obtain ⟨m, l, -, -, hstart, hend⟩ := exists_block_of_mem hp hs
  obtain ⟨n, l', hl', hink, hstart', hend'⟩ := exists_block_of_mem hp ht
  have hblock : s.endLine = blockEnd .python m (p.lines.drop m) + 1 := by
    rcases hend with hend | ⟨hend, -⟩
    · exact hend
    · omega
  have hnested : blockEnd .python n (p.lines.drop n) ≤ blockEnd .python m (p.lines.drop m) :=
    blockEnd_nested (by omega) hl' hink (by omega)
  rcases hend' with hend' | ⟨hend', -⟩ <;> omega

theorem endLine_eq_of_startLine_eq (hp : p.language = .python) (hs : s ∈ p.declared)
    (ht : t ∈ p.declared) (hstart : s.startLine = t.startLine) (hks : s.kind = .class)
    (hkt : t.kind = .class) : s.endLine = t.endLine := by
  obtain ⟨m, -, -, -, hsm, hms⟩ := exists_block_of_mem hp hs
  obtain ⟨n, -, -, -, htn, hnt⟩ := exists_block_of_mem hp ht
  obtain rfl : m = n := by omega
  have hs := hms.resolve_right fun h => by simp [hks] at h
  have ht := hnt.resolve_right fun h => by simp [hkt] at h
  rw [hs, ht]

/-- The lines of a symbol are among those of another. -/
def LinesInside (s t : Symbol) : Prop := t.startLine ≤ s.startLine ∧ s.endLine ≤ t.endLine

/-- The lines of two declarations are disjoint, or those of one are among those of the other. -/
theorem disjoint_or_linesInside (hp : p.language = .python) (hs : s ∈ p.declared)
    (ht : t ∈ p.declared) :
    s.endLine < t.startLine ∨ t.endLine < s.startLine ∨ LinesInside s t ∨ LinesInside t s := by
  rcases Nat.lt_trichotomy s.startLine t.startLine with hlt | heq | hgt
  · rcases Nat.lt_or_ge s.endLine t.startLine with hapart | hreach
    · exact Or.inl hapart
    · have hend := endLine_le_of_reaches hp hs ht hlt hreach
      exact Or.inr (Or.inr (Or.inr ⟨Nat.le_of_lt hlt, hend⟩))
  · rcases Nat.le_total s.endLine t.endLine with hle | hle
    · exact Or.inr (Or.inr (Or.inl ⟨Nat.le_of_eq heq.symm, hle⟩))
    · exact Or.inr (Or.inr (Or.inr ⟨Nat.le_of_eq heq, hle⟩))
  · rcases Nat.lt_or_ge t.endLine s.startLine with hapart | hreach
    · exact Or.inr (Or.inl hapart)
    · have hend := endLine_le_of_reaches hp ht hs hgt hreach
      exact Or.inr (Or.inr (Or.inl ⟨Nat.le_of_lt hgt, hend⟩))

/-- A class that begins before a line and reaches it. -/
structure ClassAround (p : PlainSource) (line : Nat) (c : Symbol) : Prop where
  declared : c ∈ p.declared
  kind_eq : c.kind = .class
  before : c.startLine < line
  reaches : line ≤ c.endLine

theorem covers_blockOf {n : Nat} (hs : s ∈ p.declared) :
    (blockOf s).covers n = true ↔ s.startLine < n + 1 ∧ n + 1 ≤ s.endLine := by
  have hspans := spans_of_mem_declared hs
  have hfirst := hspans.one_le_startLine
  have hordered := hspans.startLine_le_endLine
  simp only [OpenBlock.covers, Bool.and_eq_true, decide_eq_true_eq]
  simp only [blockOf]
  omega

section Around

variable {n : Nat} {seen : Seen} {earlier here later : List Symbol} {c d : Symbol}

/-- The classes around a line are among those seen before it. -/
theorem ClassAround.covers (hsplit : SplitAt n p.declared earlier here later)
    (hseen : seen.classes = classBlocks earlier) (h : ClassAround p (n + 1) c) :
    blockOf c ∈ seen.classes ∧ (blockOf c).covers n = true := by
  have hearlier : c ∈ earlier := hsplit.mem_earlier h.declared h.before
  rw [hseen, mem_classBlocks, covers_blockOf h.declared]
  exact ⟨⟨c, hearlier, h.kind_eq, rfl⟩, h.before, h.reaches⟩

theorem not_classAround_of_none (hsplit : SplitAt n p.declared earlier here later)
    (hseen : seen.classes = classBlocks earlier) (h : seen.classAround? n = none) :
    ¬ClassAround p (n + 1) c := by
  intro hc
  obtain ⟨hmem, hcovers⟩ := hc.covers hsplit hseen
  exact List.find?_eq_none.mp (Option.map_eq_none_iff.mp h) _ hmem hcovers

/-- The block found around a line is the last that began: those of other classes around it were not
skipped, so they come after it in the list. -/
theorem ClassAround.first_le (hsplit : SplitAt n p.declared earlier here later)
    (hseen : seen.classes = classBlocks earlier) {b : OpenBlock}
    (hfind : seen.classes.find? (·.covers n) = some b) (hd : ClassAround p (n + 1) d) :
    (blockOf d).first ≤ b.first := by
  obtain ⟨-, skipped, older, hclasses, hskipped⟩ := List.find?_eq_some_iff_append.mp hfind
  have hordered : p.declared.Pairwise (·.startLine ≤ ·.startLine) :=
    declaredFrom_ordered p.language 0 {} p.lines
  rw [hsplit.declared_eq] at hordered
  have hblocks := classBlocks_ordered (List.pairwise_append.mp hordered).1
  obtain ⟨hmem, hcovers⟩ := hd.covers hsplit hseen
  rw [← hseen, hclasses] at hblocks
  rw [hclasses] at hmem
  rcases List.mem_append.mp hmem with hskip | hrest
  · exact absurd hcovers (by simpa using hskipped _ hskip)
  · rcases List.mem_cons.mp hrest with heq | holder
    · exact Nat.le_of_eq (congrArg OpenBlock.first heq)
    · exact (List.pairwise_cons.mp (List.pairwise_append.mp hblocks).2.1).1 _ holder

theorem exists_classAround_of_some (hp : p.language = .python)
    (hsplit : SplitAt n p.declared earlier here later)
    (hseen : seen.classes = classBlocks earlier) {name : String}
    (h : seen.classAround? n = some name) :
    ∃ c, ClassAround p (n + 1) c ∧ c.name = name ∧
      ∀ d, ClassAround p (n + 1) d → LinesInside c d := by
  obtain ⟨b, hfind, rfl⟩ := Option.map_eq_some_iff.mp h
  obtain ⟨c, hmem, hkind, rfl⟩ : ∃ c ∈ earlier, c.kind = .class ∧ blockOf c = b := by
    rw [← mem_classBlocks, ← hseen]
    exact List.mem_of_find?_eq_some hfind
  have hc : c ∈ p.declared := hsplit.declared_eq ▸ List.mem_append_left _ hmem
  have hcovers := List.find?_some hfind
  obtain ⟨hbefore, hreaches⟩ := (covers_blockOf hc).mp hcovers
  refine ⟨c, ⟨hc, hkind, hbefore, hreaches⟩, rfl, fun d hd => ?_⟩
  have hle : d.startLine ≤ c.startLine := by
    have hfirst := hd.first_le hsplit hseen hfind
    have hone := (spans_of_mem_declared hc).one_le_startLine
    simp only [blockOf] at hfirst
    omega
  refine ⟨hle, ?_⟩
  rcases Nat.lt_or_eq_of_le hle with hlt | heq
  · have hreach := hd.reaches
    exact endLine_le_of_reaches hp hd.declared hc hlt (by omega)
  · exact Nat.le_of_eq (endLine_eq_of_startLine_eq hp hc hd.declared heq.symm hkind hd.kind_eq)

end Around

/-- A definition is a method iff some class is around it, and its parent is then the innermost. -/
theorem method_iff_classAround (hp : p.language = .python) (hs : s ∈ p.declared)
    (hkind : s.kind = .function ∨ s.kind = .method) :
    (s.kind = .method ↔ ∃ c, ClassAround p s.startLine c) ∧
      (s.kind = .method → ∃ c, ClassAround p s.startLine c ∧ s.parent = some c.name ∧
        ∀ d, ClassAround p s.startLine d → LinesInside c d) := by
  obtain ⟨n, l, seen, earlier, later, -, hsplit, hseen, hs⟩ := exists_splitAt_of_mem hp hs
  obtain ⟨-, hstart, hends⟩ := of_mem_declaredOn hs
  obtain ⟨hroutine, hparent⟩ : s.kind =
      (if (seen.classAround? n).isSome then .method else .function) ∧
        s.parent = seen.classAround? n := by
    rcases hends with ⟨-, hclass | hroutine⟩ | ⟨-, hnames⟩
    · rcases hkind with hkind | hkind <;> simp [hkind] at hclass
    · exact hroutine
    · rcases hkind with hkind | hkind <;> simp [hkind] at hnames
  rw [hstart]
  cases haround : seen.classAround? n with
  | none =>
    rw [haround] at hroutine
    have hfunction : s.kind ≠ .method := by
      rw [hroutine]
      exact SymbolKind.noConfusion
    refine ⟨⟨fun h => absurd h hfunction, ?_⟩, fun h => absurd h hfunction⟩
    rintro ⟨c, hc⟩
    exact absurd hc (not_classAround_of_none hsplit hseen haround)
  | some name =>
    rw [haround] at hroutine hparent
    obtain ⟨c, hc, rfl, hinside⟩ := exists_classAround_of_some hp hsplit hseen haround
    exact ⟨⟨fun _ => ⟨c, hc⟩, fun _ => hroutine⟩, fun _ => ⟨c, hc, hparent, hinside⟩⟩

theorem declared_of_defForm (hp : p.language = .python) {i : Nat} {l : SourceLine} {name : String}
    {cursor : Pattern.Cursor} (hl : p.lines[i]? = some l)
    (hdef : start? Python.defForm l.text = some (name, cursor)) :
    ∃ s, p.declared.filter (·.startLine == i + 1) = [s] ∧ s.name = name ∧
      (s.kind = .function ∨ s.kind = .method) := by
  obtain ⟨seen, earlier, later, hsplit, -⟩ := exists_splitAt_line hp hl
  rw [hsplit.filter_startLine, declaredOn, formOf_of_defForm hdef]
  refine ⟨_, rfl, rfl, ?_⟩
  cases seen.classAround? i with
  | none => exact Or.inl rfl
  | some around => exact Or.inr rfl

/-- In Python blocks nest. Each line that opens with `def` gives one symbol, a method iff a class
that began on an earlier line reaches it. The parent of a method is the innermost such class. -/
theorem declared_python_nested (path text reason : String) :
    let p : PlainSource := ⟨path, .python, text, reason⟩
    (∀ s ∈ p.declared, ∀ t ∈ p.declared,
      s.endLine < t.startLine ∨ t.endLine < s.startLine ∨ LinesInside s t ∨ LinesInside t s) ∧
    (∀ i l name cursor, p.lines[i]? = some l →
      start? Python.defForm l.text = some (name, cursor) →
      ∃ s, p.declared.filter (·.startLine == i + 1) = [s] ∧ s.name = name ∧
        (s.kind = .function ∨ s.kind = .method)) ∧
    ∀ s ∈ p.declared, s.kind = .function ∨ s.kind = .method →
      (s.kind = .method ↔ ∃ c, ClassAround p s.startLine c) ∧
      (s.kind = .method → ∃ c, ClassAround p s.startLine c ∧ s.parent = some c.name ∧
        ∀ d, ClassAround p s.startLine d → LinesInside c d) := by
  intro p
  exact ⟨fun _ hs _ ht => disjoint_or_linesInside rfl hs ht,
    fun _ _ _ _ => declared_of_defForm rfl, fun _ => method_iff_classAround rfl⟩

theorem declared_python_nested_innerClass :
    let p : PlainSource :=
      ⟨"a.py", .python, "class A:\n  class B:\n\n    def m(self):\n      pass\n  x = 1\n", ""⟩
    p.declared.map (fun s => (s.name, s.kind, s.startLine, s.endLine)) =
        [("A", .class, 1, 6), ("B", .class, 2, 5), ("m", .method, 4, 5)] ∧
      ∀ s ∈ p.declared, s.kind = .method → ∃ c, ClassAround p s.startLine c ∧
        s.parent = some c.name ∧ ∀ d, ClassAround p s.startLine d → LinesInside c d := by
  intro p
  refine ⟨by decide +kernel, fun s hs hmethod => ?_⟩
  have hnested := (declared_python_nested p.path p.text p.reason).2.2 s hs (Or.inr hmethod)
  exact hnested.2 hmethod

end Python

end PlainSource
end SymbolHistory
