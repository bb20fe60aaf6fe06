import SymbolHistory.Proofs.Pattern.Captures
import SymbolHistory.Proofs.PlainSource.SpannedText
import SymbolHistory.Proofs.References.Plain

namespace SymbolHistory.PlainSource

/-- A word spells a name: as it is, or up to simple case folding where case is ignored. -/
def Spells (language : Language) (name word : List Char) : Prop :=
  if language = .powerShell then name.map Text.foldCase = word.map Text.foldCase else name = word

/-- A name ends next to this character, or next to the edge of the line. -/
def EndsName (c : Option Char) : Prop := ∀ x ∈ c, Text.isWordChar x = false ∧ x ≠ '$'

/-- A line holds a word that spells a name and has no further characters of a name beside it. -/
def HoldsWord (language : Language) (name line : List Char) : Prop :=
  ∃ before word after, line = before ++ word ++ after ∧ Spells language name word ∧
    EndsName before.getLast? ∧ EndsName after.head?

instance {language : Language} {name word : List Char} : Decidable (Spells language name word) :=
  inferInstanceAs (Decidable
    (if language = .powerShell then name.map Text.foldCase = word.map Text.foldCase
      else name = word))

instance {c : Option Char} : Decidable (EndsName c) :=
  inferInstanceAs (Decidable (∀ x ∈ c, Text.isWordChar x = false ∧ x ≠ '$'))

theorem isBoundary_iff (c : Option Char) : isBoundary c = true ↔ EndsName c := by
  cases c <;> simp [isBoundary, EndsName, isNameChar]

theorem sameName_iff (language : Language) (a b : String) :
    sameName language a b = true ↔ language.EqualNames a b := by
  cases language <;>
    simp [sameName, Language.EqualNames, Language.ignoresCase, Text.sameIgnoringAsciiCase,
      Text.eqIgnoringAsciiCase, Text.lowerAscii]

theorem spells_nil {language : Language} {word : List Char} :
    Spells language [] word ↔ word = [] := by
  cases language <;> simp [Spells, eq_comm]

theorem spells_cons {language : Language} {n : Char} {name word : List Char} :
    Spells language (n :: name) word ↔
      ∃ c rest, word = c :: rest ∧ sameChar language n c = true ∧ Spells language name rest := by
  cases word with
  | nil => cases language <;> simp [Spells]
  | cons c rest =>
    have hcons : Spells language (n :: name) (c :: rest) ↔
        sameChar language n c = true ∧ Spells language name rest := by
      cases language <;> simp [Spells, sameChar, Language.ignoresCase, Text.eqFolded]
    rw [hcons]
    constructor
    · intro h
      exact ⟨c, rest, rfl, h⟩
    · rintro ⟨c', rest', hword, h⟩
      obtain ⟨rfl, rfl⟩ := List.cons.inj hword
      exact h

section Scan

variable {language : Language} {name before rest after : List Char}

theorem afterName?_eq_some : afterName? (sameChar language) name rest = some after ↔
    ∃ word, rest = word ++ after ∧ Spells language name word := by
  induction name generalizing rest with
  | nil =>
    simp only [afterName?, spells_nil, Option.some.injEq]
    simp
  | cons n name ih =>
    cases rest with
    | nil =>
      simp only [afterName?, spells_cons]
      simp
    | cons c rest =>
      simp only [afterName?, spells_cons]
      constructor
      · intro h
        split at h
        · next hsame =>
          obtain ⟨word, rfl, hword⟩ := ih.mp h
          exact ⟨c :: word, rfl, c, word, rfl, hsame, hword⟩
        · cases h
      · rintro ⟨-, hrest, c', word, rfl, hsame, hword⟩
        obtain ⟨rfl, rfl⟩ := List.cons.inj hrest
        rw [if_pos hsame]
        exact ih.mpr ⟨word, rfl, hword⟩

theorem wholeAt?_eq_some : wholeAt? (sameChar language) name before rest = some after ↔
    (∃ word, rest = word ++ after ∧ Spells language name word) ∧ EndsName before.head? ∧
      EndsName after.head? := by
  rw [wholeAt?, Option.filter_eq_some_iff, Bool.and_eq_true, isBoundary_iff, isBoundary_iff,
    afterName?_eq_some]

/-- The scan finds something iff a whole word lies ahead. -/
theorem wholeWordFrom?_isSome :
    (wholeWordFrom? (sameChar language) name before rest).isSome ↔
      ∃ passed word after, rest = passed ++ word ++ after ∧ Spells language name word ∧
        EndsName (passed.reverse ++ before).head? ∧ EndsName after.head? := by
  induction rest generalizing before with
  | nil =>
    rw [wholeWordFrom?, Option.isSome_map, Option.isSome_iff_exists]
    constructor
    · rintro ⟨after, h⟩
      obtain ⟨⟨word, hword, hspells⟩, hbefore, hafter⟩ := wholeAt?_eq_some.mp h
      exact ⟨[], word, after, hword, hspells, hbefore, hafter⟩
    · rintro ⟨passed, word, after, hrest, hspells, hbefore, hafter⟩
      obtain ⟨hnil, rfl⟩ := List.append_eq_nil_iff.mp hrest.symm
      obtain ⟨rfl, rfl⟩ := List.append_eq_nil_iff.mp hnil
      exact ⟨[], wholeAt?_eq_some.mpr ⟨⟨[], rfl, hspells⟩, hbefore, hafter⟩⟩
  | cons c rest ih =>
    rw [wholeWordFrom?]
    constructor
    · intro h
      split at h
      · next after hwhole =>
        obtain ⟨⟨word, hword, hspells⟩, hbefore, hafter⟩ := wholeAt?_eq_some.mp hwhole
        exact ⟨[], word, after, hword, hspells, hbefore, hafter⟩
      · obtain ⟨passed, word, after, rfl, hspells, hbefore, hafter⟩ := ih.mp h
        exact ⟨c :: passed, word, after, rfl, hspells, by simpa using hbefore, hafter⟩
    · rintro ⟨passed, word, after, hrest, hspells, hbefore, hafter⟩
      split
      · rfl
      · next hnone =>
        cases passed with
        | nil =>
          have hwhole : wholeAt? (sameChar language) name before (c :: rest) = some after :=
            wholeAt?_eq_some.mpr ⟨⟨word, hrest, hspells⟩, hbefore, hafter⟩
          rw [hwhole] at hnone
          cases hnone
        | cons x passed =>
          obtain ⟨rfl, rfl⟩ := List.cons.inj hrest
          exact ih.mpr ⟨passed, word, after, rfl, hspells, by simpa using hbefore, hafter⟩

theorem wholeWord?_isSome (language : Language) (name line : List Char) :
    (wholeWord? language name line).isSome ↔ HoldsWord language name line := by
  rw [wholeWord?, Option.isSome_map, wholeWordFrom?_isSome]
  simp only [List.append_nil, List.head?_reverse]
  rfl

instance : Decidable (HoldsWord language name rest) :=
  decidable_of_iff _ (wholeWord?_isSome language name rest)

end Scan

section Leftmost

open Pattern

variable {same : Char → Char → Bool} {name before rest line : List Char}

def nameForm (same : Char → Char → Bool) (name : List Char) : Pattern :=
  name.foldr (fun n p => seq (one (same n)) p) empty

def edgeForm : Pattern := one fun c => !isNameChar c

/-- A name, kept as the first group, and a character after it or the end of the line. -/
def wordForm (same : Char → Char → Bool) (name : List Char) : Pattern :=
  seq (group 1 (nameForm same name)) (alt edgeForm finish)

/-- The leftmost match of a name with a character or an edge of the line on each side. -/
def boundedMatch? (same : Char → Char → Bool) (name line : List Char) : Option Cursor :=
  ((wordForm same name).matchStart? line).or ((seq edgeForm (wordForm same name)).search? line)

/-- The text of a line before and after the first group of a match. -/
def around? (line : List Char) (c : Cursor) : Option (List Char × List Char) :=
  (c.captures.find? (·.number == 1)).map fun g =>
    (line.take (line.length - g.source.length), g.source.drop g.size)

/-- At a place either nothing is found by scan and by match, or both find a name with `before` in
front of it. -/
def FindsSame (line before : List Char) (whole : Option (List Char)) (ends : List Cursor) : Prop :=
  whole = none ∧ ends = [] ∨
    ∃ after c, whole = some after ∧ ends = [c] ∧ around? line c = some (before.reverse, after)

theorem ends_nameForm (c : Cursor) : ∃ passed, (nameForm same name).ends c =
    ((afterName? same name c.rest).map fun after =>
      (⟨c.position + name.length, passed, after, c.captures⟩ : Cursor)).toList := by
  induction name generalizing c with
  | nil => exact ⟨c.passed, rfl⟩
  | cons n name ih =>
    obtain ⟨position, passed, rest, captures⟩ := c
    cases rest with
    | nil => exact ⟨none, rfl⟩
    | cons x rest =>
      obtain ⟨passed', hends⟩ := ih ⟨position + 1, some x, rest, captures⟩
      refine ⟨passed', ?_⟩
      have hstep : (nameForm same (n :: name)).ends ⟨position, passed, x :: rest, captures⟩ =
          if same n x then
            (nameForm same name).ends ⟨position + 1, some x, rest, captures⟩ else [] := by
        change ((if same n x then _ else _ : List Cursor).flatMap _) = _
        split <;> simp [Cursor.advance, nameForm]
      rw [hstep, afterName?, hends]
      split
      · simp only [List.length_cons, Nat.add_right_comm position 1, Nat.add_assoc]
      · rfl

theorem afterName?_eq_drop {after : List Char} (h : afterName? same name rest = some after) :
    after = rest.drop name.length := by
  induction name generalizing rest with
  | nil => exact (Option.some.inj h).symm
  | cons n name ih =>
    cases rest with
    | nil => cases h
    | cons c rest =>
      rw [afterName?] at h
      split at h
      · exact ih h
      · cases h

theorem around?_eq {c : Cursor} {after : List Char}
    (hcaptures : c.captures = [⟨1, rest, name.length⟩]) (hline : line = before.reverse ++ rest)
    (hafter : afterName? same name rest = some after) :
    around? line c = some (before.reverse, after) := by
  have hbefore : line.take (line.length - rest.length) = before.reverse := by
    rw [hline, List.length_append, Nat.add_sub_cancel, List.take_left]
  rw [around?, hcaptures, afterName?_eq_drop hafter, ← hbefore]
  rfl

/-- After a boundary a name matches with what is beside it iff it stands whole there. -/
theorem findsSame_wordForm (same : Char → Char → Bool) (name : List Char) (c : Cursor)
    (hcaptures : c.captures = []) (hline : line = before.reverse ++ c.rest)
    (hbefore : isBoundary before.head? = true) :
    FindsSame line before (wholeAt? same name before c.rest) ((wordForm same name).ends c) := by
  obtain ⟨passed, hends⟩ : ∃ passed, (nameForm same name).ends c = _ := ends_nameForm c
  rw [wholeAt?, wordForm, Pattern.ends, Pattern.ends, hends, hcaptures]
  cases hafter : afterName? same name c.rest with
  | none => exact Or.inl ⟨rfl, rfl⟩
  | some after =>
    have hsize : c.position + name.length - c.position = name.length := Nat.add_sub_cancel_left ..
    cases after with
    | nil =>
      refine Or.inr ⟨[], c.capture 1 ⟨_, passed, [], []⟩, ?_, rfl, ?_⟩
      · rw [Option.filter_some, hbefore]
        rfl
      · exact around?_eq (by rw [Cursor.capture, hsize]) hline hafter
    | cons x after =>
      by_cases hx : isNameChar x = true
      · refine Or.inl ⟨?_, ?_⟩
        · simp [isBoundary, hx]
        · simp [Cursor.capture, Pattern.ends, edgeForm, hx]
      · let named := c.capture 1 ⟨c.position + name.length, passed, x :: after, []⟩
        refine Or.inr ⟨x :: after, named.advance x after, ?_, ?_, ?_⟩
        · rw [Option.filter_some, hbefore]
          simp [isBoundary, hx]
        · simp [named, Cursor.capture, Pattern.ends, edgeForm, hx]
        · refine around?_eq ?_ hline hafter
          simp only [named, Cursor.advance, Cursor.capture, hsize]

theorem findsSame_edgeForm_wordForm (same : Char → Char → Bool) (name : List Char) {x : Char}
    (passed : Option Char) (hline : line = (x :: before).reverse ++ rest) :
    FindsSame line (x :: before) (wholeAt? same name (x :: before) rest)
      ((seq edgeForm (wordForm same name)).ends ⟨0, passed, x :: rest, []⟩) := by
  by_cases hx : isNameChar x = true
  · left
    constructor
    · simp [wholeAt?, isBoundary, hx]
    · simp [Pattern.ends, edgeForm, hx]
  · have hends : (seq edgeForm (wordForm same name)).ends ⟨0, passed, x :: rest, []⟩ =
        (wordForm same name).ends ⟨1, some x, rest, []⟩ := by
      simp [Pattern.ends, edgeForm, Cursor.advance, hx]
    rw [hends]
    have hbefore : isBoundary (x :: before).head? = true := by simpa [isBoundary] using hx
    exact findsSame_wordForm same name ⟨1, some x, rest, []⟩ rfl hline hbefore

theorem wholeWordFrom?_of_some {after : List Char}
    (h : wholeAt? same name before rest = some after) :
    wholeWordFrom? same name before rest = some (before, after) := by
  cases rest <;> simp [wholeWordFrom?, h]

theorem wholeWordFrom?_eq_searchFrom? {x : Char} (passed : Option Char)
    (hline : line = (x :: before).reverse ++ rest) :
    (wholeWordFrom? same name (x :: before) rest).map (fun (b, a) => (b.reverse, a)) =
      ((seq edgeForm (wordForm same name)).searchFrom? passed (x :: rest)).bind (around? line) := by
  induction rest generalizing x before passed with
  | nil =>
    rw [searchFrom?_cons, searchFrom?_nil]
    rcases findsSame_edgeForm_wordForm same name passed hline with
      ⟨hnone, hends⟩ | ⟨after, c, hsome, hends, haround⟩
    · rw [wholeWordFrom?, hnone, hends]
      rfl
    · rw [wholeWordFrom?_of_some hsome, hends]
      exact haround.symm
  | cons y rest ih =>
    rw [searchFrom?_cons]
    rcases findsSame_edgeForm_wordForm same name passed hline with
      ⟨hnone, hends⟩ | ⟨after, c, hsome, hends, haround⟩
    · rw [wholeWordFrom?, hnone, hends]
      exact ih (some x) (by simpa using hline)
    · rw [wholeWordFrom?_of_some hsome, hends]
      exact haround.symm

/-- The scan finds the place that the leftmost match with a boundary on each side captures. -/
theorem wholeWord?_eq_boundedMatch? (language : Language) (name line : List Char) :
    wholeWord? language name line =
      (boundedMatch? (sameChar language) name line).bind (around? line) := by
  have hstart : FindsSame line [] (wholeAt? (sameChar language) name [] line)
      ((wordForm (sameChar language) name).ends (start line)) :=
    findsSame_wordForm _ name (start line) rfl rfl rfl
  rw [wholeWord?, boundedMatch?, matchStart?_eq]
  rcases hstart with ⟨hnone, hends⟩ | ⟨after, c, hsome, hends, haround⟩
  · rw [hends]
    cases line with
    | nil =>
      rw [wholeWordFrom?, hnone, search?, searchFrom?_nil]
      rfl
    | cons x rest =>
      rw [wholeWordFrom?, hnone]
      exact wholeWordFrom?_eq_searchFrom? none rfl
  · rw [wholeWordFrom?_of_some hsome, hends]
    exact haround.symm

end Leftmost

section References

variable {p : PlainSource} {language : Language} {declared symbols : List Symbol} {name : String}
  {kind : SymbolKind} {r r' : Reference}

theorem exists_referenceOn? {number : Nat} {line : List Char} :
    (∃ r, referenceOn? language declared name kind number line = some r) ↔
      HoldsWord language name.toList line ∧
        ∀ d ∈ declared, d.startLine = number → ¬language.EqualNames d.bareName name := by
  have hdeclared : (declared.any fun d =>
        d.startLine == number && sameName language d.bareName name) = false ↔
      ∀ d ∈ declared, d.startLine = number → ¬language.EqualNames d.bareName name := by
    simp only [← sameName_iff]
    simp
  rw [← wholeWord?_isSome, ← hdeclared]
  constructor
  · rintro ⟨r, h⟩
    refine ⟨?_, (of_referenceOn? h).2.2⟩
    obtain ⟨found, hfound, -⟩ := Option.bind_eq_some_iff.mp h
    exact Option.isSome_iff_exists.mpr ⟨found, hfound⟩
  · rintro ⟨hsome, hdeclared⟩
    obtain ⟨found, hfound⟩ := Option.isSome_iff_exists.mp hsome
    rw [referenceOn?, hfound, Option.bind_some, hdeclared]
    exact ⟨_, rfl⟩

theorem mem_referencesFrom {number : Nat} {lines : List SourceLine} :
    r ∈ referencesFrom language declared name kind number lines ↔
      ∃ k l, lines[k]? = some l ∧
        referenceOn? language declared name kind (number + k) l.text = some r := by
  induction lines generalizing number with
  | nil => simp [referencesFrom]
  | cons l rest ih =>
    have hshift (k : Nat) : number + (k + 1) = number + 1 + k := by omega
    rw [referencesFrom, List.mem_append, Option.mem_toList, ih]
    constructor
    · rintro (h | ⟨k, l', hl', h⟩)
      · exact ⟨0, l, rfl, h⟩
      · exact ⟨k + 1, l', hl', by rw [hshift, h]⟩
    · rintro ⟨k, l', hl', h⟩
      cases k with
      | zero =>
        obtain rfl := Option.some.inj hl'
        exact Or.inl h
      | succ k => exact Or.inr ⟨k, l', hl', by rw [← hshift, h]⟩

theorem exists_mem_namesOf : (∃ kind, (name, kind) ∈ namesOf symbols) ↔
    ∃ s ∈ symbols, s.bareName = name := by
  constructor
  · rintro ⟨kind, h⟩
    obtain ⟨⟨s, hs, hname, -⟩, -⟩ := mem_namesOf.mp h
    exact ⟨s, hs, hname⟩
  · rintro ⟨s, hs, rfl⟩
    have hname : s.bareName ∈ (namesOf symbols).map (·.1) := by
      rw [namesOf, List.map_map]
      refine mem_map_distinctBy.mpr (List.mem_map.mpr ⟨⟨s.bareName, s.kind⟩, ?_, rfl⟩)
      exact List.mem_mergeSort.mpr (List.mem_map.mpr ⟨s, hs, rfl⟩)
    obtain ⟨⟨name, kind⟩, hmem, rfl⟩ := List.mem_map.mp hname
    exact ⟨kind, hmem⟩

/-- A name is referred to on a line at most once. -/
theorem eq_of_mem_references (hr : r ∈ p.references symbols) (hr' : r' ∈ p.references symbols)
    (hsymbol : r.symbol = r'.symbol) (hline : r.line = r'.line) : r = r' := by
  obtain ⟨kind, hkind, hr⟩ := mem_references.mp hr
  obtain ⟨kind', hkind', hr'⟩ := mem_references.mp hr'
  rw [← hsymbol] at hkind' hr'
  obtain rfl : kind = kind' := by
    obtain ⟨⟨s, hs, hname, rfl⟩, hleast⟩ := mem_namesOf.mp hkind
    obtain ⟨⟨t, ht, hname', rfl⟩, hleast'⟩ := mem_namesOf.mp hkind'
    exact SymbolKind.rank_injective
      (Nat.le_antisymm (hleast t ht hname') (hleast' s hs hname))
  obtain ⟨k, l, hl, hr⟩ := mem_referencesFrom.mp hr
  obtain ⟨k', l', hl', hr'⟩ := mem_referencesFrom.mp hr'
  obtain rfl : k = k' := by
    have hk := (of_referenceOn? hr).2.1
    have hk' := (of_referenceOn? hr').2.1
    omega
  obtain rfl := Option.some.inj (hl.symm.trans hl')
  exact Option.some.inj (hr.symm.trans hr')

theorem references_increasing (p : PlainSource) (symbols : List Symbol) :
    (p.references symbols).Pairwise fun a b =>
      a.line < b.line ∨ a.line = b.line ∧ a.symbol < b.symbol := by
  refine (references_before p symbols).imp_of_mem fun ha hb hbefore => ?_
  rcases hbefore.line_lt_or_symbol_le with hlt | ⟨hline, hlt | hsymbol⟩
  · exact Or.inl hlt
  · exact Or.inr ⟨hline, hlt⟩
  · -- One reference does not come before itself.
    obtain rfl := eq_of_mem_references ha hb hsymbol hline
    exact absurd hbefore (Std.Irrefl.irrefl _)

theorem exists_reference_iff {line : Nat} :
    (∃ r ∈ p.references symbols, r.symbol = name ∧ r.line = line) ↔
      (∃ s ∈ symbols, s.bareName = name) ∧
      (∃ i part, line = i + 1 ∧ p.parts[i]? = some part ∧
        HoldsWord p.language name.toList (Text.dropFinal '\r' part)) ∧
      ∀ d ∈ p.declared, d.startLine = line → ¬p.language.EqualNames d.bareName name := by
  rw [← exists_mem_namesOf]
  constructor
  · rintro ⟨r, hr, rfl, rfl⟩
    obtain ⟨kind, hkind, hr⟩ := mem_references.mp hr
    obtain ⟨i, l, hl, hr⟩ := mem_referencesFrom.mp hr
    obtain ⟨hholds, hdeclared⟩ := exists_referenceOn?.mp ⟨r, hr⟩
    have hline := (of_referenceOn? hr).2.1
    rw [getElem?_lines, Option.map_eq_some_iff] at hl
    obtain ⟨part, hpart, rfl⟩ := hl
    rw [hline]
    exact ⟨⟨kind, hkind⟩, ⟨i, part, Nat.add_comm 1 i, hpart, hholds⟩, hdeclared⟩
  · rintro ⟨⟨kind, hkind⟩, ⟨i, part, rfl, hpart, hholds⟩, hdeclared⟩
    have hl := getElem?_lines p i
    rw [hpart, Option.map_some] at hl
    obtain ⟨r, hr⟩ : ∃ r, referenceOn? p.language p.declared name kind (i + 1)
        (Text.dropFinal '\r' part) = some r := exists_referenceOn?.mpr ⟨hholds, hdeclared⟩
    obtain ⟨rfl, hline, -⟩ := of_referenceOn? hr
    refine ⟨r, mem_references.mpr ⟨kind, hkind, mem_referencesFrom.mpr ⟨i, _, hl, ?_⟩⟩, rfl, hline⟩
    rw [Nat.add_comm 1 i]
    exact hr

/-- The references in a plain source are the whole words on the lines that do not declare them, each
name at most once on a line, by line and name. -/
theorem references_whole_words (p : PlainSource) (symbols : List Symbol) :
    (∀ name line, (∃ r ∈ p.references symbols, r.symbol = name ∧ r.line = line) ↔
      (∃ s ∈ symbols, s.bareName = name) ∧
      (∃ i part, line = i + 1 ∧ p.parts[i]? = some part ∧
        HoldsWord p.language name.toList (Text.dropFinal '\r' part)) ∧
      ∀ d ∈ p.declared, d.startLine = line → ¬p.language.EqualNames d.bareName name) ∧
    ((p.references symbols).map fun r => (r.symbol, r.line)).Nodup ∧
    (p.references symbols).Pairwise fun a b =>
      a.line < b.line ∨ a.line = b.line ∧ a.symbol < b.symbol := by
  have hincreasing := references_increasing p symbols
  refine ⟨fun _ _ => exists_reference_iff, ?_, hincreasing⟩
  rw [List.Nodup, List.pairwise_map]
  refine hincreasing.imp fun h heq => ?_
  obtain ⟨hsymbol, hline⟩ := Prod.mk.inj heq
  rcases h with h | ⟨-, h⟩
  · omega
  · rw [hsymbol] at h
    exact String.lt_irrefl _ h

/-- A script that calls two functions in letters of another case, one of them a Kelvin sign. -/
def foldedCalls : PlainSource :=
  ⟨"get.ps1", .powerShell, "function GET-ITEM \x7b\n  get-item\n\x7d\nGet-Items get-\u212ait\n", ""⟩

def foldedTargets : List Symbol :=
  [⟨"Get-Item", .function, 1, 3, .powerShell, none, none, 0, 32, true⟩,
    ⟨"Get-Kit", .function, 1, 3, .powerShell, none, none, 0, 32, true⟩]

/-- The calls are found; the declaring line and the longer name are not. -/
theorem references_foldedCalls :
    (∃ r ∈ foldedCalls.references foldedTargets, r.symbol = "Get-Item" ∧ r.line = 2) ∧
    (∃ r ∈ foldedCalls.references foldedTargets, r.symbol = "Get-Kit" ∧ r.line = 4) ∧
    (¬∃ r ∈ foldedCalls.references foldedTargets, r.symbol = "Get-Item" ∧ r.line = 1) ∧
    ¬∃ r ∈ foldedCalls.references foldedTargets, r.symbol = "Get-Item" ∧ r.line = 4 := by
  obtain ⟨hiff, -, -⟩ := references_whole_words foldedCalls foldedTargets
  have hdeclared : foldedCalls.declared.map (fun d => (d.startLine, d.bareName)) =
      [(1, "GET-ITEM")] := by decide +kernel
  have hfree {line : Nat} (hline : line ≠ 1) (name : String) : ∀ d ∈ foldedCalls.declared,
      d.startLine = line → ¬Language.powerShell.EqualNames d.bareName name := by
    intro d hd hstart
    have hmem := List.mem_map_of_mem (f := fun d => (d.startLine, d.bareName)) hd
    rw [hdeclared, List.mem_singleton] at hmem
    exact absurd (hstart.symm.trans (Prod.mk.inj hmem).1) hline
  refine ⟨(hiff "Get-Item" 2).mpr ⟨⟨_, List.mem_cons_self, by decide +kernel⟩,
      ⟨1, "  get-item".toList, rfl, by decide +kernel, by decide +kernel⟩, hfree (by decide) _⟩,
    (hiff "Get-Kit" 4).mpr ⟨⟨_, List.mem_cons_of_mem _ List.mem_cons_self, by decide +kernel⟩,
      ⟨3, "Get-Items get-\u212ait".toList, rfl, by decide +kernel, by decide +kernel⟩,
      hfree (by decide) _⟩, ?_, ?_⟩
  · intro h
    obtain ⟨d, hd, heq⟩ : ∃ d ∈ foldedCalls.declared,
        (d.startLine, d.bareName) = (1, "GET-ITEM") := by
      rw [← List.mem_map, hdeclared]
      exact List.mem_singleton_self _
    obtain ⟨hline, hname⟩ := Prod.mk.inj heq
    refine ((hiff "Get-Item" 1).mp h).2.2 d hd hline ?_
    rw [hname]
    decide +kernel
  · intro h
    obtain ⟨-, ⟨i, part, hi, hpart, hholds⟩, -⟩ := (hiff "Get-Item" 4).mp h
    obtain rfl : i = 3 := by omega
    obtain rfl : "Get-Items get-\u212ait".toList = part :=
      Option.some.inj (Eq.trans (by decide +kernel) hpart)
    exact absurd hholds (by decide +kernel)

end References

end SymbolHistory.PlainSource
