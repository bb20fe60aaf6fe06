import SymbolHistory.Proofs.Extraction.BareName
import SymbolHistory.Proofs.PlainSource.LineAddresses
import SymbolHistory.Proofs.Text.Pieces

namespace SymbolHistory

theorem getElem?_sourceLinesFrom (offset : Nat) (parts : List (List Char)) (k : Nat) :
    (sourceLinesFrom offset parts)[k]? = parts[k]?.map fun part =>
      ⟨Text.dropFinal '\r' part,
        offset + Text.byteLength ((parts.take k).flatMap (· ++ ['\n'])),
        offset + Text.byteLength (Text.join ['\n'] (parts.take (k + 1)))⟩ := by
  induction parts generalizing offset k with
  | nil => rfl
  | cons part rest ih =>
    cases k with
    | zero => simp [sourceLinesFrom, Text.join]
    | succ k =>
      rw [sourceLinesFrom, List.getElem?_cons_succ, List.getElem?_cons_succ, ih]
      refine Option.map_congr fun next hnext => ?_
      have hne : rest.take (k + 1) ≠ [] := by
        intro hnil
        rw [List.take_eq_nil_iff] at hnil
        simp [hnil.resolve_left (Nat.succ_ne_zero k)] at hnext
      have hfeed : Text.byteLength ['\n'] = 1 := rfl
      rw [List.take_succ_cons, List.take_succ_cons, Text.join_cons part hne, List.flatMap_cons]
      simp only [Text.byteLength_append, hfeed, Nat.add_assoc]

theorem length_sourceLinesFrom (offset : Nat) (parts : List (List Char)) :
    (sourceLinesFrom offset parts).length = parts.length := by
  induction parts generalizing offset with
  | nil => rfl
  | cons part rest ih => rw [sourceLinesFrom, List.length_cons, List.length_cons, ih]

/-- A block from line `i` on ends with the line it began on, with a line that is not empty, or with
the last line there is. -/
def EndsInText (start i : Nat) (lines : List SourceLine) (last : Nat) : Prop :=
  last = start ∨ i + lines.length ≤ last + 1 ∨
    ∃ k l, lines[k]? = some l ∧ last = i + k ∧ l.text ≠ []

namespace EndsInText

variable {start i last : Nat} {l : SourceLine} {lines : List SourceLine}

theorem here (h : l.text ≠ []) : EndsInText start i (l :: lines) i :=
  Or.inr (Or.inr ⟨0, l, rfl, rfl, h⟩)

theorem cons (h : EndsInText start (i + 1) lines last) : EndsInText start i (l :: lines) last := by
  rcases h with h | h | ⟨k, l', hl', rfl, hne⟩
  · exact Or.inl h
  · refine Or.inr (Or.inl ?_)
    rw [List.length_cons]
    omega
  · exact Or.inr (Or.inr ⟨k + 1, l', hl', by omega, hne⟩)

end EndsInText

/-- Where braces balance again there is one, so the line is not empty. -/
theorem braceEndFrom_endsInText {start i : Nat} {depth : Int} {opened : Bool}
    (hopen : ¬(opened && depth ≤ 0) = true) (lines : List SourceLine) :
    EndsInText start i lines (braceEndFrom start i depth opened lines) := by
  induction lines generalizing i depth opened with
  | nil =>
    refine Or.inr (Or.inl ?_)
    simp only [braceEndFrom, List.length_nil]
    omega
  | cons l rest ih =>
    rw [braceEndFrom]
    split
    · next hclosed =>
      apply EndsInText.here
      intro hempty
      simp [hempty] at hclosed
      simp [hclosed] at hopen
    · next hstill =>
      split
      · exact Or.inl rfl
      · exact (ih hstill).cons

/-- By indentation a block ends with a line known to be in it or one with something on it. -/
theorem indentEndFrom_endsInText (base last i : Nat) (lines : List SourceLine) :
    EndsInText last i lines (indentEndFrom base last i lines) := by
  induction lines generalizing last i with
  | nil => exact Or.inl rfl
  | cons l rest ih =>
    rw [indentEndFrom]
    split
    · exact (ih last (i + 1)).cons
    · next hink =>
      split
      · exact Or.inl rfl
      · have hne : l.text ≠ [] := by
          intro hempty
          simp [hempty, Text.trim, Text.trimStart, Text.trimEnd, Text.dropEndWhile] at hink
        rcases ih i (i + 1) with h | h
        · rw [h]
          exact .here hne
        · exact EndsInText.cons (Or.inr h)

theorem blockEnd_endsInText (language : Language) (i : Nat) (l : SourceLine)
    (rest : List SourceLine) : EndsInText i i (l :: rest) (blockEnd language i (l :: rest)) := by
  unfold blockEnd
  split
  · next l' rest' heq =>
    obtain ⟨rfl, rfl⟩ := List.cons.inj heq
    exact (indentEndFrom_endsInText _ i (i + 1) rest).cons
  · exact braceEndFrom_endsInText (by simp) _

namespace PlainSource

variable {language : Language} {i : Nat} {s : Symbol}

def LineForm.declaredNames : LineForm → List String
  | .class name _ => [name]
  | .routine _ name _ _ => [name]
  | .names _ listed => listed

section Forms

variable {line : List Char} {around : Option String} {nested : Bool}

/-- The names of a form stand on a line. -/
def LineForm.StandsOn (line : List Char) (f : LineForm) : Prop :=
  ∀ name ∈ f.declaredNames, name.toList <:+: line

theorem LineForm.StandsOn.of_name {f : LineForm} {name : String} (hf : f.declaredNames = [name])
    (h : name.toList <:+: line) : f.StandsOn line := by
  intro n hn
  rw [hf, List.mem_singleton] at hn
  exact hn ▸ h

theorem standsOn_noNames {kind : SymbolKind} : (LineForm.names kind []).StandsOn line := by
  intro n hn
  cases hn

theorem standsOn_constantLine {name : String} (h : name.toList <:+: line) :
    (constantLine name).StandsOn line := by
  unfold constantLine
  split
  · exact standsOn_noNames
  · exact .of_name rfl h

theorem standsOn_listedNames {list : String} (h : list.toList <:+: line) :
    (LineForm.names .global (listedNames list)).StandsOn line := by
  intro n hn
  obtain ⟨t, ht, rfl⟩ := List.mem_map.mp hn
  obtain ⟨piece, hpiece, rfl⟩ := List.mem_map.mp (List.mem_filter.mp ht).1
  rw [String.toList_ofList]
  exact (Text.trim_infix piece).trans ((Text.infix_of_mem_pieces hpiece).trans h)

theorem infix_of_start? {form : Pattern} {found : String × Pattern.Cursor}
    (h : found ∈ start? form line) : found.1.toList <:+: line := by
  obtain ⟨d, hd, h⟩ := Option.bind_eq_some_iff.mp h
  obtain ⟨s, hs, rfl⟩ := Option.map_eq_some_iff.mp h
  exact Pattern.infix_of_matchStart? hd hs

theorem methodLine_standsOn {form : Pattern} {isControl : String → Bool} :
    ∀ f ∈ methodLine form isControl around line, f.StandsOn line := by
  intro f h
  obtain ⟨cls, -, h⟩ := Option.bind_eq_some_iff.mp h
  obtain ⟨⟨name, c⟩, hstart, h⟩ := Option.bind_eq_some_iff.mp h
  dsimp only at h
  split at h
  · cases h
  · cases h
    exact .of_name rfl (infix_of_start? hstart)

theorem shellFunctionLine_standsOn : ∀ f ∈ shellFunctionLine line, f.StandsOn line := by
  intro f h
  obtain ⟨c, hc, h⟩ := Option.bind_eq_some_iff.mp h
  obtain ⟨name, hname, rfl⟩ := Option.map_eq_some_iff.mp h
  rcases Option.or_eq_some_iff.mp hname with hname | ⟨-, hname⟩
  · exact .of_name rfl (Pattern.infix_of_matchStart? hc hname)
  · exact .of_name rfl (Pattern.infix_of_matchStart? hc hname)

theorem readOnlyLine_standsOn : ∀ f ∈ readOnlyLine nested line, f.StandsOn line := by
  intro f h
  unfold readOnlyLine at h
  split at h
  · split at h
    · next name hname =>
      obtain ⟨c, hc, hname⟩ := Option.bind_eq_some_iff.mp hname
      obtain rfl := Option.some.inj h
      split
      · exact standsOn_noNames
      · exact standsOn_constantLine (Pattern.infix_of_search? hc hname)
    · obtain rfl := Option.some.inj h
      exact standsOn_noNames
  · cases h

/-- Whatever a line declares is named on it. -/
theorem formOf_standsOn : ∀ f ∈ formOf language nested around line, f.StandsOn line := by
  have hclass {form : Pattern} : ∀ f ∈ classLine form line, f.StandsOn line :=
    forall_map fun _ h => .of_name rfl (infix_of_start? h)
  have hfunction {form : Pattern} : ∀ f ∈ functionLine form line, f.StandsOn line :=
    forall_map fun _ h => .of_name rfl (infix_of_start? h)
  have hglobal {form : Pattern} : ∀ f ∈ globalLine form line, f.StandsOn line :=
    forall_map fun _ h => .of_name rfl (infix_of_start? h)
  have hconstant {form : Pattern} :
      ∀ f ∈ (start? form line).map (fun found => constantLine found.1), f.StandsOn line :=
    forall_map fun _ h => standsOn_constantLine (infix_of_start? h)
  cases language with
  | javaScript | typeScript =>
    exact forall_orElse hclass <| forall_orElse hfunction <| forall_orElse hfunction <|
      forall_orElse hconstant <| forall_orElse hglobal methodLine_standsOn
  | python =>
    refine forall_orElse hclass <| forall_orElse (forall_map fun _ h => ?_) <|
      forall_orElse hconstant <| forall_map fun _ h => ?_
    · exact .of_name rfl (infix_of_start? h)
    · exact standsOn_listedNames (infix_of_start? h)
  | shell =>
    refine forall_orElse shellFunctionLine_standsOn <|
      forall_orElse (forall_map fun _ h => ?_) hglobal
    dsimp only
    split
    · exact standsOn_noNames
    · exact standsOn_constantLine (infix_of_start? h)
  | powerShell =>
    exact forall_orElse hclass <| forall_orElse hfunction <| forall_orElse readOnlyLine_standsOn <|
      forall_orElse hglobal methodLine_standsOn
  | r =>
    refine forall_orElse hfunction <| forall_orElse hglobal <|
      forall_orElse (forall_map fun _ h => ?_) hconstant
    obtain ⟨c, hc, h⟩ := Option.bind_eq_some_iff.mp h
    exact .of_name rfl (Pattern.infix_of_search? hc h)

end Forms

/-- Every declaration is found on a line, by the form of that line. -/
theorem exists_line_of_mem_declaredFrom {seen : Seen} {lines : List SourceLine}
    (h : s ∈ declaredFrom language i seen lines) :
    ∃ before l rest nested around, lines = before ++ l :: rest ∧
      s ∈ symbolsOf language (i + before.length) (l :: rest) nested
        (formOf language nested around l.text) := by
  induction lines generalizing i seen with
  | nil => cases h
  | cons l rest ih =>
    rcases List.mem_append.mp h with hs | hs
    · exact ⟨[], l, rest, _, _, rfl, hs⟩
    · obtain ⟨before, l', rest', nested, around, hlines, hs⟩ := ih hs
      refine ⟨l :: before, l', rest', nested, around, by rw [hlines, List.cons_append], ?_⟩
      rw [List.length_cons, Nat.add_comm before.length 1, ← Nat.add_assoc]
      exact hs

theorem of_mem_symbolsOf {l : SourceLine} {rest : List SourceLine} {nested : Bool}
    {form : Option LineForm} (h : s ∈ symbolsOf language i (l :: rest) nested form) :
    s.startLine = i + 1 ∧ EndsInText i i (l :: rest) (s.endLine - 1) ∧
      ∃ f ∈ form, s.name ∈ f.declaredNames := by
  have hblock := blockEnd_endsInText language i l rest
  unfold symbolsOf at h
  split at h
  · obtain rfl := List.mem_singleton.mp h
    exact ⟨rfl, hblock, _, rfl, List.mem_singleton_self _⟩
  · obtain rfl := List.mem_singleton.mp h
    exact ⟨rfl, hblock, _, rfl, List.mem_singleton_self _⟩
  · obtain ⟨name, hname, rfl⟩ := List.mem_map.mp h
    exact ⟨rfl, Or.inl rfl, _, rfl, hname⟩
  · cases h

/-- The parts of the text of a plain source between line feeds. -/
def parts (p : PlainSource) : List (List Char) := Text.pieces '\n' p.text.toList

theorem getElem?_lines (p : PlainSource) (k : Nat) :
    p.lines[k]? = p.parts[k]?.map fun part =>
      ⟨Text.dropFinal '\r' part, Text.byteLength ((p.parts.take k).flatMap (· ++ ['\n'])),
        Text.byteLength (Text.join ['\n'] (p.parts.take (k + 1)))⟩ := by
  have hline := getElem?_sourceLinesFrom 0 p.parts k
  simp only [Nat.zero_add] at hline
  exact hline

theorem length_lines (p : PlainSource) : p.lines.length = p.parts.length :=
  length_sourceLinesFrom 0 p.parts

def covered (p : PlainSource) (s : Symbol) : List (List Char) :=
  (p.parts.take s.endLine).drop (s.startLine - 1)

/-- The lines of a symbol are parts of a text, and its bytes those of their text. -/
structure Spans (p : PlainSource) (s : Symbol) : Prop where
  one_le_startLine : 1 ≤ s.startLine
  startLine_le_endLine : s.startLine ≤ s.endLine
  endLine_le : s.endLine ≤ p.parts.length
  bytes : ∃ before after, p.text.toList = before ++ Text.join ['\n'] (p.covered s) ++ after ∧
    s.startByte = Text.byteLength before ∧
    s.endByte = Text.byteLength (before ++ Text.join ['\n'] (p.covered s))

variable {p : PlainSource}

theorem spans_of_mem_declared (h : s ∈ p.declared) : p.Spans s := by
  obtain ⟨m, n, hcovers⟩ := exists_covers_of_mem_declaredFrom h
  have hmn := hcovers.ordered
  have hstartLine : s.startLine = m + 1 := by rw [hcovers.startLine_eq, Nat.add_comm m]
  have hendLine : s.endLine = n + 1 := by rw [hcovers.endLine_eq, Nat.add_comm n]
  have hstart := hcovers.startByte_eq
  have hend := hcovers.endByte_eq
  rw [getElem?_lines, Option.map_map, Option.map_eq_some_iff] at hstart hend
  obtain ⟨first, -, hstart⟩ := hstart
  obtain ⟨last, hlast, hend⟩ := hend
  obtain ⟨hn, -⟩ := List.getElem?_eq_some_iff.mp hlast
  have hne : (p.parts.take (n + 1)).drop m ≠ [] := by
    rw [← List.length_pos_iff, List.length_drop, List.length_take]
    omega
  have hcovered : p.covered s = (p.parts.take (n + 1)).drop m := by
    rw [covered, hstartLine, hendLine, Nat.add_sub_cancel]
  -- The parts up to the last one are those before the first one and those of the declaration.
  have hjoin : Text.join ['\n'] (p.parts.take (n + 1)) =
      (p.parts.take m).flatMap (· ++ ['\n']) ++ Text.join ['\n'] (p.covered s) := by
    have hsplit := List.take_append_drop m (p.parts.take (n + 1))
    rw [List.take_take, Nat.min_eq_left (Nat.le_succ_of_le hmn)] at hsplit
    rw [hcovered, ← Text.join_append _ hne, hsplit]
  have hprefix : Text.join ['\n'] (p.parts.take (n + 1)) <+: p.text.toList := by
    have hne : p.parts.take (n + 1) ≠ [] := fun hnil => hne (by rw [hnil, List.drop_nil])
    have hjoin : Text.join ['\n'] (p.parts.take (n + 1)) <+: Text.join ['\n'] _ :=
      Text.join_prefix_join hne (p.parts.drop (n + 1))
    rw [List.take_append_drop, parts, Text.join_pieces] at hjoin
    exact hjoin
  obtain ⟨after, hafter⟩ := hprefix
  refine ⟨by omega, by omega, by omega, _, after, ?_, hstart.symm, ?_⟩
  · rw [← hjoin, hafter]
  · rw [← hjoin]
    exact hend.symm

theorem name_infix_of_mem_declared (h : s ∈ p.declared) :
    ∃ part, p.parts[s.startLine - 1]? = some part ∧ s.name.toList <:+: part := by
  obtain ⟨before, l, rest, nested, around, hlines, hs⟩ := exists_line_of_mem_declaredFrom h
  obtain ⟨hstart, -, f, hf, hname⟩ := of_mem_symbolsOf hs
  have hl : p.lines[s.startLine - 1]? = some l := by
    rw [hlines, hstart]
    simp
  rw [getElem?_lines, Option.map_eq_some_iff] at hl
  obtain ⟨part, hpart, rfl⟩ := hl
  exact ⟨part, hpart, (formOf_standsOn f hf s.name hname).trans (Text.dropFinal_prefix _ _).isInfix⟩

/-- A declaration ends on its first part, on one that is not empty, or on the last one. -/
theorem last_part_of_mem_declared (h : s ∈ p.declared) :
    s.endLine = s.startLine ∨ p.parts.length ≤ s.endLine ∨ p.parts[s.endLine - 1]? ≠ some [] := by
  obtain ⟨before, l, rest, nested, around, hlines, hs⟩ := exists_line_of_mem_declaredFrom h
  obtain ⟨hstart, hends, -⟩ := of_mem_symbolsOf hs
  have hordered := (spans_of_mem_declared h).startLine_le_endLine
  rcases hends with hsame | hlast | ⟨k, l', hl', hk, hne⟩
  · exact Or.inl (by omega)
  · refine Or.inr (Or.inl ?_)
    rw [← length_lines, hlines, List.length_append]
    omega
  · refine Or.inr (Or.inr ?_)
    have hline : p.lines[s.endLine - 1]? = some l' := by
      rw [hlines, hk, Nat.zero_add, List.getElem?_append_right (Nat.le_add_right _ _),
        Nat.add_sub_cancel_left, hl']
    rw [getElem?_lines] at hline
    intro hempty
    rw [hempty] at hline
    obtain rfl := Option.some.inj hline
    exact hne rfl

theorem getLast?_covered (h : p.Spans s) : (p.covered s).getLast? = p.parts[s.endLine - 1]? := by
  have hfirst := h.one_le_startLine
  have hordered := h.startLine_le_endLine
  have hend := h.endLine_le
  have hin : s.endLine - 1 < p.parts.length := by omega
  rw [covered, List.getLast?_drop, List.length_take, if_neg (by omega), List.getLast?_take,
    if_neg (by omega), List.getElem?_eq_getElem hin, Option.some_or]

theorem length_covered (h : p.Spans s) : (p.covered s).length = s.endLine - s.startLine + 1 := by
  have hfirst := h.one_le_startLine
  have hordered := h.startLine_le_endLine
  have hend := h.endLine_le
  rw [covered, List.length_drop, List.length_take]
  omega

/-- The lines of a text that a symbol covers are the parts it covers, without the last one if that
ends the text and is empty. -/
theorem lines_covered (h : p.Spans s) (hreturn : '\r' ∉ p.text.toList) :
    ((Text.lines p.text.toList).drop (s.startLine - 1)).take s.lineCount =
      if s.endLine = p.parts.length ∧ p.parts.getLast? = some [] then (p.covered s).dropLast
      else p.covered s := by
  have hfirst := h.one_le_startLine
  have hordered := h.startLine_le_endLine
  have hend := h.endLine_le
  have hcount : s.lineCount = s.endLine - (s.startLine - 1) := by
    rw [Symbol.lineCount]
    omega
  rw [hcount, ← List.drop_take, Text.lines_of_no_return hreturn]
  change List.drop _ (List.take _ (if p.parts.getLast? = some [] then p.parts.dropLast
    else p.parts)) = _
  by_cases hlast : p.parts.getLast? = some []
  · rw [if_pos hlast, List.dropLast_eq_take, List.take_take]
    by_cases hwhole : s.endLine = p.parts.length
    · rw [if_pos ⟨hwhole, hlast⟩, covered, hwhole, List.dropLast_eq_take, List.take_length,
        List.length_drop, List.drop_take, Nat.min_eq_right (Nat.sub_le _ _)]
      congr 1
      omega
    · rw [if_neg (fun hboth => hwhole hboth.1), Nat.min_eq_left (by omega), covered]
  · rw [if_neg hlast, if_neg (fun hboth => hlast hboth.2), covered]

theorem toList_content (s : Symbol) (source : String) :
    (s.content source).toList = Text.join ['\n']
      (((Text.lines source.toList).drop (s.startLine - 1)).take s.lineCount) := by
  simp [Symbol.content, Text.joinWith, Text.linesOf, ← List.map_drop, ← List.map_take,
    Function.comp_def]

/-- The content of a declaration is its text, less a final line feed. -/
theorem content_eq (h : s ∈ p.declared) (hreturn : '\r' ∉ p.text.toList) :
    (s.content p.text).toList = Text.dropFinal '\n' (Text.join ['\n'] (p.covered s)) := by
  have hspans := spans_of_mem_declared h
  have hparts : ∀ part ∈ p.covered s, '\n' ∉ part := fun part hpart =>
    Text.not_mem_of_mem_pieces (List.mem_of_mem_take (List.mem_of_mem_drop hpart))
  rw [toList_content, lines_covered hspans hreturn, Text.dropFinal_join hparts,
    getLast?_covered hspans]
  by_cases hend : s.endLine = p.parts.length ∧ p.parts.getLast? = some []
  · rw [if_pos hend, if_pos (by rw [hend.1, ← List.getLast?_eq_getElem?, hend.2])]
  · rw [if_neg hend]
    split
    · next hempty =>
      -- Only a declaration of a single part can end with an empty one that is not the last.
      have hsingle : s.endLine = s.startLine := by
        rcases last_part_of_mem_declared h with hsame | hwhole | hne
        · exact hsame
        · have hwhole : s.endLine = p.parts.length := Nat.le_antisymm hspans.endLine_le hwhole
          rw [hwhole, ← List.getLast?_eq_getElem?] at hempty
          exact absurd ⟨hwhole, hempty⟩ hend
        · exact absurd hempty hne
      have hlength := length_covered hspans
      rw [hsingle, Nat.sub_self] at hlength
      obtain ⟨part, hcovered⟩ := List.length_eq_one_iff.mp hlength
      rw [← getLast?_covered hspans, hcovered, List.getLast?_singleton] at hempty
      obtain rfl := Option.some.inj hempty
      rw [hcovered]
      rfl
    · rfl

/-- Whatever the language and the text: the lines of a declaration are parts of the text between
line feeds, its bytes are those of these parts with the line feeds between them, and its name stands
on the first of them. Without carriage returns in the text the content of the declaration has the
same bytes, less a final line feed. -/
theorem declared_addresses (p : PlainSource) {s : Symbol} (hs : s ∈ p.declared) :
    let slice := ((Text.encode p.text).take s.endByte).drop s.startByte
    1 ≤ s.startLine ∧ s.startLine ≤ s.endLine ∧ s.endLine ≤ p.parts.length ∧
      s.startByte ≤ s.endByte ∧ s.endByte ≤ (Text.encode p.text).length ∧
      slice = Text.encode (String.ofList
        (Text.join ['\n'] ((p.parts.take s.endLine).drop (s.startLine - 1)))) ∧
      (∃ part, p.parts[s.startLine - 1]? = some part ∧ s.name.toList <:+: part) ∧
      ('\r' ∉ p.text.toList → Text.encode (s.content p.text) =
        if slice.getLast? = some 10 then slice.dropLast else slice) := by
  intro slice
  have hspans := spans_of_mem_declared hs
  obtain ⟨before, after, htext, hstart, hend⟩ := hspans.bytes
  have hslice : slice = (Text.join ['\n'] (p.covered s)).flatMap String.utf8EncodeChar := by
    have hbytes := Text.slice_flatMap_utf8EncodeChar before (Text.join ['\n'] (p.covered s)) after
    rw [← hstart, ← hend, ← htext] at hbytes
    exact hbytes
  refine ⟨hspans.one_le_startLine, hspans.startLine_le_endLine, hspans.endLine_le, ?_, ?_, ?_,
    name_infix_of_mem_declared hs, ?_⟩
  · rw [hstart, hend, Text.byteLength_append]
    exact Nat.le_add_right _ _
  · rw [hend, Text.length_encode, htext, Text.byteLength_append _ after]
    exact Nat.le_add_right _ _
  · rw [hslice, Text.encode, String.toList_ofList]
    rfl
  · intro hreturn
    rw [Text.encode, content_eq hs hreturn, Text.flatMap_dropFinal_utf8EncodeChar, ← hslice]

def unclosedFunction : PlainSource :=
  ⟨"f.js", .javaScript, "function f() \x7b\n  é;\n", ""⟩

/-- The function runs to the end of the text, and its content leaves out the last line feed. -/
theorem declared_addresses_unclosedFunction :
    let s : Symbol := ⟨"f", .function, 1, 3, .javaScript, none, none, 0, 21, true⟩
    s ∈ unclosedFunction.declared ∧ s.endLine ≤ unclosedFunction.parts.length ∧
      ((Text.encode unclosedFunction.text).take 21).drop 0 = Text.encode unclosedFunction.text ∧
      Text.encode (s.content unclosedFunction.text) =
        (Text.encode unclosedFunction.text).dropLast := by
  intro s
  have hs : s ∈ unclosedFunction.declared := by decide +kernel
  obtain ⟨-, -, hend, -, -, hslice, -, hcontent⟩ := declared_addresses unclosedFunction hs
  have hwhole : ((Text.encode unclosedFunction.text).take 21).drop 0 =
      Text.encode unclosedFunction.text := by
    rw [hslice]
    decide +kernel
  refine ⟨hs, hend, hwhole, ?_⟩
  rw [hcontent (by decide +kernel)]
  change (if (((Text.encode unclosedFunction.text).take 21).drop 0).getLast? = some 10 then _
    else _) = _
  rw [hwhole]
  decide +kernel

end PlainSource
end SymbolHistory
