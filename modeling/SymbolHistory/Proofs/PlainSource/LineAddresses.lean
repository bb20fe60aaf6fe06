import SymbolHistory.PlainSource.Declarations
import SymbolHistory.Proofs.Text.LineFeeds

namespace SymbolHistory

/-- A line stands in a text, after this many line feeds. -/
def SourceLine.StandsIn (l : SourceLine) (text : List Char) (feeds : Nat) : Prop :=
  ∃ before part after, text = before ++ part ++ after ∧ before.count '\n' = feeds ∧
    l.startByte = Text.byteLength before ∧ l.endByte = Text.byteLength (before ++ part)

namespace SourceLine.StandsIn

variable {l : SourceLine} {text : List Char} {feeds : Nat}

theorem startByte_le_endByte (h : l.StandsIn text feeds) : l.startByte ≤ l.endByte := by
  obtain ⟨before, part, after, -, -, hstart, hend⟩ := h
  rw [hstart, hend, Text.byteLength_append]
  exact Nat.le_add_right _ _

theorem endByte_le (h : l.StandsIn text feeds) : l.endByte ≤ Text.byteLength text := by
  obtain ⟨before, part, after, rfl, -, -, hend⟩ := h
  rw [hend, Text.byteLength_append (before ++ part)]
  exact Nat.le_add_right _ _

theorem lineAt_startByte {text : String} (h : l.StandsIn text.toList feeds) :
    lineAt (Text.encode text) l.startByte = feeds + 1 := by
  obtain ⟨before, part, after, htext, rfl, hstart, -⟩ := h
  rw [hstart, Text.encode, htext, List.append_assoc, Text.lineAt_flatMap_utf8EncodeChar]

end SourceLine.StandsIn

/-- A part of a text between line feeds stands after those of the parts before it. -/
theorem standsIn_of_getElem?_sourceLinesFrom {before : List Char} {parts : List (List Char)}
    (hparts : ∀ p ∈ parts, '\n' ∉ p) {k : Nat} {l : SourceLine}
    (h : (sourceLinesFrom (Text.byteLength before) parts)[k]? = some l) :
    l.StandsIn (before ++ Text.join ['\n'] parts) (before.count '\n' + k) := by
  induction parts generalizing before k with
  | nil => simp [sourceLinesFrom] at h
  | cons part rest ih =>
    have hjoin : ∃ after, Text.join ['\n'] (part :: rest) = part ++ after := by
      cases rest with
      | nil => exact ⟨[], (List.append_nil part).symm⟩
      | cons q qs => exact ⟨_, List.append_assoc part ['\n'] _⟩
    cases k with
    | zero =>
      obtain ⟨after, hjoin⟩ := hjoin
      obtain rfl := Option.some.inj h
      refine ⟨before, part, after, ?_, rfl, rfl, ?_⟩
      · rw [hjoin, List.append_assoc]
      · rw [Text.byteLength_append]
    | succ k =>
      cases rest with
      | nil => simp [sourceLinesFrom] at h
      | cons q qs =>
        have hpart : '\n' ∉ part := hparts part List.mem_cons_self
        have hfeed : Text.byteLength ['\n'] = 1 := rfl
        -- What is passed when the next part begins ends with the line feed between them.
        have hnext : (sourceLinesFrom (Text.byteLength (before ++ part ++ ['\n'])) (q :: qs))[k]? =
            some l := by
          rw [Text.byteLength_append, Text.byteLength_append, hfeed]
          exact h
        have hstands := ih (fun p hp => hparts p (List.mem_cons_of_mem part hp)) hnext
        have hcount : (before ++ part ++ ['\n']).count '\n' + k = before.count '\n' + (k + 1) := by
          simp [List.count_eq_zero.mpr hpart, Nat.add_assoc, Nat.add_comm 1]
        have htext : before ++ Text.join ['\n'] (part :: q :: qs) =
            before ++ part ++ ['\n'] ++ Text.join ['\n'] (q :: qs) := by
          simp [Text.join]
        rw [htext, ← hcount]
        exact hstands

/-- Lines follow each other without overlapping. -/
theorem sourceLinesFrom_ordered (offset : Nat) (parts : List (List Char)) :
    (sourceLinesFrom offset parts).Pairwise (·.endByte ≤ ·.endByte) ∧
      ∀ l ∈ sourceLinesFrom offset parts, offset ≤ l.endByte := by
  induction parts generalizing offset with
  | nil => exact ⟨List.Pairwise.nil, fun l h => by cases h⟩
  | cons part rest ih =>
    obtain ⟨hordered, hfrom⟩ := ih (offset + Text.byteLength part + 1)
    constructor
    · refine List.pairwise_cons.mpr ⟨?_, hordered⟩
      intro l hl
      exact Nat.le_trans (Nat.le_succ _) (hfrom l hl)
    · intro l hl
      rcases List.mem_cons.mp hl with rfl | hl
      · exact Nat.le_add_right _ _
      · have := hfrom l hl
        omega

namespace PlainSource

theorem standsIn_of_getElem?_lines {p : PlainSource} {i : Nat} {l : SourceLine}
    (h : p.lines[i]? = some l) : l.StandsIn p.text.toList i := by
  have h : (sourceLinesFrom (Text.byteLength []) (Text.pieces '\n' p.text.toList))[i]? = some l := h
  have hstands := standsIn_of_getElem?_sourceLinesFrom (fun _ => Text.not_mem_of_mem_pieces) h
  simpa [Text.join_pieces] using hstands

theorem lines_ordered (p : PlainSource) : p.lines.Pairwise (·.endByte ≤ ·.endByte) :=
  (sourceLinesFrom_ordered 0 _).1

end PlainSource

/-- A block by braces ends between its first line and the last line there is. -/
theorem braceEndFrom_bounds {start i : Nat} (hi : start ≤ i) {lines : List SourceLine}
    (h : start < i ∨ lines ≠ []) (depth : Int) (opened : Bool) :
    start ≤ braceEndFrom start i depth opened lines ∧
      braceEndFrom start i depth opened lines < i + lines.length := by
  induction lines generalizing i depth opened with
  | nil =>
    have hlt : start < i := h.resolve_right (fun hne => hne rfl)
    simp only [braceEndFrom, List.length_nil]
    omega
  | cons l rest ih =>
    rw [braceEndFrom, List.length_cons]
    split
    · omega
    · split
      · omega
      · have hpassed : start < i + 1 := Nat.lt_succ_of_le hi
        have hrest := ih (Nat.le_of_lt hpassed) (Or.inl hpassed)
          (depth + l.text.count '\x7b' - l.text.count '\x7d') (opened || l.text.contains '\x7b')
        omega

theorem indentEndFrom_bounds {base last i : Nat} (h : last < i) (lines : List SourceLine) :
    last ≤ indentEndFrom base last i lines ∧
      indentEndFrom base last i lines < i + lines.length := by
  induction lines generalizing last i with
  | nil => exact ⟨Nat.le_refl _, h⟩
  | cons l rest ih =>
    rw [indentEndFrom, List.length_cons]
    split
    · have hrest := ih (show last < i + 1 by omega)
      omega
    · split
      · omega
      · have hrest := ih (show i < i + 1 by omega)
        omega

theorem blockEnd_bounds (language : Language) (i : Nat) (l : SourceLine)
    (rest : List SourceLine) :
    i ≤ blockEnd language i (l :: rest) ∧
      blockEnd language i (l :: rest) < i + (l :: rest).length := by
  unfold blockEnd
  split
  · next l' rest' heq =>
    obtain ⟨rfl, rfl⟩ := List.cons.inj heq
    have hstart : i < i + 1 := Nat.lt_succ_self i
    obtain ⟨hfirst, hlast⟩ := indentEndFrom_bounds hstart rest
    rw [List.length_cons]
    exact ⟨hfirst, by omega⟩
  · exact braceEndFrom_bounds (Nat.le_refl i) (Or.inr (List.cons_ne_nil l rest)) 0 false

namespace PlainSource

/-- A symbol covers lines of a list from one to another, the first of the list having number
`number`. -/
structure CoversLines (s : Symbol) (number : Nat) (lines : List SourceLine) (m n : Nat) : Prop where
  ordered : m ≤ n
  startLine_eq : s.startLine = number + m
  endLine_eq : s.endLine = number + n
  startByte_eq : lines[m]?.map (·.startByte) = some s.startByte
  endByte_eq : lines[n]?.map (·.endByte) = some s.endByte

theorem symbolAt_covers {language : Language} {i last : Nat} {l : SourceLine}
    {rest : List SourceLine} (hi : i ≤ last) (hlast : last < i + (l :: rest).length) (nested : Bool)
    (name : String) (kind : SymbolKind) (parent base : Option String) :
    CoversLines (symbolAt language i last (l :: rest) nested name kind parent base) (i + 1)
      (l :: rest) 0 (last - i) := by
  have hin : last - i < (l :: rest).length := by omega
  refine ⟨Nat.zero_le _, rfl, ?_, rfl, ?_⟩
  · simp only [symbolAt]
    omega
  · simp only [symbolAt, endByteOf, List.getElem?_eq_getElem hin, Option.map_some, Option.getD_some]

theorem exists_covers_of_mem_symbolsOf {language : Language} {i : Nat} {l : SourceLine}
    {rest : List SourceLine} {nested : Bool} {form : Option LineForm} {s : Symbol}
    (h : s ∈ symbolsOf language i (l :: rest) nested form) :
    ∃ n, CoversLines s (i + 1) (l :: rest) 0 n := by
  obtain ⟨hi, hlast⟩ := blockEnd_bounds language i l rest
  unfold symbolsOf at h
  split at h
  · obtain rfl := List.mem_singleton.mp h
    exact ⟨_, symbolAt_covers hi hlast _ _ _ _ _⟩
  · obtain rfl := List.mem_singleton.mp h
    exact ⟨_, symbolAt_covers hi hlast _ _ _ _ _⟩
  · obtain ⟨name, -, rfl⟩ := List.mem_map.mp h
    exact ⟨_, symbolAt_covers (Nat.le_refl i) (by simp) _ _ _ _ _⟩
  · cases h

/-- Every declaration covers lines of the source. -/
theorem exists_covers_of_mem_declaredFrom {language : Language} {i : Nat} {seen : Seen}
    {lines : List SourceLine} {s : Symbol} (h : s ∈ declaredFrom language i seen lines) :
    ∃ m n, CoversLines s (i + 1) lines m n := by
  induction lines generalizing i seen with
  | nil => cases h
  | cons l rest ih =>
    rcases List.mem_append.mp h with h | h
    · obtain ⟨n, hcovers⟩ := exists_covers_of_mem_symbolsOf h
      exact ⟨0, n, hcovers⟩
    · obtain ⟨m, n, hcovers⟩ := ih h
      refine ⟨m + 1, n + 1, Nat.succ_le_succ hcovers.ordered, ?_, ?_, ?_, ?_⟩
      · rw [hcovers.startLine_eq]
        omega
      · rw [hcovers.endLine_eq]
        omega
      · exact hcovers.startByte_eq
      · exact hcovers.endByte_eq

end PlainSource
end SymbolHistory
