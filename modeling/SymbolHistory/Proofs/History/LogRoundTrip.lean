import SymbolHistory.History.Log
import SymbolHistory.Proofs.Number.Integer64
import SymbolHistory.Proofs.Text.Pieces

namespace SymbolHistory.Log

/-- A text without the characters that divide a log into records, fields and lines. -/
def Undivided (s : List Char) : Prop :=
  recordMark ∉ s ∧ fieldMark ∉ s ∧ '\r' ∉ s ∧ '\n' ∉ s

instance (s : List Char) : Decidable (Undivided s) := inferInstanceAs (Decidable (_ ∧ _))

structure FillsLine (path : String) : Prop where
  ne_empty : path.toList ≠ []
  no_mark : recordMark ∉ path.toList
  no_return : '\r' ∉ path.toList
  no_feed : '\n' ∉ path.toList
  unpadded : Text.Unpadded path.toList

/-- A commit and a path that a record can hold. The author and the message may have blanks around
them, or be empty. -/
structure Printable (commit : Commit) (path : Option String) : Prop where
  id_unpadded : Text.Unpadded commit.id.toList
  id_undivided : Undivided commit.id.toList
  author_undivided : Undivided commit.author.toList
  message_undivided : Undivided commit.message.toList
  timestamp_ge : -(Decimal.wordLimit 63 : Int) ≤ commit.timestamp
  timestamp_lt : commit.timestamp < Decimal.wordLimit 63
  path_fillsLine : ∀ p ∈ path, FillsLine p

/-- A text that begins like a record, holds no other one, and whose first line has no time. -/
structure Stray (text : List Char) : Prop where
  begins : text.head? = some recordMark
  no_other : recordMark ∉ text.tail
  no_time : ∀ line ∈ (Text.lines text).head?, ∀ field ∈ (Text.pieces fieldMark line)[2]?,
    ¬Decimal.IsInteger64 (Text.trim field)

/-- The log of a list of commits and paths with stray texts before, between and after the
records. -/
inductive WithStrays : List (Commit × Option String) → List Char → Prop
  | nil : WithStrays [] []
  | record {commit : Commit} {path : Option String} {revisions : List (Commit × Option String)}
      {log : List Char} : WithStrays revisions log →
        WithStrays ((commit, path) :: revisions) (record commit path ++ log)
  | stray {text log : List Char} {revisions : List (Commit × Option String)} : Stray text →
      WithStrays revisions log → WithStrays revisions (text ++ log)

section Times

theorem isDigit_of_mem_timeText {t : Int} {c : Char} (h : c ∈ timeText t) :
    c = '-' ∨ c.isDigit = true := by
  have hdigits {n : Nat} (h : c ∈ Decimal.digits n) : c.isDigit = true :=
    Nat.isDigit_of_mem_toDigits (by decide) (by decide) h
  unfold timeText at h
  split at h
  · rcases List.mem_cons.mp h with h | h
    · exact Or.inl h
    · exact Or.inr (hdigits h)
  · exact Or.inr (hdigits h)

theorem isBlank_of_isDigit {c : Char} (h : c.isDigit = true) : Text.isBlank c = false := by
  simp only [Char.isDigit, Bool.and_eq_true, decide_eq_true_eq, UInt32.le_iff_toNat_le] at h
  have hlo : 48 ≤ c.toNat := h.1
  have hhi : c.toNat ≤ 57 := h.2
  simp only [Text.isBlank, Bool.or_eq_false_iff, Bool.and_eq_false_iff, beq_eq_false_iff_ne,
    decide_eq_false_iff_not]
  omega

theorem timeText_undivided (t : Int) : Undivided (timeText t) := by
  refine ⟨?_, ?_, ?_, ?_⟩
  all_goals
    intro h
    rcases isDigit_of_mem_timeText h with h | h
    · exact absurd h (by decide)
    · exact absurd h (by decide)

theorem trim_timeText (t : Int) : Text.trim (timeText t) = timeText t := by
  apply Text.Unpadded.trim_eq
  apply Text.unpadded_of_forall
  intro c hc
  rcases isDigit_of_mem_timeText hc with rfl | hdigit
  · decide
  · exact isBlank_of_isDigit hdigit

theorem integer64?_timeText {t : Int} (hge : -(Decimal.wordLimit 63 : Int) ≤ t)
    (hlt : t < Decimal.wordLimit 63) :
    Decimal.integer64? (timeText t) = some t := by
  unfold timeText
  split
  · next hneg =>
    have habs : -(t.natAbs : Int) = t := by omega
    rw [Decimal.integer64?_minus (Decimal.natural?_digits _) (by omega), habs]
  · next hnonneg =>
    have habs : (t.natAbs : Int) = t := by omega
    rw [Decimal.integer64?_digits (Decimal.natural?_digits _) (by omega), habs]

end Times

section Records

variable {commit : Commit} {path : Option String} (default : String)

def header (commit : Commit) : List Char :=
  Text.join [fieldMark]
    [commit.id.toList, commit.author.toList, timeText commit.timestamp, commit.message.toList]

def pathLines : Option String → List Char
  | some p => '\n' :: p.toList ++ ['\n']
  | none => []

theorem record_eq (commit : Commit) (path : Option String) :
    record commit path = recordMark :: (header commit ++ '\n' :: pathLines path) := by
  cases path <;> rfl

theorem pieces_header (h : Printable commit path) :
    Text.pieces fieldMark (header commit) = [commit.id.toList, commit.author.toList,
      timeText commit.timestamp, commit.message.toList] := by
  simp only [header, Text.join, List.append_assoc, List.singleton_append]
  rw [Text.pieces_append_cons h.id_undivided.2.1, Text.pieces_append_cons h.author_undivided.2.1,
    Text.pieces_append_cons (timeText_undivided _).2.1,
    Text.pieces_of_not_mem h.message_undivided.2.1]

theorem commitOf?_header (h : Printable commit path) : commitOf? (header commit) = some commit := by
  simp only [commitOf?, pieces_header h, trim_timeText, h.id_unpadded.trim_eq,
    integer64?_timeText h.timestamp_ge h.timestamp_lt, Option.map_some, Text.join,
    String.ofList_toList]

theorem not_mem_header {c : Char} (h : ∀ s ∈ [commit.id.toList, commit.author.toList,
    timeText commit.timestamp, commit.message.toList], c ∉ s) (hc : c ≠ fieldMark) :
    c ∉ header commit := by
  simp only [List.forall_mem_cons] at h
  simp [header, Text.join, h, hc]

theorem lines_pathLines (h : Printable commit path) :
    Text.lines (pathLines path) = path.toList.flatMap fun p => [[], p.toList] := by
  cases path with
  | none => rfl
  | some p =>
    have hp := h.path_fillsLine p rfl
    have hfeed : Text.lines (pathLines (some p)) = [] :: Text.lines (p.toList ++ ['\n']) :=
      Text.lines_append_cons (s := []) (by simp) _
    rw [hfeed, Text.lines_append_cons hp.no_feed, Text.dropFinal_of_not_mem hp.no_return]
    rfl

theorem lastLine?_pathLines (h : Printable commit path) :
    lastLine? (Text.lines (pathLines path)) = path.map String.toList := by
  rw [lines_pathLines h]
  cases path with
  | none => rfl
  | some p =>
    have hp := h.path_fillsLine p rfl
    have hnil : Text.trim [] = [] := rfl
    simp [lastLine?, hnil, hp.unpadded.trim_eq, hp.ne_empty]

/-- The text of a record after its mark gives the revision back. -/
theorem revisionOf?_record (h : Printable commit path) :
    revisionOf? default (header commit ++ '\n' :: pathLines path) =
      some ⟨commit, path.getD default⟩ := by
  have hfeed : '\n' ∉ header commit := not_mem_header (by
    simp [h.id_undivided.2.2.2, h.author_undivided.2.2.2, h.message_undivided.2.2.2,
      (timeText_undivided _).2.2.2]) (by decide)
  have hreturn : '\r' ∉ header commit := not_mem_header (by
    simp [h.id_undivided.2.2.1, h.author_undivided.2.2.1, h.message_undivided.2.2.1,
      (timeText_undivided _).2.2.1]) (by decide)
  simp only [revisionOf?, Text.lines_append_cons hfeed, Text.dropFinal_of_not_mem hreturn,
    commitOf?_header h, lastLine?_pathLines h, Option.map_some]
  cases path <;> simp

theorem recordMark_not_mem (h : Printable commit path) :
    recordMark ∉ header commit ++ '\n' :: pathLines path := by
  have hheader : recordMark ∉ header commit := not_mem_header (by
    simp [h.id_undivided.1, h.author_undivided.1, h.message_undivided.1,
      (timeText_undivided _).1]) (by decide)
  have hfeed : recordMark ≠ '\n' := by decide
  have hpath : recordMark ∉ pathLines path := by
    cases path with
    | none => simp [pathLines]
    | some p => simp [pathLines, hfeed, (h.path_fillsLine p rfl).no_mark]
  simp [hheader, hfeed, hpath]

theorem trim_record_ne_nil (commit : Commit) (rest : List Char) :
    Text.trim (header commit ++ rest) ≠ [] := by
  have hmem : fieldMark ∈ header commit ++ rest := by simp [header, Text.join]
  exact List.ne_nil_of_mem (Text.mem_trim (by decide) hmem)

end Records

section Strays

/-- Without a time in its third field a line describes no commit. -/
theorem commitOf?_eq_none {line : List Char}
    (h : ∀ field ∈ (Text.pieces fieldMark line)[2]?, ¬Decimal.IsInteger64 (Text.trim field)) :
    commitOf? line = none := by
  unfold commitOf?
  split
  · next id author time message hpieces =>
    rw [hpieces] at h
    have htime := mt Decimal.isSome_integer64?.mp (h time rfl)
    rw [Option.map_eq_none_iff, ← Option.not_isSome_iff_eq_none]
    exact htime
  · rfl

theorem Stray.eq_cons {text : List Char} (h : Stray text) : text = recordMark :: text.tail := by
  cases text with
  | nil => cases h.begins
  | cons c body => rw [Option.some.inj h.begins, List.tail_cons]

theorem Stray.revisionOf?_eq_none {text : List Char} (h : Stray text) (default : String) :
    revisionOf? default text.tail = none := by
  rw [revisionOf?]
  split
  · rfl
  · next line rest hlines =>
    rw [Option.map_eq_none_iff]
    apply commitOf?_eq_none
    -- The mark before the first line belongs to its first field.
    obtain ⟨field, fields, hpieces⟩ :=
      List.exists_cons_of_ne_nil (Text.pieces_ne_nil fieldMark line)
    have hmark : Text.pieces fieldMark (recordMark :: line) = (recordMark :: field) :: fields :=
      Text.pieces_append (s := [recordMark]) (by decide) hpieces
    have hfirst : (Text.lines text).head? = some (recordMark :: line) := by
      rw [h.eq_cons, Text.lines_cons (by decide) (by decide) hlines]
      rfl
    have htime := h.no_time (recordMark :: line) hfirst
    rw [hmark, List.getElem?_cons_succ] at htime
    rwa [hpieces, List.getElem?_cons_succ]

end Strays

/-- The revision of a commit and a path; without one, it has the path that was asked for. -/
def revision (default : String) (r : Commit × Option String) : Revision := ⟨r.1, r.2.getD default⟩

/-- The pieces of a log are the texts after its marks, with an empty one before them, and those of
them that are records give the revisions. -/
theorem WithStrays.pieces {revisions : List (Commit × Option String)} {log : List Char}
    (h : WithStrays revisions log) (hprintable : ∀ r ∈ revisions, Printable r.1 r.2)
    (default : String) :
    ∃ bodies, Text.pieces recordMark log = [] :: bodies ∧
      (bodies.filter fun r => Text.trim r ≠ []).filterMap (revisionOf? default) =
        revisions.map (revision default) := by
  have hnext {body log : List Char} {bodies : List (List Char)} (hbody : recordMark ∉ body)
      (hlog : Text.pieces recordMark log = [] :: bodies) :
      Text.pieces recordMark (recordMark :: (body ++ log)) = [] :: body :: bodies := by
    rw [Text.pieces, if_pos rfl, Text.pieces_append hbody hlog, List.append_nil]
  induction h with
  | nil => exact ⟨[], rfl, rfl⟩
  | @record commit path revisions log _ ih =>
    have hr := hprintable (commit, path) List.mem_cons_self
    obtain ⟨bodies, hpieces, hrevisions⟩ := ih fun r hr => hprintable r (List.mem_cons_of_mem _ hr)
    refine ⟨(header commit ++ '\n' :: pathLines path) :: bodies, ?_, ?_⟩
    · rw [record_eq, List.cons_append]
      exact hnext (recordMark_not_mem hr) hpieces
    · rw [List.filter_cons_of_pos (by simpa using trim_record_ne_nil commit _),
        List.filterMap_cons_some (revisionOf?_record default hr), hrevisions]
      rfl
  | @stray text log revisions htext _ ih =>
    obtain ⟨bodies, hpieces, hrevisions⟩ := ih hprintable
    refine ⟨text.tail :: bodies, ?_, ?_⟩
    · rw [htext.eq_cons, List.cons_append]
      exact hnext htext.no_other hpieces
    · rw [← hrevisions, List.filter_cons]
      split
      · rw [List.filterMap_cons_none (htext.revisionOf?_eq_none default)]
      · rfl

end SymbolHistory.Log
