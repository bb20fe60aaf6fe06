import SymbolHistory.Text.Blank
import SymbolHistory.Text.Lines

namespace SymbolHistory.Text

variable {sep : Char} {s t p : List Char} {ps : List (List Char)}

/-- A text without separators joins the first piece of what follows it. -/
theorem pieces_append (h : sep ∉ s) (ht : pieces sep t = p :: ps) :
    pieces sep (s ++ t) = (s ++ p) :: ps := by
  induction s with
  | nil => exact ht
  | cons c s ih =>
    simp only [List.mem_cons, not_or] at h
    have hc : c ≠ sep := Ne.symm h.1
    rw [List.cons_append, pieces, if_neg hc, ih h.2]
    rfl

theorem pieces_of_not_mem (h : sep ∉ s) : pieces sep s = [s] := by
  have hnil : pieces sep [] = [[]] := rfl
  simpa using pieces_append h hnil

theorem pieces_append_cons (h : sep ∉ s) (t : List Char) :
    pieces sep (s ++ sep :: t) = s :: pieces sep t := by
  have hsep : pieces sep (sep :: t) = [] :: pieces sep t := by rw [pieces, if_pos rfl]
  simpa using pieces_append h hsep

theorem pieces_append_sep (s t : List Char) :
    pieces sep (s ++ sep :: t) = pieces sep s ++ pieces sep t := by
  induction s with
  | nil => simp [pieces]
  | cons c s ih =>
    obtain ⟨p, ps, hp⟩ := List.exists_cons_of_ne_nil (pieces_ne_nil sep s)
    rw [List.cons_append, pieces, pieces, ih, hp]
    split <;> rfl

theorem lines_append_cons (h : '\n' ∉ s) (t : List Char) :
    lines (s ++ '\n' :: t) = dropFinal '\r' s :: lines t := by
  obtain ⟨p, ps, hp⟩ := List.exists_cons_of_ne_nil (pieces_ne_nil '\n' t)
  simp only [lines, pieces_append_cons h, hp, List.dropLast_cons_cons, List.map_cons,
    List.getLast?_cons_cons, List.cons_append]

theorem lines_of_not_mem (h : '\n' ∉ s) (hne : s ≠ []) : lines s = [s] := by
  simp [lines, pieces_of_not_mem h, hne]

theorem dropFinal_of_not_mem {c : Char} (h : c ∉ s) : dropFinal c s = s := by
  unfold dropFinal
  rw [if_neg]
  intro hlast
  exact h (List.mem_of_getLast? hlast)

theorem lines_cons {c : Char} {s line : List Char} {rest : List (List Char)} (hfeed : c ≠ '\n')
    (hreturn : c ≠ '\r') (h : lines s = line :: rest) :
    lines (c :: s) = (c :: line) :: rest := by
  by_cases hmem : '\n' ∈ s
  · obtain ⟨first, later, rfl, hfirst⟩ := List.eq_append_cons_of_mem hmem
    have hcons : '\n' ∉ c :: first := by simp [hfirst, Ne.symm hfeed]
    have hdrop : dropFinal '\r' (c :: first) = c :: dropFinal '\r' first := by
      cases first with
      | nil => simp [dropFinal, hreturn]
      | cons d first => by_cases hlast : (d :: first).getLast? = some '\r' <;>
          simp [dropFinal, hlast]
    rw [lines_append_cons hfirst] at h
    obtain ⟨rfl, rfl⟩ := List.cons.inj h
    rw [← List.cons_append, lines_append_cons hcons, hdrop]
  · have hcons : '\n' ∉ c :: s := by simp [hmem, Ne.symm hfeed]
    cases s with
    | nil => cases h
    | cons d s =>
      rw [lines_of_not_mem hmem (by simp)] at h
      obtain ⟨rfl, rfl⟩ := List.cons.inj h
      exact lines_of_not_mem hcons (by simp)

/-- Neither the first nor the last character is blank. -/
structure Unpadded (s : List Char) : Prop where
  head : ∀ c ∈ s.head?, isBlank c = false
  last : ∀ c ∈ s.getLast?, isBlank c = false

theorem unpadded_iff : Unpadded s ↔
    (s.head?.all (!isBlank ·)) = true ∧ (s.getLast?.all (!isBlank ·)) = true := by
  simp only [Option.all_eq_true, Bool.not_eq_true']
  exact ⟨fun h => ⟨h.head, h.last⟩, fun h => ⟨h.1, h.2⟩⟩

instance (s : List Char) : Decidable (Unpadded s) := decidable_of_iff' _ unpadded_iff

theorem dropWhile_eq_self {p : Char → Bool} (h : ∀ c ∈ s.head?, p c = false) :
    s.dropWhile p = s := by
  cases s with
  | nil => rfl
  | cons c s => rw [List.dropWhile_cons_of_neg (by simp [h c rfl])]

theorem Unpadded.trim_eq (h : Unpadded s) : trim s = s := by
  have hstart : trimStart s = s := dropWhile_eq_self h.head
  have hend : s.reverse.dropWhile isBlank = s.reverse :=
    dropWhile_eq_self (by simpa [List.head?_reverse] using h.last)
  rw [trim, hstart, trimEnd, dropEndWhile, hend, List.reverse_reverse]

theorem unpadded_of_forall (h : ∀ c ∈ s, isBlank c = false) : Unpadded s :=
  ⟨fun c hc => h c (List.mem_of_head? hc), fun c hc => h c (List.mem_of_getLast? hc)⟩

theorem mem_trim {c : Char} (hc : isBlank c = false) (h : c ∈ s) : c ∈ trim s := by
  have hdrop {s : List Char} (h : c ∈ s) : c ∈ s.dropWhile isBlank := by
    rw [← List.takeWhile_append_dropWhile (p := isBlank) (l := s), List.mem_append] at h
    refine h.resolve_left fun htaken => ?_
    have hall := List.all_takeWhile (p := isBlank) (l := s)
    rw [List.all_eq_true] at hall
    rw [hall c htaken] at hc
    cases hc
  have hstart : c ∈ (trimStart s).reverse := List.mem_reverse.mpr (hdrop h)
  exact List.mem_reverse.mpr (hdrop hstart)

section Joined

variable {sep : List Char} {ps qs : List (List Char)}

theorem join_cons (p : List Char) (h : qs ≠ []) : join sep (p :: qs) = p ++ sep ++ join sep qs := by
  obtain ⟨q, qs, rfl⟩ := List.exists_cons_of_ne_nil h
  rfl

/-- Before the last part that is joined every part is followed by the separator. -/
theorem join_append (ps : List (List Char)) (h : qs ≠ []) :
    join sep (ps ++ qs) = ps.flatMap (· ++ sep) ++ join sep qs := by
  induction ps with
  | nil => rfl
  | cons p ps ih =>
    rw [List.cons_append, join_cons p (by simp [h]), ih, List.flatMap_cons]
    simp only [List.append_assoc]

/-- Joining loses nothing where the separator stands in no part. -/
theorem pieces_join {sep : Char} (hne : ps ≠ []) (h : ∀ p ∈ ps, sep ∉ p) :
    pieces sep (join [sep] ps) = ps := by
  induction ps with
  | nil => exact absurd rfl hne
  | cons p ps ih =>
    have hp : sep ∉ p := h p List.mem_cons_self
    cases ps with
    | nil => exact pieces_of_not_mem hp
    | cons q qs =>
      have hrest := ih (List.cons_ne_nil q qs) fun r hr => h r (List.mem_cons_of_mem p hr)
      rw [join_cons p (List.cons_ne_nil q qs), List.append_assoc]
      exact (pieces_append_cons hp _).trans (congrArg (p :: ·) hrest)

theorem flatMap_append_eq_join (h : ps ≠ []) : ps.flatMap (· ++ sep) = join sep ps ++ sep := by
  rw [← List.dropLast_concat_getLast h, join_append _ (List.cons_ne_nil _ []), List.flatMap_append]
  simp [join]

theorem join_prefix_join (h : ps ≠ []) (qs : List (List Char)) :
    join sep ps <+: join sep (ps ++ qs) := by
  cases qs with
  | nil => simp
  | cons q qs =>
    rw [join_append ps (List.cons_ne_nil q qs), flatMap_append_eq_join h, List.append_assoc]
    exact List.prefix_append _ _

end Joined

theorem infix_of_mem_pieces (h : p ∈ pieces sep s) : p <:+: s := by
  obtain ⟨before, after, hsplit⟩ := List.append_of_mem h
  have hjoin : join [sep] (before ++ p :: after) = s := by rw [← hsplit, join_pieces]
  rw [join_append before (List.cons_ne_nil p after)] at hjoin
  have hp : p <+: join [sep] (p :: after) := join_prefix_join (List.cons_ne_nil p []) after
  rw [← hjoin]
  exact hp.isInfix.trans (List.suffix_append _ _).isInfix

theorem trim_infix (s : List Char) : trim s <:+: s := by
  have hend : trim s <+: trimStart s := by
    rw [← List.reverse_suffix, trim, trimEnd, dropEndWhile, List.reverse_reverse]
    exact List.dropWhile_suffix isBlank
  exact hend.isInfix.trans (List.dropWhile_suffix isBlank).isInfix

theorem dropFinal_prefix (c : Char) (s : List Char) : dropFinal c s <+: s := by
  unfold dropFinal
  split
  · exact List.dropLast_prefix s
  · exact List.prefix_refl s

/-- Without carriage returns the lines of a text are its parts, the last one only if it is not
empty. -/
theorem lines_of_no_return (h : '\r' ∉ s) :
    lines s = if (pieces '\n' s).getLast? = some [] then (pieces '\n' s).dropLast
      else pieces '\n' s := by
  obtain ⟨init, last, hsplit⟩ : ∃ init last, pieces '\n' s = init ++ [last] :=
    ⟨_, _, (List.dropLast_concat_getLast (pieces_ne_nil '\n' s)).symm⟩
  have hkeep : init.map (dropFinal '\r') = init := by
    refine (List.map_congr_left fun p hp => ?_).trans (List.map_id init)
    refine dropFinal_of_not_mem fun hr => h ?_
    have hp : p ∈ pieces '\n' s := by simp [hsplit, hp]
    exact (infix_of_mem_pieces hp).mem hr
  simp only [lines, hsplit, List.dropLast_concat, List.getLast?_concat, Option.getD_some, hkeep]
  cases last <;> simp

/-- Joined parts end with a line feed only where the last of several is empty. -/
theorem dropFinal_join (hps : ∀ p ∈ ps, '\n' ∉ p) :
    dropFinal '\n' (join ['\n'] ps) =
      join ['\n'] (if ps.getLast? = some [] then ps.dropLast else ps) := by
  rcases List.eq_nil_or_concat ps with rfl | ⟨init, last, rfl⟩
  · rfl
  have hlast : '\n' ∉ last := hps last (by simp)
  rw [List.concat_eq_append, List.getLast?_concat, List.dropLast_concat,
    join_append init (List.cons_ne_nil last [])]
  cases last with
  | nil =>
    rw [if_pos rfl]
    rcases List.eq_nil_or_concat init with rfl | ⟨init, p, rfl⟩
    · rfl
    · rw [flatMap_append_eq_join (by simp)]
      simp [dropFinal, join]
  | cons c last =>
    rw [if_neg (by simp), join_append init (List.cons_ne_nil (c :: last) []), dropFinal, if_neg]
    intro hend
    rw [show join ['\n'] [c :: last] = c :: last from rfl, List.getLast?_append,
      List.getLast?_cons, Option.some_or, ← List.getLast?_cons] at hend
    exact hlast (List.mem_of_getLast? hend)

end SymbolHistory.Text
