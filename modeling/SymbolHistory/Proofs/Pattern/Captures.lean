import SymbolHistory.Pattern

namespace SymbolHistory.Pattern

variable {x : Char} {n : Nat} {p : Pattern} {c d : Cursor} {g : Capture}

/-- Whether every class in a pattern refuses a character. -/
def refuses (x : Char) : Pattern → Bool
  | one q | run q => !q x
  | seq a b | alt a b => a.refuses x && b.refuses x
  | many a | group _ a => a.refuses x
  | empty | wordEdge | finish => true

def groupRefuses (x : Char) (n : Nat) : Pattern → Bool
  | seq a b | alt a b => a.groupRefuses x n && b.groupRefuses x n
  | many a => a.groupRefuses x n
  | group m a => (m != n || a.refuses x) && a.groupRefuses x n
  | one _ | run _ | empty | wordEdge | finish => true

/-- The text `t` lies between two places. -/
def Cursor.Passes (c : Cursor) (t : List Char) (d : Cursor) : Prop :=
  c.rest = t ++ d.rest ∧ d.position = c.position + t.length

theorem Cursor.Passes.trans {e : Cursor} {t u : List Char} (h : c.Passes t d)
    (k : d.Passes u e) : c.Passes (t ++ u) e := by
  obtain ⟨hrest, hposition⟩ := h
  obtain ⟨krest, kposition⟩ := k
  refine ⟨by rw [hrest, krest, List.append_assoc], ?_⟩
  rw [kposition, hposition, List.length_append]
  omega

theorem of_mem_ends_one {q : Char → Bool} (h : d ∈ (one q).ends c) :
    ∃ y rest, c.rest = y :: rest ∧ q y = true ∧ d = c.advance y rest := by
  rw [ends] at h
  split at h
  · next y rest hrest =>
    split at h
    · next hy => exact ⟨y, rest, hrest, hy, List.mem_singleton.mp h⟩
    · cases h
  · cases h

theorem eq_of_mem_guard {b : Bool} (h : d ∈ if b then [c] else []) : d = c := by
  cases b with
  | false => cases h
  | true => exact List.mem_singleton.mp h

theorem of_mem_here {q : Char → Bool} {back : List Cursor} (h : d ∈ c :: back) :
    d ∈ back ∨ d.captures = c.captures ∧ ∃ t, c.Passes t d ∧ ∀ y ∈ t, q y = true := by
  rcases List.mem_cons.mp h with rfl | h
  · exact Or.inr ⟨rfl, [], ⟨rfl, rfl⟩, by simp⟩
  · exact Or.inl h

theorem of_mem_runEnds {q : Char → Bool} {position : Nat} {passed : Option Char}
    {captures : List Capture} {rest : List Char} {back : List Cursor}
    (h : d ∈ runEnds q position passed captures rest back) :
    d ∈ back ∨ d.captures = captures ∧
      ∃ t, (⟨position, passed, rest, captures⟩ : Cursor).Passes t d ∧ ∀ y ∈ t, q y = true := by
  induction rest generalizing position passed back with
  | nil => exact of_mem_here h
  | cons y rest ih =>
    rw [runEnds] at h
    split at h
    · next hy =>
      -- An end is further along, or the list goes on with this place and those before it.
      rcases ih h with h | ⟨hcaptures, t, ⟨hrest, hposition⟩, ht⟩
      · exact of_mem_here h
      · refine Or.inr ⟨hcaptures, y :: t, ⟨by rw [List.cons_append, ← hrest], ?_⟩, ?_⟩
        · rw [hposition, List.length_cons, Nat.add_right_comm]
          rfl
        · intro z hz
          rcases List.mem_cons.mp hz with rfl | hz
          · exact hy
          · exact ht z hz
    · exact of_mem_here h

/-- A relation that every step keeps holds between a place and the ends of its repetitions. -/
theorem of_mem_repeatEnds {R : Cursor → Cursor → Prop} {step : Cursor → List Cursor}
    (refl : ∀ c, R c c) (trans : ∀ {a b c}, R a b → R b c → R a c)
    (hstep : ∀ {c d}, d ∈ step c → R c d) {fuel : Nat} (h : d ∈ repeatEnds step fuel c) :
    R c d := by
  induction fuel generalizing c with
  | zero =>
    obtain rfl := List.mem_singleton.mp h
    exact refl d
  | succ fuel ih =>
    rw [repeatEnds, List.mem_append, List.mem_flatMap, List.mem_singleton] at h
    rcases h with ⟨e, he, h⟩ | rfl
    · exact trans (hstep (List.mem_filter.mp he).1) (ih h)
    · exact refl d

/-- The text up to an end of a pattern has no character that the pattern refuses. -/
theorem exists_passes (h : d ∈ p.ends c) :
    ∃ t, c.Passes t d ∧ (p.refuses x = true → x ∉ t) := by
  induction p generalizing c d with
  | one q =>
    obtain ⟨y, rest, hrest, hy, rfl⟩ := of_mem_ends_one h
    refine ⟨[y], ⟨hrest, rfl⟩, ?_⟩
    intro hx hmem
    obtain rfl := List.mem_singleton.mp hmem
    simp [refuses, hy] at hx
  | empty =>
    obtain rfl := List.mem_singleton.mp h
    exact ⟨[], ⟨rfl, rfl⟩, fun _ => List.not_mem_nil⟩
  | seq a b iha ihb =>
    obtain ⟨e, he, h⟩ := List.mem_flatMap.mp h
    obtain ⟨t, ht, hxt⟩ := iha he
    obtain ⟨u, hu, hxu⟩ := ihb h
    refine ⟨t ++ u, ht.trans hu, ?_⟩
    intro hx
    obtain ⟨ha, hb⟩ := Bool.and_eq_true_iff.mp hx
    simp [hxt ha, hxu hb]
  | alt a b iha ihb =>
    rcases List.mem_append.mp h with h | h
    · obtain ⟨t, ht, hxt⟩ := iha h
      exact ⟨t, ht, fun hx => hxt (Bool.and_eq_true_iff.mp hx).1⟩
    · obtain ⟨t, ht, hxt⟩ := ihb h
      exact ⟨t, ht, fun hx => hxt (Bool.and_eq_true_iff.mp hx).2⟩
  | run q =>
    obtain ⟨-, t, ht, hq⟩ := (of_mem_runEnds h).resolve_left List.not_mem_nil
    refine ⟨t, ht, ?_⟩
    intro hx hmem
    simp [refuses, hq x hmem] at hx
  | many a ih =>
    -- Each repetition passes a text of its own; the whole is their concatenation.
    refine of_mem_repeatEnds (R := fun c d => ∃ t, c.Passes t d ∧ (a.refuses x = true → x ∉ t))
      ?_ ?_ ih h
    · exact fun c => ⟨[], ⟨rfl, rfl⟩, fun _ => List.not_mem_nil⟩
    · rintro _ _ _ ⟨t, ht, hxt⟩ ⟨u, hu, hxu⟩
      exact ⟨t ++ u, ht.trans hu, fun hx => by simp [hxt hx, hxu hx]⟩
  | group m a ih =>
    obtain ⟨e, he, rfl⟩ := List.mem_map.mp h
    obtain ⟨t, ht, hxt⟩ := ih he
    exact ⟨t, ht, hxt⟩
  | wordEdge =>
    obtain rfl := eq_of_mem_guard h
    exact ⟨[], ⟨rfl, rfl⟩, fun _ => List.not_mem_nil⟩
  | finish =>
    obtain rfl := eq_of_mem_guard h
    exact ⟨[], ⟨rfl, rfl⟩, fun _ => List.not_mem_nil⟩

/-- What was captured on the way to an end of a pattern, under a number whose groups refuse a
character, does not hold that character. -/
theorem not_mem_of_mem_captures (hp : p.groupRefuses x n = true) (h : d ∈ p.ends c)
    (hg : g ∈ d.captures) : g ∈ c.captures ∨ (g.number = n → x ∉ g.text) := by
  induction p generalizing c d g with
  | one q =>
    obtain ⟨y, rest, -, -, rfl⟩ := of_mem_ends_one h
    exact Or.inl hg
  | empty =>
    obtain rfl := List.mem_singleton.mp h
    exact Or.inl hg
  | seq a b iha ihb =>
    obtain ⟨ha, hb⟩ := Bool.and_eq_true_iff.mp hp
    obtain ⟨e, he, h⟩ := List.mem_flatMap.mp h
    -- What the second part did not capture was there after the first.
    rcases ihb hb h hg with hg | hg
    · exact iha ha he hg
    · exact Or.inr hg
  | alt a b iha ihb =>
    obtain ⟨ha, hb⟩ := Bool.and_eq_true_iff.mp hp
    rcases List.mem_append.mp h with h | h
    · exact iha ha h hg
    · exact ihb hb h hg
  | run q =>
    obtain ⟨hcaptures, -⟩ := (of_mem_runEnds h).resolve_left List.not_mem_nil
    exact Or.inl (hcaptures ▸ hg)
  | many a ih =>
    refine of_mem_repeatEnds (R := fun c d =>
      ∀ g ∈ d.captures, g ∈ c.captures ∨ (g.number = n → x ∉ g.text)) ?_ ?_ ?_ h g hg
    · exact fun c g hg => Or.inl hg
    · intro a b c hab hbc g hg
      rcases hbc g hg with hg | hg
      · exact hab g hg
      · exact Or.inr hg
    · exact fun h g hg => ih hp h hg
  | group m a ih =>
    obtain ⟨hm, ha⟩ := Bool.and_eq_true_iff.mp hp
    obtain ⟨e, he, rfl⟩ := List.mem_map.mp h
    rcases List.mem_cons.mp hg with rfl | hg
    · -- The text captured here is the one passed from `c` to `e`.
      obtain ⟨t, ⟨hrest, hposition⟩, ht⟩ := exists_passes (x := x) he
      refine Or.inr ?_
      intro hmn
      have htext : c.rest.take (e.position - c.position) = t := by
        rw [hrest, hposition, Nat.add_sub_cancel_left, List.take_left']
        rfl
      rw [Capture.text, htext]
      exact ht (by simpa [show m = n from hmn] using hm)
    · exact ih ha he hg
  | wordEdge =>
    obtain rfl := eq_of_mem_guard h
    exact Or.inl hg
  | finish =>
    obtain rfl := eq_of_mem_guard h
    exact Or.inl hg

/-- A text captured at the start of a line, under a number whose groups refuse a character. -/
theorem not_mem_of_matchStart? {line : List Char} {s : String}
    (hp : p.groupRefuses x n = true) (h : p.matchStart? line = some d)
    (hs : d.captured? n = some s) : x ∉ s.toList := by
  rw [matchStart?_eq] at h
  obtain ⟨g, hg, rfl⟩ := Option.map_eq_some_iff.mp hs
  have hnumber : g.number = n := by simpa using List.find?_some hg
  have hmem := not_mem_of_mem_captures hp (List.mem_of_mem_head? h) (List.mem_of_find?_eq_some hg)
  rw [String.toList_ofList]
  exact hmem.resolve_left List.not_mem_nil hnumber

section Steps

variable {R : Cursor → Cursor → Prop}

theorem rel_of_mem_runEnds (refl : ∀ c, R c c) (trans : ∀ {a b c}, R a b → R b c → R a c)
    (advance : ∀ {c x rest}, c.rest = x :: rest → R c (c.advance x rest)) {q : Char → Bool}
    {rest : List Char} {back : List Cursor}
    (h : d ∈ runEnds q c.position c.passed c.captures rest back) (hc : c.rest = rest) :
    d ∈ back ∨ R c d := by
  induction rest generalizing c back with
  | nil =>
    rcases List.mem_cons.mp h with rfl | h
    · exact Or.inr (hc ▸ refl c)
    · exact Or.inl h
  | cons y rest ih =>
    have hhere {back : List Cursor}
        (h : d ∈ (⟨c.position, c.passed, y :: rest, c.captures⟩ : Cursor) :: back) :
        d ∈ back ∨ R c d := by
      rcases List.mem_cons.mp h with rfl | h
      · exact Or.inr (hc ▸ refl c)
      · exact Or.inl h
    rw [runEnds] at h
    split at h
    · rcases ih (c := c.advance y rest) h rfl with h | h
      · exact hhere h
      · exact Or.inr (trans (advance hc) h)
    · exact hhere h

/-- Every end of a pattern is reached by passing characters and capturing, so a relation that
these keep holds between a place and the ends. -/
theorem rel_of_mem_ends (refl : ∀ c, R c c) (trans : ∀ {a b c}, R a b → R b c → R a c)
    (advance : ∀ {c x rest}, c.rest = x :: rest → R c (c.advance x rest))
    (capture : ∀ {n c d}, R c d → R c (c.capture n d)) (h : d ∈ p.ends c) : R c d := by
  induction p generalizing c d with
  | one q =>
    obtain ⟨y, rest, hrest, -, rfl⟩ := of_mem_ends_one h
    exact advance hrest
  | empty =>
    obtain rfl := List.mem_singleton.mp h
    exact refl d
  | seq a b iha ihb =>
    obtain ⟨e, he, h⟩ := List.mem_flatMap.mp h
    exact trans (iha he) (ihb h)
  | alt a b iha ihb =>
    rcases List.mem_append.mp h with h | h
    · exact iha h
    · exact ihb h
  | run q => exact (rel_of_mem_runEnds refl trans advance h rfl).resolve_left List.not_mem_nil
  | many a ih => exact of_mem_repeatEnds refl trans ih h
  | group m a ih =>
    obtain ⟨e, he, rfl⟩ := List.mem_map.mp h
    exact capture (ih he)
  | wordEdge =>
    obtain rfl := eq_of_mem_guard h
    exact refl d
  | finish =>
    obtain rfl := eq_of_mem_guard h
    exact refl d

end Steps

/-- What was captured on the way to an end of a pattern is a stretch of the text from there on. -/
theorem infix_of_mem_captures (h : d ∈ p.ends c) :
    d.rest <:+ c.rest ∧ ∀ g ∈ d.captures, g ∈ c.captures ∨ g.text <:+: c.rest := by
  refine rel_of_mem_ends (R := fun c d =>
    d.rest <:+ c.rest ∧ ∀ g ∈ d.captures, g ∈ c.captures ∨ g.text <:+: c.rest) ?_ ?_ ?_ ?_ h
  · exact fun c => ⟨List.suffix_refl _, fun g hg => Or.inl hg⟩
  · rintro a b c ⟨hab, ha⟩ ⟨hbc, hb⟩
    refine ⟨hbc.trans hab, ?_⟩
    intro g hg
    rcases hb g hg with hg | hg
    · exact ha g hg
    · exact Or.inr (hg.trans hab.isInfix)
  · intro c x rest hrest
    refine ⟨?_, fun g hg => Or.inl hg⟩
    rw [hrest]
    exact List.suffix_cons x rest
  · rintro n c d ⟨hrest, hd⟩
    refine ⟨hrest, ?_⟩
    intro g hg
    rcases List.mem_cons.mp hg with rfl | hg
    · exact Or.inr (List.take_prefix _ _).isInfix
    · exact hd g hg

theorem infix_of_captured? {line : List Char} {s : String}
    (h : ∀ g ∈ d.captures, g.text <:+: line) (hs : d.captured? n = some s) :
    s.toList <:+: line := by
  obtain ⟨g, hg, rfl⟩ := Option.map_eq_some_iff.mp hs
  rw [String.toList_ofList]
  exact h g (List.mem_of_find?_eq_some hg)

theorem infix_of_matchStart? {line : List Char} {s : String} (h : p.matchStart? line = some d)
    (hs : d.captured? n = some s) : s.toList <:+: line := by
  rw [matchStart?_eq] at h
  refine infix_of_captured? (fun g hg => ?_) hs
  exact ((infix_of_mem_captures (List.mem_of_mem_head? h)).2 g hg).resolve_left List.not_mem_nil

theorem searchFrom?_nil (p : Pattern) (passed : Option Char) :
    p.searchFrom? passed [] = (p.ends ⟨0, passed, [], []⟩).head? := by
  rw [searchFrom?.eq_def, first?_eq]
  cases p.ends ⟨0, passed, [], []⟩ <;> rfl

theorem searchFrom?_cons (p : Pattern) (passed : Option Char) (x : Char) (rest : List Char) :
    p.searchFrom? passed (x :: rest) =
      (p.ends ⟨0, passed, x :: rest, []⟩).head?.or (p.searchFrom? (some x) rest) := by
  rw [searchFrom?.eq_def, first?_eq]
  cases p.ends ⟨0, passed, x :: rest, []⟩ <;> rfl

theorem infix_of_searchFrom? {passed : Option Char} {line : List Char}
    (h : p.searchFrom? passed line = some d) : ∀ g ∈ d.captures, g.text <:+: line := by
  have hhere {passed : Option Char} {line : List Char}
      (h : (p.ends ⟨0, passed, line, []⟩).head? = some d) :
      ∀ g ∈ d.captures, g.text <:+: line := fun g hg =>
    ((infix_of_mem_captures (List.mem_of_mem_head? h)).2 g hg).resolve_left List.not_mem_nil
  induction line generalizing passed with
  | nil =>
    rw [searchFrom?_nil] at h
    exact hhere h
  | cons x rest ih =>
    rw [searchFrom?_cons] at h
    rcases Option.or_eq_some_iff.mp h with h | ⟨-, h⟩
    · exact hhere h
    · intro g hg
      exact (ih h g hg).trans (List.suffix_cons _ _).isInfix

theorem infix_of_search? {line : List Char} {s : String} (h : p.search? line = some d)
    (hs : d.captured? n = some s) : s.toList <:+: line :=
  infix_of_captured? (infix_of_searchFrom? h) hs

section Opening

variable {q : Char → Prop} {a b : Pattern}

/-- Whatever a pattern passes has, after blanks, a first character with a property. -/
def Opens (p : Pattern) (q : Char → Prop) : Prop :=
  ∀ c, ∀ d ∈ p.ends c, ∃ blank y rest, c.rest = blank ++ y :: rest ∧
    (∀ z ∈ blank, Text.isBlank z = true) ∧ q y

theorem opens_assoc {e : Pattern} : Opens (a ++ b ++ e) q ↔ Opens (a ++ (b ++ e)) q := by
  have hends (c : Cursor) : (a ++ b ++ e).ends c = (a ++ (b ++ e)).ends c := by
    change ((a.ends c).flatMap b.ends).flatMap e.ends =
      (a.ends c).flatMap fun d => (b.ends d).flatMap e.ends
    exact List.flatMap_assoc
  simp only [Opens, hends]

theorem opens_one (r : Char → Bool) : Opens (one r) (r · = true) := by
  intro c d h
  obtain ⟨y, rest, hrest, hy, -⟩ := of_mem_ends_one h
  exact ⟨[], y, rest, hrest, by simp, hy⟩

theorem Opens.seq (h : a.Opens q) (b : Pattern) : Opens (a ++ b) q := by
  intro c d hd
  obtain ⟨e, he, -⟩ := List.mem_flatMap.mp hd
  exact h c e he

theorem Opens.group (h : a.Opens q) (n : Nat) : Opens (group n a) q := by
  intro c d hd
  obtain ⟨e, he, -⟩ := List.mem_map.mp hd
  exact h c e he

theorem Opens.mono {r : Char → Prop} (h : a.Opens q) (hqr : ∀ y, q y → r y) : a.Opens r := by
  intro c d hd
  obtain ⟨blank, y, rest, hrest, hblank, hy⟩ := h c d hd
  exact ⟨blank, y, rest, hrest, hblank, hqr y hy⟩

theorem opens_lit {s : String} {x : Char} {xs : List Char} (hs : s.toList = x :: xs) :
    Opens (lit s) (· = x) := by
  rw [lit, hs, List.foldr_cons]
  exact ((opens_one _).mono fun y hy => by simpa using hy).seq _

theorem opens_blanks (h : b.Opens q) : Opens (blanks ++ b) q := by
  intro c d hd
  obtain ⟨e, he, hd⟩ := List.mem_flatMap.mp hd
  obtain ⟨-, t, ⟨hrest, -⟩, ht⟩ := (of_mem_runEnds he).resolve_left List.not_mem_nil
  obtain ⟨blank, y, rest, herest, hblank, hy⟩ := h e d hd
  refine ⟨t ++ blank, y, rest, ?_, ?_, hy⟩
  · rw [List.append_assoc, ← herest]
    exact hrest
  · intro z hz
    rcases List.mem_append.mp hz with hz | hz
    · exact ht z hz
    · exact hblank z hz

theorem opens_opt (ha : a.Opens q) (hb : b.Opens q) : Opens (opt a ++ b) q := by
  intro c d hd
  obtain ⟨e, he, hed⟩ := List.mem_flatMap.mp hd
  rcases List.mem_append.mp he with he | he
  · exact ha c e he
  · obtain rfl := List.mem_singleton.mp he
    exact hb e d hed

/-- The first character of a line after its blanks, where a pattern matches at its start. -/
theorem Opens.trimStart_eq {line : List Char} (hp : p.Opens q)
    (hq : ∀ y, q y → Text.isBlank y = false) (h : p.matchStart? line = some d) :
    ∃ y rest, Text.trimStart line = y :: rest ∧ q y := by
  rw [matchStart?_eq] at h
  obtain ⟨blank, y, rest, hline, hblank, hy⟩ := hp (start line) d (List.mem_of_mem_head? h)
  have hline : line = blank ++ y :: rest := hline
  refine ⟨y, rest, ?_, hy⟩
  rw [hline, Text.trimStart, List.dropWhile_append_of_pos hblank,
    List.dropWhile_cons_of_neg (by simp [hq y hy])]

end Opening

end SymbolHistory.Pattern
