import SymbolHistory.Distinct

namespace SymbolHistory

variable {α β : Type} [DecidableEq β] {key : α → β}

theorem distinctByFrom_sublist (seen : List β) (l : List α) :
    (distinctByFrom key seen l).Sublist l := by
  induction l generalizing seen with
  | nil => exact List.Sublist.slnil
  | cons a l ih =>
    rw [distinctByFrom]
    split
    · exact (ih seen).cons a
    · exact (ih (key a :: seen)).cons_cons a

theorem distinctBy_sublist (key : α → β) (l : List α) : (distinctBy key l).Sublist l :=
  distinctByFrom_sublist [] l

theorem distinctByFrom_pairwise (seen : List β) (l : List α) :
    (distinctByFrom key seen l).Pairwise fun a b => key a ≠ key b := by
  induction l generalizing seen with
  | nil => exact List.Pairwise.nil
  | cons a l ih =>
    rw [distinctByFrom]
    split
    · exact ih seen
    · refine List.pairwise_cons.mpr ⟨?_, ih (key a :: seen)⟩
      intro b hb heq
      -- The key of `a` is among those seen when `b` is met.
      have hnew := (mem_of_mem_distinctByFrom hb).2
      exact hnew (heq ▸ List.mem_cons_self)

theorem distinctBy_pairwise (key : α → β) (l : List α) :
    (distinctBy key l).Pairwise fun a b => key a ≠ key b :=
  distinctByFrom_pairwise [] l

theorem filter_distinctByFrom (seen : List β) (l : List α) (k : β) :
    (distinctByFrom key seen l).filter (key · == k) =
      if k ∈ seen then [] else (l.find? (key · == k)).toList := by
  induction l generalizing seen with
  | nil => simp [distinctByFrom]
  | cons a l ih =>
    rw [distinctByFrom]
    by_cases hk : key a = k
    · subst hk
      by_cases hs : key a ∈ seen <;> simp [hs, ih]
    · have hk' : (key a == k) = false := by simpa using hk
      have hne : ¬k = key a := fun h => hk h.symm
      rw [List.find?_cons, hk']
      by_cases hs : key a ∈ seen <;> simp [hs, hk', ih, hne]

theorem filter_distinctBy (key : α → β) (l : List α) (k : β) :
    (distinctBy key l).filter (key · == k) = (l.find? (key · == k)).toList := by
  rw [distinctBy, filter_distinctByFrom]
  simp

/-- An element stays when it is the first with its key. -/
theorem mem_distinctBy {l : List α} {a : α} :
    a ∈ distinctBy key l ↔ l.find? (fun b => key b = key a) = some a := by
  have h : a ∈ (distinctBy key l).filter (key · == key a) ↔ a ∈ distinctBy key l := by
    simp [List.mem_filter]
  rw [← h, filter_distinctBy, Option.mem_toList]
  rfl

/-- A filter that looks at keys alone keeps the first element of a key or all its elements. -/
theorem find?_filter_of_key {keep : α → Bool} {a : α} (h : ∀ b, key b = key a → keep b = keep a)
    (l : List α) : (l.filter keep).find? (fun b => key b = key a) =
      if keep a then l.find? (fun b => key b = key a) else none := by
  induction l with
  | nil => simp
  | cons b l ih =>
    by_cases hb : key b = key a
    · by_cases hk : keep a <;> simp_all
    · by_cases hk : keep b <;> simp_all

/-- No key is lost. -/
theorem mem_map_distinctBy {l : List α} {k : β} :
    k ∈ (distinctBy key l).map key ↔ k ∈ l.map key := by
  constructor
  · intro h
    exact ((distinctBy_sublist key l).map key).mem h
  · intro h
    obtain ⟨a, ha, rfl⟩ := List.mem_map.mp h
    have hfind : (l.find? (key · == key a)).isSome := by
      rw [List.find?_isSome]
      exact ⟨a, ha, by simp⟩
    obtain ⟨b, hb⟩ := Option.isSome_iff_exists.mp hfind
    have hmem : b ∈ (distinctBy key l).filter (key · == key a) := by
      rw [filter_distinctBy, hb]
      exact List.mem_singleton_self b
    obtain ⟨hb, hkey⟩ := List.mem_filter.mp hmem
    exact List.mem_map.mpr ⟨b, hb, by simpa using hkey⟩

/-- Of lists made for different keys, the elements with one key are those made for it. -/
theorem filter_flatMap_of_key {f : β → List α} (hf : ∀ k, ∀ a ∈ f k, key a = k) {ks : List β}
    (hks : ks.Nodup) (k : β) :
    (ks.flatMap f).filter (key · == k) = if k ∈ ks then f k else [] := by
  induction ks with
  | nil => rfl
  | cons m ks ih =>
    obtain ⟨hm, hks⟩ := List.nodup_cons.mp hks
    rw [List.flatMap_cons, List.filter_append, ih hks]
    by_cases hmk : m = k
    · subst hmk
      have hall : (f m).filter (key · == m) = f m :=
        List.filter_eq_self.mpr fun a ha => by simp [hf m a ha]
      simp [hall, hm]
    · have hnone : (f m).filter (key · == k) = [] :=
        List.filter_eq_nil_iff.mpr fun a ha => by simp [hf m a ha, hmk]
      have hmem : k ∈ m :: ks ↔ k ∈ ks := by simp [Ne.symm hmk]
      simp only [hnone, List.nil_append, hmem]

/-- Lists that agree on the elements of every key hold the same elements. -/
theorem perm_of_filter_key [DecidableEq α] {l m : List α}
    (h : ∀ k, l.filter (key · == k) = m.filter (key · == k)) : l.Perm m := by
  apply List.perm_iff_count.mpr
  intro a
  have hcount (n : List α) : (n.filter (key · == key a)).count a = n.count a :=
    List.count_filter (by simp)
  rw [← hcount l, h (key a), hcount m]

end SymbolHistory
