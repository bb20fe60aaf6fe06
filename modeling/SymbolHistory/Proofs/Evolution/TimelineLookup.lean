import SymbolHistory.Evolution.Timeline
import SymbolHistory.Proofs.Distinct
import SymbolHistory.Proofs.Evolution.Retention
import SymbolHistory.Proofs.Sorted

namespace SymbolHistory

open Diff (lineDiff)

namespace Timeline

theorem identities_increasing (vs : List (SymbolIdentity × Version)) :
    (identities vs).Pairwise fun a b => SymbolIdentity.order a b = .lt := by
  have hle : (identities vs).Pairwise fun a b => (SymbolIdentity.order a b).isLE = true :=
    (pairwise_isLE_mergeSort _).sublist (distinctBy_sublist id _)
  refine pairwise_lt_of_isLE hle ((distinctBy_pairwise id _).imp ?_)
  intro a b hne heq
  exact hne (SymbolIdentity.eq_of_order_eq heq)

theorem mem_identities {vs : List (SymbolIdentity × Version)} {i : SymbolIdentity} :
    i ∈ identities vs ↔ ∃ v, (i, v) ∈ vs := by
  have h : i ∈ (identities vs).map id ↔ i ∈ (List.mergeSort (vs.map Prod.fst) _).map id :=
    mem_map_distinctBy
  rw [List.map_id, List.map_id, List.mem_mergeSort] at h
  rw [h]
  simp

theorem mem_versionsOf {i : SymbolIdentity} {v : Version} {vs : List (SymbolIdentity × Version)} :
    v ∈ versionsOf i vs ↔ (i, v) ∈ vs := by
  simp [versionsOf]

/-- Every identity has a chain. -/
theorem map_identity_chainsOf (vs : List (SymbolIdentity × Version)) :
    (chainsOf vs).map (·.identity) = identities vs := by
  rw [chainsOf, List.map_filterMap]
  conv_rhs => rw [← List.filterMap_some (l := identities vs)]
  apply List.filterMap_congr
  intro i hi
  obtain ⟨v, hv⟩ := mem_identities.mp hi
  have hmem := mem_versionsOf.mpr hv
  cases hvs : versionsOf i vs with
  | nil => simp [hvs] at hmem
  | cons first rest => rfl

theorem build?_of_mem_chainsOf {vs : List (SymbolIdentity × Version)} {c : VersionChain}
    (h : c ∈ chainsOf vs) :
    VersionChain.build? c.identity (versionsOf c.identity vs) = some c := by
  obtain ⟨i, -, hb⟩ := List.mem_filterMap.mp h
  have hi : c.identity = i := by
    cases hvs : versionsOf i vs with
    | nil => simp [hvs, VersionChain.build?] at hb
    | cons first rest =>
      rw [hvs] at hb
      obtain rfl := Option.some.inj hb
      rfl
  rw [hi, hb]

def symbolsIn (r : Reader) (s : Snapshot) : List Symbol :=
  (SourceModel.read r.parser r.language s.path (Text.encode s.content) r.tolerance).symbols r.query

/-- The first symbol of a snapshot with an identity. -/
def declared? (r : Reader) (i : SymbolIdentity) (s : Snapshot) : Option Symbol :=
  (symbolsIn r s).find? (·.identity == i)

/-- A snapshot contributes its first symbol of an identity and no other. -/
theorem versionsOf_versionsIn (r : Reader) (i : SymbolIdentity) (s : Snapshot) :
    versionsOf i (versionsIn r s) = ((declared? r i s).map s.version).toList := by
  have h := filter_distinctBy Prod.fst
    ((symbolsIn r s).map fun symbol => (symbol.identity, s.version symbol)) i
  rw [List.find?_map] at h
  have hfind : (symbolsIn r s).find?
      ((fun p : SymbolIdentity × Version => p.1 == i) ∘
        fun symbol => (symbol.identity, s.version symbol)) = declared? r i s := rfl
  rw [hfind] at h
  unfold versionsOf versionsIn
  unfold symbolsIn at h
  rw [h]
  cases declared? r i s <;> rfl

theorem exists_mem_versionsIn {r : Reader} {i : SymbolIdentity} {s : Snapshot} :
    (∃ v, (i, v) ∈ versionsIn r s) ↔ ∃ symbol ∈ symbolsIn r s, symbol.identity = i := by
  constructor
  · rintro ⟨v, hv⟩
    rw [← mem_versionsOf, versionsOf_versionsIn] at hv
    obtain ⟨symbol, hfirst, -⟩ :
        ∃ symbol, declared? r i s = some symbol ∧ s.version symbol = v := by
      simpa using hv
    exact ⟨symbol, List.mem_of_find?_eq_some hfirst, by simpa using List.find?_some hfirst⟩
  · rintro ⟨symbol, hmem, rfl⟩
    have hsome : (declared? r symbol.identity s).isSome :=
      List.find?_isSome.mpr ⟨symbol, hmem, by simp⟩
    obtain ⟨first, hfirst⟩ := Option.isSome_iff_exists.mp hsome
    refine ⟨s.version first, ?_⟩
    rw [← mem_versionsOf, versionsOf_versionsIn, hfirst]
    simp

/-- What a snapshot at a position contributes to an identity. -/
def placed? (r : Reader) (i : SymbolIdentity) (s : Snapshot) (k : Nat) : Option (Nat × Version) :=
  (declared? r i s).map fun symbol => (k, s.version symbol)

def candidates (r : Reader) (i : SymbolIdentity) (snapshots : List Snapshot) :
    List (Nat × Version) :=
  snapshots.zipIdx.filterMap fun p => placed? r i p.1 p.2

theorem map_snd_candidates (r : Reader) (i : SymbolIdentity) (snapshots : List Snapshot) :
    (candidates r i snapshots).map Prod.snd = versionsOf i (versions r snapshots) := by
  have hfrom (k : Nat) :
      ((snapshots.zipIdx k).filterMap fun p => placed? r i p.1 p.2).map Prod.snd =
        versionsOf i (versions r snapshots) := by
    induction snapshots generalizing k with
    | nil => rfl
    | cons s snapshots ih =>
      have hs := versionsOf_versionsIn r i s
      have hsplit : versionsOf i (versions r (s :: snapshots)) =
          versionsOf i (versionsIn r s) ++ versionsOf i (versions r snapshots) := by
        simp [versionsOf, versions]
      rw [hsplit, hs, ← ih (k + 1), List.zipIdx_cons]
      cases hd : declared? r i s with
      | none => simp [placed?, hd]
      | some symbol => simp [placed?, hd]
  exact hfrom 0

theorem mem_candidates {r : Reader} {i : SymbolIdentity} {snapshots : List Snapshot} {k : Nat}
    {v : Version} : (k, v) ∈ candidates r i snapshots ↔
      ∃ s symbol, snapshots[k]? = some s ∧ declared? r i s = some symbol ∧
        s.version symbol = v := by
  constructor
  · intro h
    obtain ⟨⟨s, l⟩, hmem, hp⟩ := List.mem_filterMap.mp h
    obtain ⟨symbol, hd, hkv⟩ := Option.map_eq_some_iff.mp hp
    obtain ⟨rfl, rfl⟩ := Prod.mk.inj hkv
    exact ⟨s, symbol, List.mem_zipIdx_iff_getElem?.mp hmem, hd, rfl⟩
  · rintro ⟨s, symbol, hs, hd, rfl⟩
    refine List.mem_filterMap.mpr ⟨(s, k), List.mem_zipIdx_iff_getElem?.mpr hs, ?_⟩
    simp [placed?, hd]

theorem candidates_increasing (r : Reader) (i : SymbolIdentity) (snapshots : List Snapshot) :
    (candidates r i snapshots).Pairwise (·.1 < ·.1) := by
  have hfrom (k : Nat) : (snapshots.zipIdx k).Pairwise (·.2 < ·.2) := by
    induction snapshots generalizing k with
    | nil => exact List.Pairwise.nil
    | cons s snapshots ih =>
      refine List.pairwise_cons.mpr ⟨?_, ih (k + 1)⟩
      intro p hp
      have := List.le_snd_of_mem_zipIdx hp
      omega
  refine List.Pairwise.filterMap _ ?_ (hfrom 0)
  intro p q hlt a ha b hb
  obtain ⟨x, -, rfl⟩ := Option.map_eq_some_iff.mp ha
  obtain ⟨y, -, rfl⟩ := Option.map_eq_some_iff.mp hb
  exact hlt

def retainedAt (anchor : Version) : List (Nat × Version) → List (Nat × Version)
  | [] => []
  | p :: rest =>
    match lineDiff anchor.content p.2.content .ignoringBlanks with
    | [] => retainedAt anchor rest
    | _ => p :: retainedAt p.2 rest

/-- The versions in the chain of an identity, each with the position of its snapshot. -/
def placesOf (r : Reader) (i : SymbolIdentity) (snapshots : List Snapshot) : List (Nat × Version) :=
  match candidates r i snapshots with
  | [] => []
  | first :: rest => first :: retainedAt first.2 rest

theorem retainedAt_cons_of_eq {anchor : Version} {p : Nat × Version}
    (h : anchor.keyLines = p.2.keyLines) (rest : List (Nat × Version)) :
    retainedAt anchor (p :: rest) = retainedAt anchor rest := by
  rw [retainedAt, lineDiff_eq_nil_iff.mpr h]

theorem retainedAt_cons_of_ne {anchor : Version} {p : Nat × Version}
    (h : anchor.keyLines ≠ p.2.keyLines) (rest : List (Nat × Version)) :
    retainedAt anchor (p :: rest) = p :: retainedAt p.2 rest := by
  rw [retainedAt]
  split
  · next hd => exact absurd hd (lineDiff_ne_nil h)
  · rfl

theorem map_snd_retainedAt (anchor : Version) (l : List (Nat × Version)) :
    (retainedAt anchor l).map Prod.snd = (retained anchor (l.map Prod.snd)).map Prod.snd := by
  induction l generalizing anchor with
  | nil => rfl
  | cons p l ih =>
    rw [List.map_cons]
    by_cases h : anchor.keyLines = p.2.keyLines
    · rw [retainedAt_cons_of_eq h, retained_cons_of_eq h, ih]
    · rw [retainedAt_cons_of_ne h, retained_cons_of_ne h, List.map_cons, List.map_cons, ih]

theorem retainedAt_sublist (anchor : Version) (l : List (Nat × Version)) :
    (retainedAt anchor l).Sublist l := by
  induction l generalizing anchor with
  | nil => exact List.Sublist.slnil
  | cons p l ih =>
    by_cases h : anchor.keyLines = p.2.keyLines
    · rw [retainedAt_cons_of_eq h]
      exact (ih anchor).cons p
    · rw [retainedAt_cons_of_ne h]
      exact (ih p.2).cons_cons p

theorem placesOf_sublist (r : Reader) (i : SymbolIdentity) (snapshots : List Snapshot) :
    (placesOf r i snapshots).Sublist (candidates r i snapshots) := by
  unfold placesOf
  split
  · exact List.nil_sublist _
  · next first rest hc =>
    rw [hc]
    exact (retainedAt_sublist first.2 rest).cons_cons first

/-- The last of some versions placed by `k`, or a given one if there is none. -/
def lastBy (k : Nat) (start : Nat × Version) (l : List (Nat × Version)) : Nat × Version :=
  (l.filter (·.1 ≤ k)).getLast?.getD start

theorem lastBy_cons_of_le {k : Nat} {p : Nat × Version} (h : p.1 ≤ k) (start : Nat × Version)
    (l : List (Nat × Version)) : lastBy k start (p :: l) = lastBy k p l := by
  simp [lastBy, h, List.getLast?_cons]

theorem lastBy_of_forall_lt {k : Nat} {l : List (Nat × Version)} (h : ∀ p ∈ l, k < p.1)
    (start : Nat × Version) : lastBy k start l = start := by
  have hnone : l.filter (·.1 ≤ k) = [] := by
    rw [List.filter_eq_nil_iff]
    intro p hp
    have := h p hp
    simp only [decide_eq_true_eq]
    omega
  rw [lastBy, hnone]
  rfl

/-- By any time, the last version that stayed and the last one at all have the same lines up to
blanks. -/
theorem keyLines_lastBy_retainedAt {anchor start : Nat × Version} {l : List (Nat × Version)}
    (h : anchor.2.keyLines = start.2.keyLines) (hl : l.Pairwise (·.1 < ·.1)) (k : Nat) :
    (lastBy k anchor (retainedAt anchor.2 l)).2.keyLines = (lastBy k start l).2.keyLines := by
  induction l generalizing anchor start with
  | nil => exact h
  | cons p l ih =>
    obtain ⟨hp, hl⟩ := List.pairwise_cons.mp hl
    by_cases hk : p.1 ≤ k
    · rw [lastBy_cons_of_le hk]
      by_cases he : anchor.2.keyLines = p.2.keyLines
      · rw [retainedAt_cons_of_eq he, ih he hl]
      · rw [retainedAt_cons_of_ne he, lastBy_cons_of_le hk, ih rfl hl]
    · -- Everything from here on is too late.
      have hlate : ∀ q ∈ p :: l, k < q.1 := by
        intro q hq
        rcases List.mem_cons.mp hq with rfl | hq
        · omega
        · have := hp q hq
          omega
      have hlate' : ∀ q ∈ retainedAt anchor.2 (p :: l), k < q.1 :=
        fun q hq => hlate q ((retainedAt_sublist anchor.2 (p :: l)).mem hq)
      rw [lastBy_of_forall_lt hlate, lastBy_of_forall_lt hlate', h]

/-- Among increasing positions, the last one by `k` is the one at `k`. -/
theorem lastBy_eq_of_mem {k : Nat} {v : Version} {start : Nat × Version}
    {l : List (Nat × Version)} (hl : l.Pairwise (·.1 < ·.1)) (h : (k, v) ∈ l) :
    lastBy k start l = (k, v) := by
  induction l generalizing start with
  | nil => simp at h
  | cons p l ih =>
    obtain ⟨hp, hl⟩ := List.pairwise_cons.mp hl
    rcases List.mem_cons.mp h with rfl | hmem
    · rw [lastBy_cons_of_le (Nat.le_refl k), lastBy_of_forall_lt hp]
    · have hlt := hp _ hmem
      rw [lastBy_cons_of_le (Nat.le_of_lt hlt), ih hl hmem]

theorem exists_chain_iff {r : Reader} {path : String} {snapshots : List Snapshot}
    {i : SymbolIdentity} :
    (∃ c ∈ (build r path snapshots).chains, c.identity = i) ↔
      ∃ s ∈ snapshots, ∃ symbol ∈ symbolsIn r s, symbol.identity = i := by
  have hchain : (∃ c ∈ (build r path snapshots).chains, c.identity = i) ↔
      i ∈ identities (versions r snapshots) := by
    rw [← map_identity_chainsOf, List.mem_map]
    rfl
  rw [hchain, mem_identities]
  simp only [← exists_mem_versionsIn, versions, List.mem_flatMap]
  constructor
  · rintro ⟨v, s, hs, hv⟩
    exact ⟨s, hs, v, hv⟩
  · rintro ⟨s, hs, v, hv⟩
    exact ⟨v, s, hs, hv⟩

theorem map_snd_placesOf {r : Reader} {path : String} {snapshots : List Snapshot}
    {c : VersionChain} (h : c ∈ (build r path snapshots).chains) :
    (placesOf r c.identity snapshots).map Prod.snd = c.versions := by
  have hb := build?_of_mem_chainsOf h
  rw [← map_snd_candidates] at hb
  unfold placesOf
  cases hc : candidates r c.identity snapshots with
  | nil => simp [hc, VersionChain.build?] at hb
  | cons first rest =>
    rw [hc] at hb
    have hv := congrArg VersionChain.versions (Option.some.inj hb)
    rw [List.map_cons, map_snd_retainedAt, ← hv]

/-- By the position of a snapshot that declares an identity, the last version placed has the lines
declared there, blanks apart. -/
theorem keyLines_getLast?_placesOf {r : Reader} {i : SymbolIdentity} {snapshots : List Snapshot}
    {k : Nat} {v : Version} (h : (k, v) ∈ candidates r i snapshots) :
    ∃ p w, ((placesOf r i snapshots).filter (·.1 ≤ k)).getLast? = some (p, w) ∧
      w.keyLines = v.keyLines := by
  have hinc := candidates_increasing r i snapshots
  unfold placesOf
  cases hc : candidates r i snapshots with
  | nil => simp [hc] at h
  | cons first rest =>
    rw [hc] at h hinc
    obtain ⟨hfirst, hrest⟩ := List.pairwise_cons.mp hinc
    have hle : first.1 ≤ k := by
      rcases List.mem_cons.mp h with rfl | hmem
      · exact Nat.le_refl k
      · exact Nat.le_of_lt (hfirst _ hmem)
    -- The last candidate by `k` is the one of snapshot `k` itself.
    have hlast := keyLines_lastBy_retainedAt (Eq.refl first.2.keyLines) hrest k
    rw [← lastBy_cons_of_le hle first rest, lastBy_eq_of_mem hinc h] at hlast
    refine ⟨(lastBy k first (retainedAt first.2 rest)).1, _, ?_, hlast⟩
    rw [List.filter_cons_of_pos (by simpa using hle), List.getLast?_cons]
    rfl

/-- The chains of a timeline are in order of their identities, which are those declared in some
snapshot. The versions of a chain come from increasing positions, each being the first declaration
there, and by any snapshot that declares the identity the last one has the lines declared. -/
theorem build_lookup (r : Reader) (path : String) (snapshots : List Snapshot) :
    ((build r path snapshots).chains.map (·.identity)).Pairwise
        (fun a b => SymbolIdentity.order a b = .lt) ∧
      (∀ i, (∃ c ∈ (build r path snapshots).chains, c.identity = i) ↔
        ∃ s ∈ snapshots, ∃ symbol ∈ symbolsIn r s, symbol.identity = i) ∧
      (∀ c ∈ (build r path snapshots).chains,
        (placesOf r c.identity snapshots).map Prod.snd = c.versions ∧
        ((placesOf r c.identity snapshots).map Prod.fst).Pairwise (· < ·) ∧
        ∀ k v, (k, v) ∈ placesOf r c.identity snapshots →
          ∃ s symbol, snapshots[k]? = some s ∧ declared? r c.identity s = some symbol ∧
            ⟨s.commit, s.path, symbol.startLine, symbol.endLine, symbol.content s.content⟩ = v) ∧
      ∀ i k s symbol, snapshots[k]? = some s → declared? r i s = some symbol →
        ∃ c ∈ (build r path snapshots).chains, c.identity = i ∧
          ∃ p w, ((placesOf r i snapshots).filter (·.1 ≤ k)).getLast? = some (p, w) ∧
            w.keyLines = Diff.LineComparison.ignoringBlanks.keys
              (Text.linesOf (symbol.content s.content)) := by
  refine ⟨?_, fun i => exists_chain_iff, ?_, ?_⟩
  · exact map_identity_chainsOf (versions r snapshots) ▸ identities_increasing _
  · intro c hc
    have hsub := placesOf_sublist r c.identity snapshots
    refine ⟨map_snd_placesOf hc, ?_, ?_⟩
    · exact List.pairwise_map.mpr ((candidates_increasing r c.identity snapshots).sublist hsub)
    · intro k v hkv
      exact mem_candidates.mp (hsub.mem hkv)
  · intro i k s symbol hs hd
    have hid : symbol.identity = i := by simpa using List.find?_some hd
    obtain ⟨c, hc, hi⟩ := exists_chain_iff.mpr
      ⟨s, List.mem_of_getElem? hs, symbol, List.mem_of_find?_eq_some hd, hid⟩
    have hlines : (s.version symbol).keyLines =
        Diff.LineComparison.ignoringBlanks.keys (Text.linesOf (symbol.content s.content)) := rfl
    rw [← hlines]
    exact ⟨c, hc, hi, keyLines_getLast?_placesOf (mem_candidates.mpr ⟨s, symbol, hs, hd, rfl⟩)⟩

end Timeline
end SymbolHistory
