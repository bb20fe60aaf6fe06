import SymbolHistory.Proofs.Evolution.AppendOnly

namespace SymbolHistory

/-- A version with the lines of the one right before it changes nothing. -/
theorem retained_cons_cons_of_eq {v w : Version} (h : v.keyLines = w.keyLines)
    (anchor : Version) (rest : List Version) :
    retained anchor (v :: w :: rest) = retained anchor (v :: rest) := by
  by_cases hv : anchor.keyLines = v.keyLines
  · -- The repeated version was dropped itself, and both are compared with the older anchor.
    rw [retained_cons_of_eq hv, retained_cons_of_eq hv, retained_cons_of_eq (hv.trans h)]
  · rw [retained_cons_of_ne hv, retained_cons_of_ne hv, retained_cons_of_eq h]

namespace VersionChain

theorem build?_repeat {v w : Version} (h : v.keyLines = w.keyLines) (i : SymbolIdentity)
    (vs ws : List Version) : build? i (vs ++ v :: w :: ws) = build? i (vs ++ v :: ws) := by
  cases vs with
  | nil =>
    have hrest : retained v (w :: ws) = retained v ws := retained_cons_of_eq h ws
    simp only [List.nil_append, build?, hrest]
  | cons first vs =>
    have hrest : retained first (vs ++ v :: w :: ws) = retained first (vs ++ v :: ws) := by
      rw [retained_append, retained_append, retained_cons_cons_of_eq h]
    simp only [List.cons_append, build?, hrest]

end VersionChain

/-- The symbols of a text do not depend on the path it is read at. -/
theorem SourceModel.symbols_read_path (parser : Grammar.Parser) (language : Language)
    (path path' : String) (source : Bytes) (tolerance : Binary64) (q : Query) :
    (read parser language path source tolerance).symbols q =
      (read parser language path' source tolerance).symbols q := by
  unfold read ofTrees
  split
  · rfl
  · rfl
  · dsimp only
    split <;> rfl

namespace Timeline

theorem mem_identities_iff_build? {vs : List (SymbolIdentity × Version)} {i : SymbolIdentity} :
    i ∈ identities vs ↔ VersionChain.build? i (versionsOf i vs) ≠ none := by
  rw [mem_identities]
  simp only [← mem_versionsOf]
  cases versionsOf i vs with
  | nil => simp [VersionChain.build?]
  | cons first rest => simp [VersionChain.build?]

theorem chainsOf_congr {vs ws : List (SymbolIdentity × Version)}
    (h : ∀ i, VersionChain.build? i (versionsOf i vs) = VersionChain.build? i (versionsOf i ws)) :
    chainsOf vs = chainsOf ws := by
  have hidentities : identities vs = identities ws := by
    apply eq_of_pairwise_lt (identities_increasing vs) (identities_increasing ws)
    intro i
    rw [mem_identities_iff_build?, mem_identities_iff_build?, h]
  unfold chainsOf
  rw [hidentities]
  exact List.filterMap_congr fun i _ => h i

theorem declared?_of_content_eq {s t : Snapshot} (h : t.content = s.content) (r : Reader)
    (i : SymbolIdentity) : declared? r i t = declared? r i s := by
  unfold declared? symbolsIn
  rw [h, SourceModel.symbols_read_path r.parser r.language t.path s.path]

theorem keyLines_version_of_content_eq {s t : Snapshot} (h : t.content = s.content)
    (symbol : Symbol) : (t.version symbol).keyLines = (s.version symbol).keyLines := by
  simp only [Version.keyLines, Snapshot.version, h]

/-- Two snapshots of one content in a row give the chain that the first one alone gives. -/
theorem build?_versionsOf_repeat {s t : Snapshot} (h : t.content = s.content) (r : Reader)
    (i : SymbolIdentity) (before after : List Snapshot) :
    VersionChain.build? i (versionsOf i (versions r (before ++ s :: t :: after))) =
      VersionChain.build? i (versionsOf i (versions r (before ++ s :: after))) := by
  have hone (u : Snapshot) (us : List Snapshot) : versionsOf i (versions r (u :: us)) =
      ((declared? r i u).map u.version).toList ++ versionsOf i (versions r us) := by
    rw [← versionsOf_versionsIn]
    simp [versionsOf, versions]
  rw [versionsOf_versions_append, versionsOf_versions_append, hone, hone, hone,
    declared?_of_content_eq h]
  cases declared? r i s with
  | none => rfl
  | some symbol =>
    exact VersionChain.build?_repeat (keyLines_version_of_content_eq h symbol).symm i _ _

/-- A snapshot with the content of the one right before it, at any commit and path, adds nothing to
a timeline but to the number of snapshots. -/
theorem build_insert_unchanged (r : Reader) (path : String) (before after : List Snapshot)
    (s : Snapshot) (commit : Commit) (renamed : String) :
    build r path (before ++ s :: ⟨commit, renamed, s.content⟩ :: after) =
      let timeline := build r path (before ++ s :: after)
      { timeline with snapshotCount := timeline.snapshotCount + 1 } := by
  have hcontent : (⟨commit, renamed, s.content⟩ : Snapshot).content = s.content := rfl
  have hchains : chainsOf (versions r (before ++ s :: ⟨commit, renamed, s.content⟩ :: after)) =
      chainsOf (versions r (before ++ s :: after)) :=
    chainsOf_congr fun i => build?_versionsOf_repeat hcontent r i before after
  simp only [build, hchains, List.length_append, List.length_cons, Nat.add_assoc]

end Timeline
end SymbolHistory
