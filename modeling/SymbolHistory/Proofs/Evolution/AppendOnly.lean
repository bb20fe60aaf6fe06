import SymbolHistory.Proofs.Evolution.TimelineLookup

namespace SymbolHistory

/-- The version that the next one is compared with, after a list of versions. -/
def lastRetained (anchor : Version) (vs : List Version) : Version :=
  ((retained anchor vs).getLast?.map Prod.snd).getD anchor

theorem lastRetained_cons_of_eq {anchor v : Version} (h : anchor.keyLines = v.keyLines)
    (vs : List Version) : lastRetained anchor (v :: vs) = lastRetained anchor vs := by
  rw [lastRetained, retained_cons_of_eq h, lastRetained]

theorem lastRetained_cons_of_ne {anchor v : Version} (h : anchor.keyLines ≠ v.keyLines)
    (vs : List Version) : lastRetained anchor (v :: vs) = lastRetained v vs := by
  rw [lastRetained, retained_cons_of_ne h, List.getLast?_cons, lastRetained]
  cases (retained v vs).getLast? <;> rfl

/-- Later versions are judged by the last one retained before them. -/
theorem retained_append (anchor : Version) (vs ws : List Version) :
    retained anchor (vs ++ ws) = retained anchor vs ++ retained (lastRetained anchor vs) ws := by
  induction vs generalizing anchor with
  | nil => rfl
  | cons v vs ih =>
    rw [List.cons_append]
    by_cases h : anchor.keyLines = v.keyLines
    · rw [retained_cons_of_eq h, retained_cons_of_eq h, lastRetained_cons_of_eq h, ih]
    · rw [retained_cons_of_ne h, retained_cons_of_ne h, lastRetained_cons_of_ne h, ih]
      rfl

namespace VersionChain

/-- A chain of more versions goes on where the chain of fewer ends. -/
theorem build?_append {i : SymbolIdentity} {vs : List Version} {c : VersionChain}
    (h : build? i vs = some c) (ws : List Version) :
    ∃ d, build? i (vs ++ ws) = some d ∧ d.identity = c.identity ∧
      c.versions <+: d.versions ∧ c.transitions <+: d.transitions := by
  cases vs with
  | nil => simp [build?] at h
  | cons first rest =>
    obtain rfl := Option.some.inj h
    have hmore : build? i (first :: rest ++ ws) =
        some ⟨i, first :: (retained first (rest ++ ws)).map (·.2),
          (retained first (rest ++ ws)).map (·.1)⟩ := rfl
    rw [retained_append, List.map_append, List.map_append] at hmore
    refine ⟨_, hmore, rfl, ?_, List.prefix_append _ _⟩
    exact (List.prefix_cons_inj first).mpr (List.prefix_append _ _)

end VersionChain

namespace Timeline

theorem versionsOf_versions_append (r : Reader) (i : SymbolIdentity) (xs ys : List Snapshot) :
    versionsOf i (versions r (xs ++ ys)) =
      versionsOf i (versions r xs) ++ versionsOf i (versions r ys) := by
  simp [versionsOf, versions]

theorem mem_chainsOf_of_build? {vs : List (SymbolIdentity × Version)} {i : SymbolIdentity}
    {c : VersionChain} (h : VersionChain.build? i (versionsOf i vs) = some c) :
    c ∈ chainsOf vs := by
  refine List.mem_filterMap.mpr ⟨i, ?_, h⟩
  cases hvs : versionsOf i vs with
  | nil => simp [hvs, VersionChain.build?] at h
  | cons first rest =>
    have hfirst : first ∈ versionsOf i vs := hvs ▸ List.mem_cons_self
    exact mem_identities.mpr ⟨first, mem_versionsOf.mp hfirst⟩

/-- Snapshots that follow others leave every chain of those in place: it has the same identity,
and its versions and transitions are the first ones of the longer timeline's chain. -/
theorem build_append_prefix (r : Reader) (path : String) (xs ys : List Snapshot)
    (c : VersionChain) (hc : c ∈ (build r path xs).chains) :
    ∃ d ∈ (build r path (xs ++ ys)).chains, d.identity = c.identity ∧
      c.versions <+: d.versions ∧ c.transitions <+: d.transitions := by
  have hb := build?_of_mem_chainsOf hc
  obtain ⟨d, hd, hparts⟩ := VersionChain.build?_append hb (versionsOf c.identity (versions r ys))
  rw [← versionsOf_versions_append] at hd
  exact ⟨d, mem_chainsOf_of_build? hd, hparts⟩

def plainReader : Reader := ⟨fun _ _ => none, .shell, .everything, defaultTolerance⟩

def scriptAt (time : Int) (text : String) : Snapshot :=
  ⟨⟨toString time, "", time, ""⟩, "a.sh", text⟩

def withFunction : List Snapshot := [scriptAt 1 "f() { x; }"]

/-- The function is dropped and comes back with another body. -/
def droppedAndBack : List Snapshot := [scriptAt 2 "x", scriptAt 3 "f() { y; }"]

theorem build_append_droppedAndBack :
    ∃ c ∈ (build plainReader "a.sh" withFunction).chains, c.identity = ⟨"f", .function⟩ ∧
      ∃ d ∈ (build plainReader "a.sh" (withFunction ++ droppedAndBack)).chains,
        d.identity = c.identity ∧ c.versions <+: d.versions ∧ c.transitions <+: d.transitions := by
  obtain ⟨c, hc, hi⟩ : ∃ c ∈ (build plainReader "a.sh" withFunction).chains,
      c.identity = ⟨"f", .function⟩ := by decide +kernel
  exact ⟨c, hc, hi, build_append_prefix plainReader "a.sh" withFunction droppedAndBack c hc⟩

end Timeline
end SymbolHistory
