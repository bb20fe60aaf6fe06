import SymbolHistory.Proofs.Extraction.DeclaredKinds
import SymbolHistory.Proofs.PlainSource.LineAddresses
import SymbolHistory.SourceModel

namespace SymbolHistory

namespace Node

/-- A tree of a source: well formed, with ranges that run forward and end inside the source. -/
structure TreeOf (root : Node) (source : Bytes) : Prop where
  wellFormed : root.WellFormed
  forward : ∀ n ∈ root.subtree, n.startByte ≤ n.endByte
  endByte_le : root.endByte ≤ source.length

instance (root : Node) (source : Bytes) : Decidable (root.TreeOf source) :=
  decidable_of_iff
    (root.WellFormed ∧ (∀ n ∈ root.subtree, n.startByte ≤ n.endByte) ∧
      root.endByte ≤ source.length)
    ⟨fun h => ⟨h.1, h.2.1, h.2.2⟩, fun h => ⟨h.1, h.2, h.3⟩⟩

end Node

namespace Symbol

/-- The addresses of a symbol are places of a text, and its first line is the one its first byte
stands on. -/
structure AddressedIn (s : Symbol) (bytes : Bytes) : Prop where
  one_le_startLine : 1 ≤ s.startLine
  startLine_le_endLine : s.startLine ≤ s.endLine
  startByte_le_endByte : s.startByte ≤ s.endByte
  endByte_le : s.endByte ≤ bytes.length
  startLine_eq : s.startLine = (bytes.take s.startByte).count 10 + 1

/-- A symbol as a model of a text in a language may report it. -/
structure SoundIn (s : Symbol) (language : Language) (bytes : Bytes) : Prop
    extends s.AddressedIn bytes where
  kind_ne_field : s.kind ≠ .field
  kind_ne_constructor : s.kind ≠ .constructor
  method_of_parent : s.parent.isSome → s.kind = .method
  class_of_base : s.base.isSome → s.kind = .class
  script_of_export : s.kind = .interface ∨ s.kind = .export →
    language = .javaScript ∨ language = .typeScript
  not_noise : s.kind = .constant → isNoiseName s.name = false

variable {s : Symbol} {language : Language} {bytes : Bytes}

theorem soundIn_of_declarableIn (hd : s.DeclarableIn language) (ha : s.AddressedIn bytes) :
    s.SoundIn language bytes := by
  have hscript (hl : language.family = .javaScript) :
      language = .javaScript ∨ language = .typeScript := by
    cases language <;> simp_all [Language.family]
  obtain ⟨name, kind, startLine, endLine, l, parent, base, startByte, endByte, topLevel⟩ := s
  unfold DeclarableIn at hd
  -- Each rule fixes the kind and which of the parts may be present.
  cases hd with
  | «class» => constructor <;> simp [ha]
  | function => constructor <;> simp [ha]
  | method => constructor <;> simp [ha]
  | constant h => constructor <;> simp [ha, h]
  | global => constructor <;> simp [ha]
  | «export» _ h => constructor <;> simp [ha, hscript h]
  | interface _ h => constructor <;> simp [ha, hscript h]

theorem SoundIn.present (h : s.SoundIn language bytes) (q : Query) :
    (q.present s).SoundIn language bytes := by
  unfold Query.present
  split
  · split
    · next hmethod =>
      simp only [Bool.and_eq_true, beq_iff_eq] at hmethod
      -- The only condition on a name is that on constants, and this is a method.
      refine { h with not_noise := ?_ }
      intro hconstant
      rw [show s.kind = .constant from hconstant] at hmethod
      cases hmethod.2
    · exact h
  · exact h

/-- A listing holds sound symbols where all declarations are sound. -/
theorem SoundIn.of_mem_list {declared : List Symbol}
    (hdeclared : ∀ d ∈ declared, d.SoundIn language bytes) {q : Query} (h : s ∈ q.list declared) :
    s.SoundIn language bytes := by
  obtain ⟨d, hd, rfl⟩ := Query.exists_of_mem_list h
  exact (hdeclared d hd).present q

end Symbol

theorem lineAt_mono {source : Bytes} {a b : Nat} (h : a ≤ b) : lineAt source a ≤ lineAt source b :=
  Nat.succ_le_succ ((List.take_sublist_take_left h).count_le 10)

theorem ParsedSource.lines_of_mem_declared {p : ParsedSource} {s : Symbol} (h : s ∈ p.declared) :
    s.startLine = lineAt p.source s.startByte ∧ s.endLine = lineAt p.source s.endByte := by
  obtain ⟨v, -, h⟩ := List.mem_flatMap.mp h
  obtain ⟨d, -, rfl⟩ := List.mem_map.mp h
  exact ⟨rfl, rfl⟩

theorem ParsedSource.addressedIn_of_mem_declared {p : ParsedSource} {s : Symbol}
    (hp : p.tree.TreeOf p.source) (h : s ∈ p.declared) : s.AddressedIn p.source := by
  obtain ⟨hstartLine, hendLine⟩ := lines_of_mem_declared h
  obtain ⟨n, hn, hrange⟩ := exists_node_of_mem_declared h
  obtain ⟨hstart, hend⟩ := ByteRange.mk.inj hrange
  have hforward : s.startByte ≤ s.endByte := by
    rw [hstart, hend]
    exact hp.forward n hn
  have hinside : n.endByte ≤ p.tree.endByte := (hp.wellFormed.inside hn).2
  refine ⟨?_, ?_, hforward, ?_, hstartLine⟩
  · rw [hstartLine]
    exact Nat.succ_pos _
  · rw [hstartLine, hendLine]
    exact lineAt_mono hforward
  · rw [hend]
    exact Nat.le_trans hinside hp.endByte_le

theorem PlainSource.addressedIn_of_mem_declared {p : PlainSource} {s : Symbol}
    (h : s ∈ p.declared) : s.AddressedIn (Text.encode p.text) := by
  obtain ⟨m, n, hcovers⟩ := exists_covers_of_mem_declaredFrom h
  obtain ⟨first, hfirst, hstart⟩ := Option.map_eq_some_iff.mp hcovers.startByte_eq
  obtain ⟨last, hlast, hend⟩ := Option.map_eq_some_iff.mp hcovers.endByte_eq
  have hfirstIn := standsIn_of_getElem?_lines hfirst
  have hlastIn := standsIn_of_getElem?_lines hlast
  -- The first and the last line may be one line, of which only its own range is known.
  have hordered : first.endByte ≤ last.endByte := by
    rcases Nat.lt_or_eq_of_le hcovers.ordered with hlt | rfl
    · obtain ⟨hm, rfl⟩ := List.getElem?_eq_some_iff.mp hfirst
      obtain ⟨hn, rfl⟩ := List.getElem?_eq_some_iff.mp hlast
      exact List.pairwise_iff_getElem.mp p.lines_ordered m n hm hn hlt
    · rw [hfirst] at hlast
      cases hlast
      exact Nat.le_refl _
  have hstartLine := hcovers.startLine_eq
  have hendLine := hcovers.endLine_eq
  refine ⟨?_, ?_, ?_, ?_, ?_⟩
  · omega
  · have := hcovers.ordered
    omega
  · rw [← hstart, ← hend]
    exact Nat.le_trans hfirstIn.startByte_le_endByte hordered
  · rw [← hend, Text.length_encode]
    exact hlastIn.endByte_le
  · have hline : lineAt (Text.encode p.text) s.startByte = m + 1 := by
      rw [← hstart]
      exact hfirstIn.lineAt_startByte
    unfold lineAt at hline
    omega

theorem leastDamaged_mem (best : Grammar × Node) (trees : List (Grammar × Node)) :
    leastDamaged best trees ∈ best :: trees := by
  induction trees generalizing best with
  | nil =>
    unfold leastDamaged
    exact List.mem_cons_self
  | cons t rest ih =>
    unfold leastDamaged
    split
    · exact List.mem_cons_of_mem best (ih t)
    · rcases List.mem_cons.mp (ih best) with h | h
      · rw [h]
        exact List.mem_cons_self
      · exact List.mem_cons_of_mem best (List.mem_cons_of_mem t h)

namespace SourceModel

/-- The text in which the addresses of a model count. -/
def bytes : SourceModel → Bytes
  | parsed p => p.source
  | plain p => Text.encode p.text

/-- What a model is made from, given the trees of its grammars. -/
inductive From (language : Language) (source : Bytes) (trees : List Node) : SourceModel → Prop
  | parsed {p : ParsedSource} (hlanguage : p.language = language) (hsource : p.source = source)
      (htree : p.tree ∈ trees) : From language source trees (.parsed p)
  | plain {p : PlainSource} (hlanguage : p.language = language)
      (htext : p.text = Text.decodeLossy source) : From language source trees (.plain p)

theorem ofTrees_from (language : Language) (path : String) (source : Bytes) (tolerance : Binary64)
    (trees : List (Grammar × Node)) :
    From language source (trees.map Prod.snd) (ofTrees language path source tolerance trees) := by
  unfold ofTrees
  split
  · next g t _ hfind =>
    exact .parsed rfl rfl (List.mem_map_of_mem (List.mem_of_find?_eq_some hfind))
  · exact .plain rfl rfl
  · next first rest _ =>
    have hmem := leastDamaged_mem first rest
    dsimp only
    split
    · exact .parsed rfl rfl (List.mem_map_of_mem hmem)
    · exact .plain rfl rfl

/-- The symbols of a model made from trees of its source are sound. -/
theorem From.soundIn {language : Language} {source : Bytes} {trees : List Node}
    {model : SourceModel} (hmodel : From language source trees model)
    (htrees : ∀ t ∈ trees, t.TreeOf source) {q : Query} {s : Symbol} (h : s ∈ model.symbols q) :
    s.SoundIn language model.bytes := by
  cases hmodel with
  | @parsed p hlanguage hsource htree =>
    subst hlanguage hsource
    apply Symbol.SoundIn.of_mem_list _ h
    intro d hd
    apply Symbol.soundIn_of_declarableIn
    · exact ParsedSource.declarableIn_of_mem_declared hd
    · exact ParsedSource.addressedIn_of_mem_declared (htrees _ htree) hd
  | @plain p hlanguage htext =>
    subst hlanguage
    apply Symbol.SoundIn.of_mem_list _ h
    intro d hd
    apply Symbol.soundIn_of_declarableIn
    · exact PlainSource.declarableIn_of_mem_declaredFrom hd
    · exact PlainSource.addressedIn_of_mem_declared hd

/-- Whatever the grammars make of a source, as long as their trees are trees of it, every symbol
listed is sound in the text of the model: the source itself where a tree was taken, else the source
decoded with replacements. -/
theorem symbols_soundIn (parser : Grammar.Parser) (language : Language) (path : String)
    (source : Bytes) (tolerance : Binary64)
    (hparser : ∀ g ∈ language.grammars, ∀ t ∈ parser g source, t.TreeOf source) (q : Query) :
    let model := read parser language path source tolerance
    model.bytes = (if model.isPlain then Text.encode (Text.decodeLossy source) else source) ∧
      ∀ s ∈ model.symbols q, s.SoundIn language model.bytes := by
  intro model
  have hfrom := ofTrees_from language path source tolerance
    (language.grammars.filterMap fun g => (parser g source).map (g, ·))
  have htrees : ∀ t ∈ (language.grammars.filterMap fun g =>
      (parser g source).map (g, ·)).map Prod.snd, t.TreeOf source := by
    intro t ht
    obtain ⟨⟨g, t'⟩, hmem, rfl⟩ := List.mem_map.mp ht
    obtain ⟨g', hg, htree⟩ := List.mem_filterMap.mp hmem
    obtain ⟨t'', ht'', heq⟩ := Option.map_eq_some_iff.mp htree
    cases heq
    exact hparser g hg t' ht''
  refine ⟨?_, fun s hs => hfrom.soundIn htrees hs⟩
  have hbytes {m : SourceModel} {trees : List Node} (hm : From language source trees m) :
      m.bytes = (if m.isPlain then Text.encode (Text.decodeLossy source) else source) := by
    cases hm with
    | parsed _ hsource _ => exact hsource
    | plain _ htext => exact congrArg Text.encode htext
  exact hbytes hfrom

end SourceModel

/-- A derived class before two assignments, the first of them to a name too noisy for a constant. -/
def ParsedSource.derivedClass : ParsedSource where
  tree :=
    let node (id : Nat) (kind field : String) (start stop : Nat) (children : List Node) : Node :=
      ⟨id, kind, field, start, stop, true, false, false, false, children⟩
    let token (id : Nat) (kind : String) (start stop : Nat) : Node :=
      ⟨id, kind, "", start, stop, false, false, false, false, []⟩
    let assignment (id start stop : Nat) : Node :=
      node id "expression_statement" "" start (stop + 4) [
        node (id + 1) "assignment" "" start (stop + 4) [
          node (id + 2) "identifier" "left" start stop [],
          token (id + 3) "=" (stop + 1) (stop + 2),
          node (id + 4) "integer" "right" (stop + 3) (stop + 4) []]]
    node 0 "module" "" 0 46 [node 1 "class_definition" "" 0 31 [
      token 2 "class" 0 5, node 3 "identifier" "name" 6 7 [],
      node 4 "argument_list" "superclasses" 7 10 [
        token 5 "(" 7 8, node 6 "identifier" "" 8 9 [], token 7 ")" 9 10],
      token 8 ":" 10 11,
      node 9 "block" "body" 14 31 [node 10 "function_definition" "" 14 31 [
        token 11 "def" 14 17, node 12 "identifier" "name" 18 19 [],
        node 13 "parameters" "parameters" 19 25 [
          token 14 "(" 19 20, node 15 "identifier" "" 20 24 [], token 16 ")" 24 25],
        token 17 ":" 25 26,
        node 18 "block" "body" 27 31 [node 19 "pass_statement" "" 27 31 [
          token 20 "pass" 27 31]]]]], assignment 21 32 34, assignment 26 39 42]
  source := Text.encode "class A(B):\n  def m(self): pass\nX1 = 1\nMAX = 2"
  path := "derived.py"
  language := .python
  grammar := .python
  recovered := false

theorem SourceModel.symbols_soundIn_derivedClass :
    let p := ParsedSource.derivedClass
    let model := read (fun _ _ => some p.tree) .python p.path p.source defaultTolerance
    model = .parsed p ∧ p.tree.TreeOf p.source ∧
      p.declared.map (fun s => (s.name, s.kind, s.startLine)) =
        [("MAX", .constant, 4), ("A", .class, 1), ("m", .method, 2)] ∧
      ∀ s ∈ model.symbols { qualifyMethods := true }, s.SoundIn .python model.bytes := by
  intro p model
  have htree : p.tree.TreeOf p.source := by decide
  refine ⟨rfl, htree, by decide +kernel, ?_⟩
  refine (symbols_soundIn _ .python p.path p.source defaultTolerance ?_ _).2
  intro g _ t ht
  obtain rfl := Option.some.inj ht
  exact htree

end SymbolHistory
