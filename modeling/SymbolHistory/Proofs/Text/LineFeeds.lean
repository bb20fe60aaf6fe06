import SymbolHistory.Text.Lines
import SymbolHistory.Tree.Node

namespace SymbolHistory.Text

theorem ten_not_mem_utf8EncodeChar {c : Char} (h : c ≠ '\n') :
    (10 : UInt8) ∉ String.utf8EncodeChar c := by
  have hbyte {n : Nat} (hlt : n < 256) (hne : n ≠ 10) : (10 : UInt8) ≠ UInt8.ofNat n := by
    intro heq
    have hnat := congrArg UInt8.toNat heq
    rw [UInt8.toNat_ofNat_of_lt' hlt] at hnat
    exact hne hnat.symm
  unfold String.utf8EncodeChar
  dsimp only
  split
  · next hascii =>
    have hne : c.val.toNat ≠ 10 := by
      intro hten
      apply h
      apply Char.ext
      exact UInt32.toNat.inj hten
    simpa using hbyte (by omega) hne
  · -- All bytes of a longer character have their highest bit set.
    split
    · simp only [List.mem_cons, List.not_mem_nil, or_false, not_or]
      exact ⟨hbyte (by omega) (by omega), hbyte (by omega) (by omega)⟩
    · split
      · simp only [List.mem_cons, List.not_mem_nil, or_false, not_or]
        exact ⟨hbyte (by omega) (by omega), hbyte (by omega) (by omega),
          hbyte (by omega) (by omega)⟩
      · simp only [List.mem_cons, List.not_mem_nil, or_false, not_or]
        exact ⟨hbyte (by omega) (by omega), hbyte (by omega) (by omega),
          hbyte (by omega) (by omega), hbyte (by omega) (by omega)⟩

/-- The bytes of a line feed are as many as the line feeds. -/
theorem count_flatMap_utf8EncodeChar (s : List Char) :
    (s.flatMap String.utf8EncodeChar).count 10 = s.count '\n' := by
  induction s with
  | nil => rfl
  | cons c s ih =>
    rw [List.flatMap_cons, List.count_append, ih, List.count_cons]
    by_cases h : c = '\n'
    · subst h
      rw [beq_self_eq_true, if_pos rfl, Nat.add_comm]
      rfl
    · rw [List.count_eq_zero.mpr (ten_not_mem_utf8EncodeChar h)]
      simp [h]

/-- The line of a place in a text is one more than the line feeds before it. -/
theorem lineAt_flatMap_utf8EncodeChar (before after : List Char) :
    lineAt ((before ++ after).flatMap String.utf8EncodeChar) (byteLength before) =
      before.count '\n' + 1 := by
  rw [lineAt, List.flatMap_append, ← length_flatMap_utf8EncodeChar, List.take_left,
    count_flatMap_utf8EncodeChar]

/-- The bytes of a stretch of a text. -/
theorem slice_flatMap_utf8EncodeChar (before span after : List Char) :
    (((before ++ span ++ after).flatMap String.utf8EncodeChar).take
      (byteLength (before ++ span))).drop (byteLength before) =
      span.flatMap String.utf8EncodeChar := by
  rw [List.flatMap_append, ← length_flatMap_utf8EncodeChar (before ++ span), List.take_left,
    List.flatMap_append, ← length_flatMap_utf8EncodeChar before, List.drop_left]

theorem flatMap_dropFinal_utf8EncodeChar (s : List Char) :
    (dropFinal '\n' s).flatMap String.utf8EncodeChar =
      if (s.flatMap String.utf8EncodeChar).getLast? = some 10 then
        (s.flatMap String.utf8EncodeChar).dropLast
      else s.flatMap String.utf8EncodeChar := by
  rcases List.eq_nil_or_concat s with rfl | ⟨init, c, rfl⟩
  · rfl
  rw [List.concat_eq_append, dropFinal, List.getLast?_concat, List.dropLast_concat,
    List.flatMap_append, List.flatMap_singleton]
  by_cases hc : c = '\n'
  · subst hc
    have hfeed : String.utf8EncodeChar '\n' = [10] := rfl
    rw [hfeed, if_pos rfl, List.getLast?_concat, if_pos rfl, List.dropLast_concat]
  · rw [if_neg (by simpa using hc), if_neg]
    · rw [List.flatMap_append, List.flatMap_singleton]
    · intro hlast
      have hne : String.utf8EncodeChar c ≠ [] := String.utf8EncodeChar_ne_nil
      rw [List.getLast?_append, List.getLast?_eq_some_getLast hne, Option.some_or] at hlast
      have hmem := List.getLast_mem hne
      rw [Option.some.inj hlast] at hmem
      exact ten_not_mem_utf8EncodeChar hc hmem

end SymbolHistory.Text
