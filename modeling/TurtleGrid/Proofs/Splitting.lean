import TurtleGrid.TextLines

namespace TurtleGrid

variable {α : Type} [BEq α] [LawfulBEq α] {newline cr : α}

theorem dropReturn_of_ne {line : List α} (h : line.getLast? ≠ some cr) :
    dropReturn cr line = line := by
  apply if_neg
  rwa [beq_iff_eq]

theorem dropReturn_concat (cr : α) (front : List α) : dropReturn cr (front ++ [cr]) = front := by
  simp [dropReturn]

theorem dropReturn_cases (cr : α) (line : List α) :
    dropReturn cr line = line ∨ line = dropReturn cr line ++ [cr] := by
  rcases List.eq_nil_or_concat line with rfl | ⟨front, c, rfl⟩
  · exact .inl rfl
  · rw [List.concat_eq_append]
    by_cases hc : c = cr
    · subst hc
      rw [dropReturn_concat]
      exact .inr rfl
    · exact .inl (dropReturn_of_ne (by simpa using hc))

theorem apply_dropReturn {β : Type} {f : List α → β} (h : ∀ front, f (front ++ [cr]) = f front)
    (line : List α) : f (dropReturn cr line) = f line := by
  rcases dropReturn_cases cr line with hl | hl
  · rw [hl]
  · exact (h _).symm.trans (congrArg f hl.symm)

theorem splitOn_ended {lines : List (List α)} (h : ∀ l ∈ lines, newline ∉ l) (rest : List α) :
    (lines.flatMap (· ++ [newline]) ++ rest).splitOn newline = lines ++ rest.splitOn newline := by
  induction lines with
  | nil => rfl
  | cons l lines ih =>
    obtain ⟨hl, hls⟩ := List.forall_mem_cons.1 h
    rw [List.flatMap_cons, List.append_assoc, List.append_assoc, List.singleton_append,
      List.splitOn_append_cons_self_of_not_mem hl, ih hls, List.cons_append]

theorem map_dropReturn {lines : List (List α)} (h : ∀ l ∈ lines, l.getLast? ≠ some cr) :
    lines.map (dropReturn cr) = lines := by
  rw [List.map_congr_left fun l hl => dropReturn_of_ne (h l hl), List.map_id']

theorem splitLines_ended {lines : List (List α)} (hn : ∀ l ∈ lines, newline ∉ l)
    (hr : ∀ l ∈ lines, l.getLast? ≠ some cr) :
    splitLines newline cr (lines.flatMap (· ++ [newline])) = lines := by
  have hs := splitOn_ended hn []
  rw [List.append_nil, List.splitOn_nil] at hs
  rw [splitLines, hs, List.dropLast_concat, map_dropReturn hr, List.getLast?_concat]
  exact List.append_nil _

theorem splitLines_intercalate {lines : List (List α)} (hn : ∀ l ∈ lines, newline ∉ l)
    (hr : ∀ l ∈ lines, l.getLast? ≠ some cr) (he : ∀ l ∈ lines, l ≠ []) :
    splitLines newline cr ([newline].intercalate lines) = lines := by
  rcases List.eq_nil_or_concat lines with rfl | ⟨front, last, rfl⟩
  · rfl
  · have hlast : last ≠ [] := he last (by simp)
    have hfront : ∀ l ∈ front, l.getLast? ≠ some cr := fun l hl => hr l (by simp [hl])
    rw [splitLines, List.concat_eq_append, List.splitOn_intercalate newline _ (by simp),
      List.dropLast_concat, map_dropReturn hfront, List.getLast?_concat]
    · simp [hlast]
    · simpa using hn

theorem textLines_join {lines : List String} (hn : ∀ l ∈ lines, '\n' ∉ l.toList)
    (hr : ∀ l ∈ lines, l.toList.getLast? ≠ some '\r') :
    textLines (String.join (lines.map (· ++ "\n"))) = lines := by
  have ht : (String.join (lines.map (· ++ "\n"))).toList =
      (lines.map String.toList).flatMap (· ++ ['\n']) := by
    simp [List.flatMap_map]
  rw [textLines, ht, splitLines_ended (List.forall_mem_map.2 hn) (List.forall_mem_map.2 hr),
    List.map_map]
  simp

theorem textLines_intercalate {lines : List String} (hn : ∀ l ∈ lines, '\n' ∉ l.toList)
    (hr : ∀ l ∈ lines, l.toList.getLast? ≠ some '\r') (he : ∀ l ∈ lines, l ≠ "") :
    textLines ("\n".intercalate lines) = lines := by
  have ht : ("\n".intercalate lines).toList = ['\n'].intercalate (lines.map String.toList) :=
    String.toList_intercalate
  have he' : ∀ l ∈ lines.map String.toList, l ≠ [] := by
    simpa using he
  rw [textLines, ht, splitLines_intercalate (List.forall_mem_map.2 hn) (List.forall_mem_map.2 hr)
    he', List.map_map]
  simp

end TurtleGrid
