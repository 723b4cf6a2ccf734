import NetatalkClient.Cmdline.Model.Arguments
/-!
# Cmdline: arguments that are read as they were written

Both ways of reading undo `quote_copy_argument`. What `escape_spaces`
writes is read as the name exactly if it had nothing but blanks to escape.
-/

namespace NetatalkClient.Cmdline

open List

variable {q e : Bool} {c : UInt8} {a b rest name : Octets}

/-! ## Quoted -/

/-- A quoted path before what is read after it. -/
theorem readPath_escaped (a : Octets) :
    readPath true false (escaped a ++ rest) = a.foldr onto (readPath true false rest) := by
  induction a with
  | nil => rfl
  | cons c a ih =>
    rw [escaped, flatMap_cons, ← escaped, foldr_cons, ← ih]
    split_ifs with hc
    · rcases hc with rfl | rfl
      all_goals rfl
    · rw [not_or] at hc
      simp [readPath, hc]

theorem readWord_escaped (a : Octets) :
    readWord true (escaped a ++ rest) = a.foldr onto (readWord true rest) := by
  induction a with
  | nil => rfl
  | cons c a ih =>
    rw [escaped, flatMap_cons, ← escaped, foldr_cons, ← ih]
    split_ifs with hc
    · rcases hc with rfl | rfl
      all_goals rfl
    · rw [not_or] at hc
      rw [singleton_append, cons_append, readWord.eq_def]
      simp [hc]

theorem foldr_onto {α : Type} (a : Octets) (more : α) :
    a.foldr onto (q, [], more) = (q, a, more) := by
  induction a with
  | nil => rfl
  | cons c a ih =>
    rw [foldr_cons, ih]
    rfl

/-- A word in quotes, after blanks and up to one. -/
theorem readWords_quoted {before : Octets} (hbefore : ∀ c ∈ before, isspace c = true)
    (hrest : ∀ c ∈ rest.head?, isspace c = true) (n : ℕ) :
    readWords (n + 1) (before ++ quote :: (escaped a ++ quote :: rest)) =
      (readWords n rest).map (a :: ·) := by
  have hskip : (before ++ quote :: (escaped a ++ quote :: rest)).dropWhile isspace =
      quote :: (escaped a ++ quote :: rest) := by
    rw [dropWhile_append_of_pos hbefore]
    rfl
  have hend : readWord true (quote :: rest) = (false, [], rest) := by
    rw [readWord.eq_def]
    show readWord false rest = _
    rw [readWord.eq_def]
    cases rest with
    | nil => rfl
    | cons c rest => exact if_pos ⟨nofun, hrest c rfl⟩
  have hword : readWord false (quote :: (escaped a ++ quote :: rest)) = (false, a, rest) := by
    rw [readWord.eq_def]
    show readWord true (escaped a ++ quote :: rest) = _
    rw [readWord_escaped, hend, foldr_onto]
  rw [readWords, hskip, if_neg (cons_ne_nil _ _), hword]
  rfl

/-- **Quoted arguments are read back**, in either way, as any two paths
within the limit, where two words or more are read. -/
theorem quoted_read_back (ha : a.length ≤ afpcMaxUtf8PathBytes)
    (hb : b.length ≤ afpcMaxUtf8PathBytes) (more : ℕ) :
    ∃ qa qb, quoteCopyArgument a = some qa ∧ quoteCopyArgument b = some qb ∧
      escapePathsAlloc true (qa ++ blank :: qb) = some [a, b] ∧
      parseCommandWordsAlloc (qa ++ blank :: qb) (more + 2) = .ok [a, b] := by
  have htext : quote :: escaped a ++ [quote] ++ blank :: (quote :: escaped b ++ [quote]) =
      quote :: (escaped a ++ quote :: blank :: quote :: (escaped b ++ [quote])) := by simp
  refine ⟨_, _, if_neg (by omega), if_neg (by omega), ?_, ?_⟩
  · have hfirst : readPath false false
        (quote :: (escaped a ++ quote :: blank :: quote :: (escaped b ++ [quote]))) =
          (false, a, some (quote :: (escaped b ++ [quote]))) :=
      (readPath_escaped a).trans (foldr_onto a _)
    have hsecond : readPath false false (quote :: (escaped b ++ [quote])) = (false, b, none) :=
      (readPath_escaped b).trans (foldr_onto b _)
    rw [htext]
    unfold escapePathsAlloc
    rw [if_neg (cons_ne_nil _ _), hfirst]
    dsimp only
    rw [hsecond]
    rfl
  · have hsecond : readWords (more + 1) (blank :: quote :: (escaped b ++ [quote])) = .ok [b] := by
      rw [← singleton_append, readWords_quoted (forall_mem_singleton.mpr rfl) (by simp)]
      cases more
      all_goals rfl
    rw [htext, parseCommandWordsAlloc, if_neg (by omega), ← nil_append (quote :: _),
      readWords_quoted (by simp) (by simp [isspace]), hsecond]
    rfl

/-- With a quote, a backslash and a blank. -/
theorem specials_read_back :
    ∃ qa qb, quoteCopyArgument (text "a\"\\ b") = some qa ∧ quoteCopyArgument [] = some qb ∧
      escapePathsAlloc true (qa ++ blank :: qb) = some [text "a\"\\ b", []] ∧
      parseCommandWordsAlloc (qa ++ blank :: qb) (0 + 2) = .ok [text "a\"\\ b", []] :=
  quoted_read_back (by decide) (by decide) 0

/-! ## Completed -/

theorem readPath_spaced (hquote : c ≠ quote) (hbackslash : c ≠ backslash) :
    readPath q false (spaced (c :: name)) = onto c (readPath q false (spaced name)) := by
  rw [spaced, flatMap_cons, ← spaced]
  split_ifs with hc
  · subst hc
    rfl
  · simp [readPath, hquote, hbackslash, hc]

/-- After a backslash, a character other than the blank is read as it is. -/
theorem readPath_spaced_escape (hc : c ≠ blank) :
    readPath q true (spaced (c :: name)) = onto c (readPath q false (spaced name)) := by
  rw [spaced, flatMap_cons, ← spaced, if_neg hc]
  simp [readPath]

/-- No more is read than there is, and what is escaped. -/
theorem length_readPath_spaced (name : Octets) :
    (readPath q e (spaced name)).2.1.length ≤ name.length + e.toNat := by
  induction name generalizing q e with
  | nil => exact Nat.zero_le _
  | cons c name ih =>
    have hplain := @ih q false
    rw [length_cons]
    cases e with
    | false =>
      by_cases hquote : c = quote
      · subst hquote
        exact Nat.le_succ_of_le (@ih (!q) false)
      by_cases hbackslash : c = backslash
      · subst hbackslash
        exact @ih q true
      · rw [readPath_spaced hquote hbackslash]
        exact Nat.succ_le_succ hplain
    | true =>
      by_cases hc : c = blank
      · subst hc
        cases q with
        | false => exact Nat.succ_le_succ (Nat.zero_le _)
        | true => exact Nat.succ_le_succ (Nat.succ_le_succ hplain)
      · rw [readPath_spaced_escape hc]
        exact Nat.le_succ_of_le (Nat.succ_le_succ hplain)

/-- If there is more to escape than blanks, less is read than there is. -/
theorem length_readPath_spaced_lt (h : ∃ c ∈ name, c = quote ∨ c = backslash) :
    (readPath false false (spaced name)).2.1.length < name.length := by
  induction name with
  | nil => exact absurd h (by simp)
  | cons c name ih =>
    by_cases hquote : c = quote
    · subst hquote
      exact Nat.lt_succ_of_le (length_readPath_spaced (q := true) (e := false) name)
    by_cases hbackslash : c = backslash
    · subst hbackslash
      show (readPath false true (spaced name)).2.1.length < _
      cases name with
      | nil => exact Nat.zero_lt_one
      | cons d name =>
        by_cases hblank : d = blank
        · subst hblank
          exact Nat.succ_lt_succ (Nat.succ_pos _)
        · rw [readPath_spaced_escape hblank]
          exact Nat.lt_succ_of_le
            (Nat.succ_le_succ (length_readPath_spaced (q := false) (e := false) name))
    · obtain ⟨c', hmem, hspecial⟩ := h
      rw [readPath_spaced hquote hbackslash]
      rcases mem_cons.mp hmem with rfl | hmem
      · exact absurd hspecial (not_or.mpr ⟨hquote, hbackslash⟩)
      · exact Nat.succ_lt_succ (ih ⟨c', hmem, hspecial⟩)

theorem readPath_spaced_eq (h : ¬∃ c ∈ name, c = quote ∨ c = backslash) :
    readPath false false (spaced name) = (false, name, none) := by
  induction name with
  | nil => rfl
  | cons c name ih =>
    simp only [mem_cons, exists_eq_or_imp, not_or] at h
    rw [readPath_spaced h.1.1 h.1.2, ih h.2]
    rfl

/-- **A completed name is read as it is exactly if** it is not empty, within
the limit, and has no quote and no backslash. -/
theorem completed_read_iff (name : Octets) :
    (escapeSpaces name).bind (escapePathsAlloc false) = some [name] ↔
      name ≠ [] ∧ name.length ≤ afpcMaxUtf8PathBytes ∧
        ¬∃ c ∈ name, c = quote ∨ c = backslash := by
  unfold escapeSpaces
  split_ifs with hlong
  · exact iff_of_false (by simp) fun h => absurd h.2.1 (by omega)
  rw [Option.bind_some, escapePathsAlloc.eq_def]
  cases name with
  | nil => exact iff_of_false (by simp [spaced]) fun h => h.1 rfl
  | cons c name =>
    have hne : spaced (c :: name) ≠ [] := by
      rw [spaced, flatMap_cons]
      split_ifs
      all_goals exact cons_ne_nil _ _
    rw [if_neg hne]
    by_cases hspecial : ∃ c' ∈ c :: name, c' = quote ∨ c' = backslash
    · refine iff_of_false (fun h => ?_) fun h => h.2.2 hspecial
      have hlt := length_readPath_spaced_lt hspecial
      generalize readPath false false (spaced (c :: name)) = r at h hlt
      obtain ⟨inquote, first, more⟩ := r
      dsimp only at h hlt
      split_ifs at h
      cases h
      exact Nat.lt_irrefl _ hlt
    · rw [readPath_spaced_eq hspecial]
      exact iff_of_true rfl ⟨cons_ne_nil _ _, by omega, hspecial⟩

/-- A backslash is dropped. -/
theorem backslash_dropped :
    (escapeSpaces (text "a\\b")).bind (escapePathsAlloc false) = some [text "ab"] := by
  decide

end NetatalkClient.Cmdline
