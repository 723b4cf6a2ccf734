import NetatalkClient.Afp.Model.Url
/-!
# Which URLs are taken apart

The search for the last separator that is not doubled goes back behind a
doubled one, but then looks forward again and finds the same. So it ends
only where the last separator stands alone.
-/

namespace NetatalkClient

open Separated List

/-- The last separator is doubled. -/
def LastDoubled (c : UInt8) (s : Octets) : Prop := ∃ a b, s = a ++ c :: c :: b ∧ c ∉ b

variable {c : UInt8} {s a b : Octets}

theorem exists_last (h : c ∈ s) : ∃ a b, s = a ++ c :: b ∧ c ∉ b := by
  obtain ⟨b, a, hrev, hb⟩ := eq_append_cons_of_mem (mem_reverse.mpr h)
  refine ⟨a.reverse, b.reverse, ?_, mt mem_reverse.mp hb⟩
  rw [← reverse_reverse s, hrev]
  simp

/-- **From a doubled last separator the search does not get away.** -/
theorem escapeStrrchr_doubled (hb : c ∉ b) (turns : ℕ) {haystack : ℕ} (h : haystack ≤ a.length) :
    escapeStrrchr c (a ++ c :: c :: b) turns haystack = none := by
  induction turns generalizing haystack with
  | zero => rfl
  | succ turns ih =>
    have hlast : lastIdx? c ((a ++ c :: c :: b).drop haystack) =
        some (a.length - haystack + 1) := by
      rw [drop_append_of_le_length h, append_cons, lastIdx?_append hb, length_append,
        length_drop, length_singleton]
    have hbefore : (a ++ c :: c :: b).getD (haystack + (a.length - haystack + 1) - 1) 0 = c := by
      rw [show haystack + (a.length - haystack + 1) - 1 = a.length by omega]
      simp
    rw [escapeStrrchr, hlast]
    dsimp only
    rw [if_neg (not_or.mpr ⟨Nat.succ_ne_zero _, not_not.mpr hbefore⟩)]
    split
    · rfl
    · exact ih (by omega)

theorem escapeStrrchr_ends_iff :
    (∃ turns, (escapeStrrchr c s turns 0).isSome) ↔ ¬LastDoubled c s := by
  constructor
  · rintro ⟨turns, h⟩ ⟨a, b, rfl, hb⟩
    rw [escapeStrrchr_doubled hb turns (Nat.zero_le _)] at h
    exact Bool.false_ne_true h
  · intro h
    refine ⟨1, ?_⟩
    rw [escapeStrrchr, drop_zero]
    by_cases hc : c ∈ s
    · obtain ⟨a, b, rfl, hb⟩ := exists_last hc
      rw [lastIdx?_append hb]
      dsimp only
      rw [if_pos]
      · rfl
      · rcases eq_nil_or_concat a with rfl | ⟨a, d, rfl⟩
        · exact .inl rfl
        · refine .inr fun hd => h ⟨a, b, ?_, hb⟩
          have hd : d = c := by simpa using hd
          simp [hd]
    · rw [lastIdx?_eq_none hc]
      rfl

/-- The user part of a text that is accepted up to it. -/
def userPart (toparse : Octets) : Option Octets := (splitUrl toparse).join.bind (·.user)

/-- **A text is taken apart exactly if** no `://` stands among its first
characters and the last colon of its user part is not doubled. -/
theorem parseUrl_ends_iff (uamStringToBitmap : Octets → ℕ) (toparse : Octets) :
    (∃ turns, (parseUrl uamStringToBitmap turns toparse).isSome) ↔
      (∀ p, strstr (text "://") toparse = some p → 3 ≤ p) ∧
        ∀ user, userPart toparse = some user → ¬LastDoubled 0x3a user := by
  have hinside : (splitUrl toparse).isSome ↔
      ∀ p, strstr (text "://") toparse = some p → 3 ≤ p := by
    unfold splitUrl
    cases strstr (text "://") toparse with
    | none => simp
    | some p => grind
  rw [← hinside]
  unfold parseUrl userPart
  rcases splitUrl toparse with _ | _ | parts
  · simp
  · simp
  · rcases hu : parts.user with _ | user
    · simp [hu]
    · simp [hu, ← escapeStrrchr_ends_iff]

/-- **A user name that ends in a doubled colon is searched forever.** -/
theorem doubled_colon_lost :
    ¬∃ turns, (parseUrl (fun _ => 1) turns (text "afp://a::@h")).isSome := by
  rintro ⟨turns, h⟩
  have hlost : parseUrl (fun _ => 1) turns (text "afp://a::@h") =
      (escapeStrrchr 0x3a ([0x61] ++ 0x3a :: 0x3a :: []) turns 0).map _ := rfl
  rw [hlost, escapeStrrchr_doubled not_mem_nil turns (Nat.zero_le _)] at h
  exact Bool.false_ne_true h

end NetatalkClient
