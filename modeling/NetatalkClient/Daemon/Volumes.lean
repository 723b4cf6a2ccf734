import NetatalkClient.Daemon.Model.Getvols
/-!
# Lists of volumes, page by page

`process_getvols` takes the number of volumes it sends from `count` and the
number there are, without regard to where it starts. So it is right at the
start of the list, and further on only if the whole page is there and starts
at `count` at the latest. Whoever asks for page after page gets the second
page at most.
-/

namespace NetatalkClient

open List VolumeArray

section Volumes

variable (server : VolumeArray) {start count : ℕ}

/-- What a page should have: the volumes from `start` on, `count` at most. -/
def VolumeArray.page (start count : ℕ) : List AfpcVolumeInfo :=
  (server.volumes.drop start).take count

/-- A response is what was asked for. -/
def PageCorrect (start count : ℕ) (response : GetvolsResponse) : Prop :=
  if server.numVolumes < start then response.result ≠ resultOk ∨ response.volumes = []
  else response.result = resultOk ∧ response.volumes = server.page start count ∧
    response.num = (server.page start count).length

theorem VolumeArray.length_page (start count : ℕ) :
    (server.page start count).length = min count (server.numVolumes - start) := by
  rw [page, length_take, length_drop, numVolumes]

/-- As long as there are volumes, those are sent. -/
theorem VolumeArray.map_volume {num : ℕ} (h : start + num ≤ server.numVolumes) :
    (List.range' start num).map server.volume = server.page start num := by
  have hlen : (server.page start num).length = num := by
    rw [server.length_page]
    omega
  refine ext_getElem ?_ fun i hi hi' => ?_
  · rw [length_map, length_range', hlen]
  · have hlt : start + i < server.volumes.length := by
      rw [length_map, length_range'] at hi
      unfold numVolumes at h
      omega
    simp only [getElem_map, getElem_range', Nat.one_mul, volume,
      page, getElem_take, getElem_drop, getElem?_eq_getElem hlt, Option.getD_some]

/-- At the start, a page has what there is. -/
theorem VolumeArray.map_volume_zero :
    (List.range' 0 (min count server.numVolumes)).map server.volume = server.page 0 count := by
  rw [server.map_volume (by omega), page, page, drop_zero, take_eq_take_iff, numVolumes]
  omega

/-- The response to a request that is complete. -/
theorem processGetvols_eq (hcount : count ≤ intMax) :
    processGetvols (some server) ⟨true, start, count⟩ =
      if min count server.numVolumes < start then getvolsError resultError
      else ⟨ipcGetvolsResponseSize + min count server.numVolumes * afpcVolumeInfoSize, resultOk,
        min count server.numVolumes,
        (List.range' start (min count server.numVolumes)).map server.volume⟩ := by
  have hunsigned : ((count : ℤ) % 4294967296).toNat = count := by
    simp only [intMax] at hcount
    omega
  have hvalid : ¬(¬true = true ∨ (start : ℤ) < 0) := by
    rintro (h | h)
    · exact h rfl
    · omega
  unfold processGetvols
  rw [if_neg hvalid]
  dsimp only
  rw [hunsigned, Int.toNat_natCast]

/-- **One page is right** at the start of the list, behind its end, and where
the whole page is there and starts at `count` at the latest. -/
theorem pageCorrect_iff (hcount : count ≤ intMax) :
    PageCorrect server start count (processGetvols (some server) ⟨true, start, count⟩) ↔
      start = 0 ∨ server.numVolumes < start ∨
        start ≤ count ∧ start + count ≤ server.numVolumes := by
  rw [processGetvols_eq server hcount]
  unfold PageCorrect
  by_cases hbehind : server.numVolumes < start
  · rw [if_pos hbehind, if_pos (by omega)]
    exact ⟨fun _ => .inr (.inl hbehind), fun _ => .inr rfl⟩
  rw [if_neg hbehind]
  by_cases hrefused : min count server.numVolumes < start
  · rw [if_pos hrefused]
    refine ⟨fun h => absurd h.1 (by decide), fun h => ?_⟩
    omega
  rw [if_neg hrefused]
  dsimp only
  rw [server.length_page]
  constructor
  · rintro ⟨-, -, hnum⟩
    omega
  · intro h
    refine ⟨rfl, ?_, by omega⟩
    rcases h with rfl | h | ⟨hle, hfit⟩
    · exact server.map_volume_zero
    · exact absurd h hbehind
    · rw [min_eq_left (by omega)]
      exact server.map_volume hfit

/-! ## Page after page -/

/-- Pages of `k` volumes, until one is empty or refused. -/
def getvolsPages (k : ℕ) : ℕ → ℕ → List AfpcVolumeInfo
  | 0, _ => []
  | turns + 1, start =>
      let (ret, num, vols) := afpSlGetvols (some server) start k
      if ret ≠ 0 ∨ num = 0 then [] else vols ++ getvolsPages k turns (start + k)

/-- What the client gets of one page. -/
theorem afpSlGetvols_eq (hstart : start ≤ intMax) (hcount : count ≤ intMax) :
    afpSlGetvols (some server) start count =
      if min count server.numVolumes < start then (-eio, 0, [])
      else (0, min count server.numVolumes,
        (List.range' start (min count server.numVolumes)).map server.volume) := by
  have hints : toInt start = start ∧ toInt count = count := by
    simp only [toInt, intMax] at *
    omega
  unfold afpSlGetvols
  rw [hints.1, hints.2, processGetvols_eq server hcount]
  split
  · rfl
  · dsimp only
    rw [if_pos (by decide), take_of_length_le (by rw [length_map, length_range'])]

/-- A page that starts behind `count` is refused, whatever there is. -/
theorem afpSlGetvols_refused (hstart : start < 4294967296) (hcount : count ≤ intMax)
    (h : count < start) : afpSlGetvols (some server) start count = (-eio, 0, []) := by
  rcases lt_or_ge start 2147483648 with hsmall | hlarge
  · rw [afpSlGetvols_eq server (Nat.le_of_lt_succ hsmall) hcount, if_pos (by omega)]
  · -- as an `int` it is negative
    have hneg : toInt start < 0 := by
      unfold toInt
      split <;> omega
    have hrefused : processGetvols (some server) ⟨true, toInt start, toInt count⟩ =
        getvolsError resultError := if_pos (.inr hneg)
    unfold afpSlGetvols
    rw [hrefused]
    rfl

/-- Of all the pages, the first two come. -/
theorem getvolsPages_eq {turns : ℕ} (hcount : count ≤ intMax) (hpos : 0 < count) :
    getvolsPages server count (turns + 3) 0 = server.page 0 count ++
      if count ≤ server.numVolumes then (List.range' count count).map server.volume else [] := by
  have hthird : getvolsPages server count (turns + 1) (0 + count + count) = [] := by
    unfold getvolsPages
    rw [afpSlGetvols_refused server (by simp only [intMax] at hcount; omega) hcount (by omega)]
    rfl
  have hsecond : getvolsPages server count (turns + 2) (0 + count) =
      if count ≤ server.numVolumes then (List.range' count count).map server.volume else [] := by
    unfold getvolsPages
    rw [hthird, afpSlGetvols_eq server (by omega) hcount, Nat.zero_add]
    by_cases hle : count ≤ server.numVolumes
    · rw [min_eq_left hle, if_neg (lt_irrefl _), if_pos hle]
      dsimp only
      rw [if_neg (by omega), append_nil]
    · rw [if_pos (by omega), if_neg hle]
      rfl
  unfold getvolsPages
  rw [hsecond, afpSlGetvols_eq server (Nat.zero_le _) hcount, if_neg (by omega)]
  dsimp only
  split
  · next hnone =>
    -- there are no volumes at all
    have hempty : server.page 0 count = [] := by
      rw [← length_eq_zero_iff, server.length_page]
      omega
    rw [hempty, if_neg (by omega)]
    rfl
  · rw [server.map_volume_zero]

/-- **The list of volumes through the daemon.** A page is right as said; and
whoever asks for page after page gets each volume once if all of them are on
the first page and it is not full, or if they fill two pages. -/
theorem getvols_pages_iff (hcount : count ≤ intMax) :
    (PageCorrect server start count (processGetvols (some server) ⟨true, start, count⟩) ↔
      start = 0 ∨ server.numVolumes < start ∨
        start ≤ count ∧ start + count ≤ server.numVolumes) ∧
    ∀ turns, 3 ≤ turns → 0 < count →
      (getvolsPages server count turns 0 = server.volumes ↔
        server.numVolumes < count ∨ server.numVolumes = 2 * count) := by
  refine ⟨pageCorrect_iff server hcount, fun turns hturns hpos => ?_⟩
  obtain ⟨turns, rfl⟩ : ∃ n, turns = n + 3 := ⟨turns - 3, by omega⟩
  rw [getvolsPages_eq server hcount hpos]
  constructor
  · intro h
    have hlen := congrArg List.length h
    rw [length_append, server.length_page] at hlen
    have hnum : server.volumes.length = server.numVolumes := rfl
    split at hlen
    · rw [length_map, length_range'] at hlen
      omega
    · omega
  · rintro (hlt | htwo)
    · rw [if_neg (by omega), append_nil, page, drop_zero]
      exact take_of_length_le (le_of_lt hlt)
    · rw [if_pos (by omega), server.map_volume (by omega), page, page, drop_zero]
      have hrest : (server.volumes.drop count).length ≤ count := by
        rw [length_drop]
        exact Nat.sub_le_iff_le_add.mpr (by unfold numVolumes at htwo; omega)
      rw [take_of_length_le hrest, take_append_drop]

end Volumes

/-! ## Five volumes -/

/-- Volumes that are told apart by their flags. -/
def fiveVolumes : VolumeArray where
  volumes := [⟨[97], 1⟩, ⟨[98], 2⟩, ⟨[99], 3⟩, ⟨[100], 4⟩, ⟨[101], 5⟩]
  numVolumes_lt := by decide
  behind _ := ⟨[], 0⟩

/-- All on one page. -/
theorem getvols_five : getvolsPages fiveVolumes 6 3 0 = fiveVolumes.volumes :=
  ((@getvols_pages_iff fiveVolumes 0 6 (by decide)).2 3 (by decide) (by decide)).mpr
    (.inl (by decide))

/-- Of pages of two volumes the third, with the last volume, is refused. -/
theorem getvols_five_by_two :
    (processGetvols (some fiveVolumes) ⟨true, 4, 2⟩).result = resultError ∧
      getvolsPages fiveVolumes 2 10 0 ≠ fiveVolumes.volumes := by
  decide

end NetatalkClient
