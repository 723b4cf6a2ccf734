import NetatalkClient.Afp.Model.Status
/-!
# Which status texts are truthful

The position in the status text counts what was printed and what was cut
off alike. So the buffer, the result and the length that is left agree
with the text exactly if all of it fits.
-/

namespace NetatalkClient

open Octets List

section Status

variable (uamBitmapToString : ℕ → Octets) (afpGetCommandName : UInt8 → Octets)

/-- The full status text. -/
def statusText (s : Option StatusServer) : Octets :=
  (statusPieces uamBitmapToString afpGetCommandName s).flatten

/-- The first `n - 1` characters of the status text are in the buffer, and
their number is returned and taken off the length. -/
def StatusTruthful (s : Option StatusServer) (n : ℕ) : Prop :=
  let total := statusText uamBitmapToString afpGetCommandName s
  ∃ buf, afpStatusServer uamBitmapToString afpGetCommandName s n =
      some (buf, min (n - 1) total.length, (n : ℤ) - (min (n - 1) total.length : ℕ)) ∧
    total.take (n - 1) ++ [0] <+: buf

end Status

/-- The names with a comma between them. -/
def joinedNames (volumes : List Octets) : Octets := (text ", ").intercalate volumes

/-- A prefix of the names is in the buffer, and its length is returned.
Without volumes nothing is written. -/
def VolnamesTruthful (volumes : List Octets) (names : Octets) : Prop :=
  ∃ buf, afpListVolnames volumes names =
      some (buf, min (names.length - 1) (joinedNames volumes).length) ∧
    (joinedNames volumes).take (names.length - 1) ++ (if volumes = [] then [] else [0]) <+: buf

theorem flatten_volnamePieces (volumes : List Octets) :
    (volnamePieces volumes).flatten = joinedNames volumes := by
  induction volumes using volnamePieces.induct with
  | case1 => rfl
  | case2 name => simp [volnamePieces, joinedNames, List.intercalate]
  | case3 name names hne ih =>
    obtain ⟨next, names, rfl⟩ := exists_cons_of_ne_nil hne
    rw [volnamePieces, flatten_cons, ih]
    · simp [joinedNames, List.intercalate]
    · exact hne

theorem afpStatusServer_eq_some {uams : ℕ → Octets} {commands : UInt8 → Octets}
    {s : Option StatusServer} {n pos : ℕ} {buf : Octets} :
    afpStatusServer uams commands s n = some (buf, pos, (n : ℤ) - pos) ↔
      printAll (statusPieces uams commands s) (replicate n 0) 0 = some (buf, pos) := by
  unfold afpStatusServer
  rw [Option.map_eq_some_iff]
  constructor
  · rintro ⟨⟨b, p⟩, hprint, h⟩
    cases h
    exact hprint
  · exact fun hprint => ⟨_, hprint, rfl⟩

/-- **A status text is truthful exactly if it fits**, for every server and
every buffer, whatever the names of methods and commands; and so is a list
of volume names. -/
theorem status_truthful_iff (uams : ℕ → Octets) (commands : UInt8 → Octets)
    (s : Option StatusServer) {n : ℕ} (hn : 0 < n) (volumes : List Octets) {names : Octets}
    (hpos : 0 < names.length) :
    (StatusTruthful uams commands s n ↔ (statusText uams commands s).length < n) ∧
      (VolnamesTruthful volumes names ↔ (joinedNames volumes).length < names.length) := by
  constructor
  · have hlen : (replicate n (0 : UInt8)).length = n := length_replicate
    have hiff := @prints_prefix_iff (replicate n 0) (statusPieces uams commands s) (by omega)
    have hne : statusPieces uams commands s ≠ [] := by
      cases s with
      | none => exact nofun
      | some s => simp [statusPieces]
    rw [if_neg hne, hlen] at hiff
    unfold StatusTruthful
    simp only [afpStatusServer_eq_some]
    exact hiff
  · have hnil : volnamePieces volumes = [] ↔ volumes = [] := by
      rcases volumes with _ | ⟨_, _ | _⟩
      all_goals simp [volnamePieces]
    have hiff := @prints_prefix_iff names (volnamePieces volumes) hpos
    simp only [flatten_volnamePieces, hnil] at hiff
    exact hiff

/-- Without a server the text has 29 characters. -/
theorem unconnected_fits : StatusTruthful (fun _ => []) (fun _ => []) none 30 ∧
    VolnamesTruthful [text "a", text "b"] (replicate 5 0) := by
  obtain ⟨hstatus, hnames⟩ := status_truthful_iff (fun _ => []) (fun _ => []) none
    (show 0 < 30 by decide) [text "a", text "b"] (show 0 < (replicate 5 0).length by decide)
  exact ⟨hstatus.mpr (by decide), hnames.mpr (by decide)⟩

/-- **A text that is cut off is counted in full**: 9 characters are in the
buffer of 10, 29 are returned, and the length that is left is negative. -/
theorem unconnected_cut :
    afpStatusServer (fun _ => []) (fun _ => []) none 10 =
      some (text "Not conne" ++ [0], 29, -19) := by
  decide

end NetatalkClient
