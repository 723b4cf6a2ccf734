import Mathlib.Data.List.Nodup
import Mathlib.Data.List.Infix
/-!
# FUSE daemon: the clients that are connected

`fuse_add_client` and `remove_client` of `fuse/commands.c`, on the list
that starts at `client_base`. To remove the first client is to lose the
others as well.
-/

namespace NetatalkClient

open List

/-! ## The code -/

/-- A call: of `fuse_add_client`, and whether there is memory for the client,
or of `remove_client`. Clients are numbered as they are added. -/
inductive ClientCall where
  | add (allocated : Bool)
  | remove (client : ℕ)
  deriving DecidableEq, Repr

/-- The clients from `client_base` on, and the number of those ever added. -/
structure ClientList where
  clients : List ℕ
  added : ℕ
  deriving DecidableEq, Repr

/-- The loop of `remove_client`: what a pointer leads to after it, which is
`client_base` as long as there is no `prev`. -/
def removeLoop (toremove : ℕ) (prev : Bool) : List ℕ → List ℕ
  | [] => []
  | c :: rest =>
      if c = toremove then
        -- `client_base = NULL`
        if prev then rest else []
      else c :: removeLoop toremove true rest

namespace ClientList

def call (l : ClientList) : ClientCall → ClientList
  | .add false => l
  | .add true => ⟨l.clients ++ [l.added], l.added + 1⟩
  | .remove client => { l with clients := removeLoop client false l.clients }

def after (calls : List ClientCall) : ClientList := calls.foldl call ⟨[], 0⟩

/-! ## What it is for -/

/-- What a call is to do to the clients that are connected. -/
def expected (l : ClientList) : ClientCall → ClientList
  | .add false => l
  | .add true => ⟨l.clients ++ [l.added], l.added + 1⟩
  | .remove client => { l with clients := l.clients.filter (· != client) }

/-- The clients that were added and not removed. -/
def live (calls : List ClientCall) : ClientList := calls.foldl expected ⟨[], 0⟩

variable {l : ClientList} {calls done : List ClientCall} {c : ClientCall} {client : ℕ}

theorem after_concat : after (calls ++ [c]) = (after calls).call c := by
  rw [after, foldl_append, foldl_cons, foldl_nil, after]

theorem live_concat : live (calls ++ [c]) = (live calls).expected c := by
  rw [live, foldl_append, foldl_cons, foldl_nil, live]

/-- Each once, and in the order they were added. -/
theorem live_increasing (calls : List ClientCall) :
    (live calls).clients.Pairwise (· < ·) ∧ ∀ c ∈ (live calls).clients, c < (live calls).added := by
  induction calls using reverseRecOn with
  | nil => exact ⟨.nil, nofun⟩
  | append_singleton calls c ih =>
    rw [live_concat]
    cases c with
    | add allocated =>
      cases allocated with
      | false => exact ih
      | true =>
        refine ⟨pairwise_append.mpr ⟨ih.1, pairwise_singleton _ _, fun x hx => ?_⟩, ?_⟩
        · exact forall_mem_singleton.mpr (ih.2 x hx)
        · refine forall_mem_append.mpr ⟨fun x hx => ?_, ?_⟩
          · exact (ih.2 x hx).trans (Nat.lt_succ_self _)
          · exact forall_mem_singleton.mpr (Nat.lt_succ_self _)
    | remove client => exact ⟨ih.1.filter _, fun x hx => ih.2 x (mem_of_mem_filter hx)⟩

/-- Past the first client, the loop removes what it is to remove. -/
theorem removeLoop_prev (rest : List ℕ) : removeLoop client true rest = rest.erase client := by
  induction rest with
  | nil => rfl
  | cons c rest ih =>
    simp only [removeLoop, erase_cons, ih, if_pos, beq_iff_eq]

/-- **A call does what it is to do** unless it removes the first of several. -/
theorem call_eq_expected_iff (h : l.clients.Nodup) :
    l.call c = l.expected c ↔
      ∀ client other others, c = .remove client → l.clients ≠ client :: other :: others := by
  cases c with
  | add allocated =>
    cases allocated with
    | false => exact iff_of_true rfl nofun
    | true => exact iff_of_true rfl nofun
  | remove client =>
    obtain ⟨clients, added⟩ := l
    cases clients with
    | nil => exact iff_of_true rfl nofun
    | cons first rest =>
      have hexpected : expected ⟨first :: rest, added⟩ (.remove client) =
          ⟨(first :: rest).erase client, added⟩ := by
        rw [h.erase_eq_filter]
        rfl
      rw [hexpected, call, removeLoop, removeLoop_prev, mk.injEq, and_iff_left rfl]
      by_cases hc : first = client
      · subst hc
        rw [if_pos rfl, erase_cons_head]
        cases rest with
        | nil => exact iff_of_true rfl nofun
        | cons other others => exact iff_of_false nofun fun hall => hall first other others rfl rfl
      · rw [if_neg hc, erase_cons_tail (by simpa using hc)]
        refine iff_of_true rfl ?_
        rintro _ other others ⟨⟩ hlist
        exact hc (cons.inj hlist).1

end ClientList

open ClientList

/-- **The list is that of the clients connected, at all times, exactly if**
no call removes the first of several. -/
theorem clients_live_iff (calls : List ClientCall) :
    (∀ done, done <+: calls → after done = live done) ↔
      ∀ done client other others, done ++ [.remove client] <+: calls →
        (live done).clients ≠ client :: other :: others := by
  induction calls using reverseRecOn with
  | nil =>
    refine iff_of_true (fun done h => ?_) fun done client _ _ h => ?_
    · rw [prefix_nil.mp h]
      rfl
    · exact absurd (prefix_nil.mp h) (by simp)
  | append_singleton calls c ih =>
    have hstep : after calls = live calls →
        (after (calls ++ [c]) = live (calls ++ [c]) ↔ ∀ client other others,
          c = .remove client → (live calls).clients ≠ client :: other :: others) := by
      intro heq
      rw [after_concat, live_concat, heq]
      exact call_eq_expected_iff ((live_increasing calls).1.imp Nat.ne_of_lt)
    constructor
    · intro h done client other others hdone
      have hearlier := ih.mp fun done h' => h done (h'.trans (prefix_append calls [c]))
      rcases prefix_concat_iff.mp hdone with heq | hdone
      · obtain ⟨rfl, hc⟩ := append_inj' heq rfl
        have hcalls := h done (prefix_append done [c])
        exact (hstep hcalls).mp (h _ prefix_rfl) client other others (singleton_inj.mp hc).symm
      · exact hearlier done client other others hdone
    · intro h done hdone
      have hearlier := ih.mpr fun done client other others h' =>
        h done client other others (h'.trans (prefix_append calls [c]))
      rcases prefix_concat_iff.mp hdone with rfl | hdone
      · refine (hstep (hearlier calls prefix_rfl)).mpr ?_
        rintro client other others rfl
        exact h calls client other others prefix_rfl
      · exact hearlier done hdone

/-- Of two clients the first is removed. -/
theorem second_client_lost :
    (after [.add true, .add true, .remove 0]).clients = [] ∧
      (live [.add true, .add true, .remove 0]).clients = [1] := by
  decide

end NetatalkClient
