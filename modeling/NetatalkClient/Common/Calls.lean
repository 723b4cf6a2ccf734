import Mathlib.Logic.Basic
/-!
# What calls ensure

A call takes a state to a result and the state after it. `Ensures` says
what a call that starts in a given kind of state returns and leaves; the
rules follow the way calls are put together, so that what a function
ensures is assembled from what its parts ensure.
-/

namespace NetatalkClient

variable {σ α β : Type}

/-- One call after another, run from a state. -/
theorem run_bind (m : StateM σ β) (f : β → StateM σ α) (s : σ) :
    (m >>= f).run s = (f (m.run s).1).run (m.run s).2 := rfl

/-- From a state with `pre`, `m` returns and leaves what `post` says. -/
def Ensures (pre : σ → Prop) (m : StateM σ α) (post : α → σ → Prop) : Prop :=
  ∀ s, pre s → post (m.run s).1 (m.run s).2

/-- A call that keeps `P`. -/
def Keeps (P : σ → Prop) (m : StateM σ α) : Prop := Ensures P m fun _ => P

/-- Whatever the state, `m` returns what `p` says. -/
def Returns (m : StateM σ α) (p : α → Prop) : Prop := Ensures (fun _ => True) m fun a _ => p a

namespace Ensures

variable {pre pre' : σ → Prop} {post post' : α → σ → Prop} {m : StateM σ α}

theorem mono (h : Ensures pre m post) (hpre : ∀ s, pre' s → pre s)
    (hpost : ∀ a s, post a s → post' a s) : Ensures pre' m post' := fun s hs =>
  hpost _ _ (h s (hpre s hs))

theorem pure {a : α} (h : ∀ s, pre s → post a s) : Ensures pre (Pure.pure a) post := h

/-- What two rules say of a call. -/
theorem and (h : Ensures pre m post) (h' : Ensures pre m post') :
    Ensures pre m fun a s => post a s ∧ post' a s := fun s hs => ⟨h s hs, h' s hs⟩

/-- A call that only returns leaves the state as it is. -/
theorem kept {a : α} : Ensures pre (Pure.pure a) fun _ => pre := fun _ hs => hs

/-- What is known beside the state. -/
theorem assume {p : Prop} (h : p → Ensures pre m post) : Ensures (fun s => p ∧ pre s) m post :=
  fun s hs => h hs.1 s hs.2

/-- From each of several kinds of state, so from a state of any of them. -/
theorem exists_pre {ι : Type} {pre : ι → σ → Prop} (h : ∀ i, Ensures (pre i) m post) :
    Ensures (fun s => ∃ i, pre i s) m post := fun s ⟨i, hs⟩ => h i s hs

/-- One call after another: the second starts where the first ends. -/
theorem bind {mid : β → σ → Prop} {m : StateM σ β} {f : β → StateM σ α} (hm : Ensures pre m mid)
    (hf : ∀ b, Ensures (mid b) (f b) post) : Ensures pre (m >>= f) post := fun s hs =>
  hf _ _ (hm s hs)

/-- Nothing about the first call is needed. -/
theorem bind_any {m : StateM σ β} {f : β → StateM σ α}
    (hf : ∀ b, Ensures (fun _ => True) (f b) post) : Ensures pre (m >>= f) post := fun _ _ =>
  hf _ _ trivial

/-- The first call can only return `b`. -/
theorem bind_eq {b : β} {m : StateM σ β} {f : β → StateM σ α} (hm : Ensures pre m fun a _ => a = b)
    (hf : Ensures (fun _ => True) (f b) post) : Ensures pre (m >>= f) post :=
  bind hm fun a s (hs : a = b) => hs ▸ hf s trivial

theorem ite {c : Prop} [Decidable c] {m' : StateM σ α} (ht : c → Ensures pre m post)
    (hf : ¬c → Ensures pre m' post) : Ensures pre (if c then m else m') post := by
  split
  · next hc => exact ht hc
  · next hc => exact hf hc

section EarlyReturn

variable {c : Prop} [Decidable c] {a : α}

/-- An early return. -/
theorem orPure (ha : ∀ s, pre s → post a s) (h : Ensures pre m post) :
    Ensures pre (if c then Pure.pure a else m) post := .ite (fun _ => .pure ha) fun _ => h

theorem orKept (h : Ensures pre m fun _ => pre) :
    Ensures pre (if c then Pure.pure a else m) fun _ => pre := .ite (fun _ => .kept) fun _ => h

/-- A result of which nothing is asked. -/
theorem fail {q : α → Prop} {P : α → σ → Prop} (ha : ¬q a) :
    Ensures pre (Pure.pure a) fun r s => q r → P r s := fun _ _ h => absurd h ha

theorem orFail {q : α → Prop} {P : α → σ → Prop} (ha : ¬q a)
    (h : Ensures pre m fun r s => q r → P r s) :
    Ensures pre (if c then Pure.pure a else m) fun r s => q r → P r s :=
  .ite (fun _ => .fail ha) fun _ => h

/-- A branch that is not taken. -/
theorem skip {m' : StateM σ α} (hc : ¬c) (h : Ensures pre m post) :
    Ensures pre (if c then m' else m) post := .ite (fun h' => absurd h' hc) fun _ => h

end EarlyReturn

end Ensures

namespace Returns

variable {p : α → Prop} {m : StateM σ α}

/-- Whatever the state, so from this kind of state as well. -/
theorem ensures {pre : σ → Prop} (h : Returns m p) : Ensures pre m fun a _ => p a := fun s _ =>
  h s trivial

theorem pure {a : α} (h : p a) : Returns (σ := σ) (Pure.pure a) p := fun _ _ => h

/-- What the first call returns is known to the second. -/
theorem bind {r : β → Prop} {m : StateM σ β} {f : β → StateM σ α} (hm : Returns m r)
    (hf : ∀ b, r b → Returns (f b) p) : Returns (m >>= f) p := fun s hs => hf _ (hm s hs) _ trivial

/-- Nothing about the first call is needed. -/
theorem bind_any {m : StateM σ β} {f : β → StateM σ α} (hf : ∀ b, Returns (f b) p) :
    Returns (m >>= f) p := fun _ _ => hf _ _ trivial

theorem ite {c : Prop} [Decidable c] {m' : StateM σ α} (ht : c → Returns m p)
    (hf : ¬c → Returns m' p) : Returns (if c then m else m') p := Ensures.ite ht hf

theorem orPure {c : Prop} [Decidable c] {a : α} (ha : p a) (h : Returns m p) :
    Returns (if c then Pure.pure a else m) p := .ite (fun _ => .pure ha) fun _ => h

theorem skip {c : Prop} [Decidable c] {m' : StateM σ α} (hc : ¬c) (h : Returns m p) :
    Returns (if c then m' else m) p := Ensures.skip hc h

end Returns

end NetatalkClient
