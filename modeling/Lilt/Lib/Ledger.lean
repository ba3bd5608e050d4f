import Mathlib.Data.List.Nodup
import Mathlib.Data.List.Perm.Basic

/-!
# Objects that are created and destroyed

A log of creations and destructions, oldest first, tells which objects exist. A name
may be given again once its object is destroyed.

- `Ledger.live`: the objects that were created and not destroyed.
- `Ledger.Sound`: what is destroyed exists, so nothing is destroyed twice.
- `Ledger.Fresh`: a new object gets a name that no object has.
- `Ledger.Owns`: somebody holds all objects, each once.
- `Owns.createAll`, `Owns.destroyAll`: what is created is held, what is destroyed was.
-/

namespace Ledger

universe u

inductive Event (κ : Type u) where
  | create (k : κ)
  | destroy (k : κ)

variable {κ : Type u} [DecidableEq κ]

def Event.apply (live : List κ) : Event κ → List κ
  | .create k => k :: live
  | .destroy k => live.erase k

/-- The objects that were created and are not destroyed. -/
def live (log : List (Event κ)) : List κ := log.foldl Event.apply []

/-- What is destroyed exists. -/
def Sound (log : List (Event κ)) : Prop :=
  ∀ before k after, log = before ++ .destroy k :: after → k ∈ live before

/-- A new object gets a name that no object has. -/
def Fresh (log : List (Event κ)) : Prop :=
  ∀ before k after, log = before ++ .create k :: after → k ∉ live before

/-- The objects `held` are all there are, no two of them are one, and what was
destroyed existed. -/
structure Owns (log : List (Event κ)) (held : List κ) : Prop where
  perm : (live log).Perm held
  nodup : held.Nodup
  sound : Sound log

variable {log more : List (Event κ)} {held held' : List κ} {k : κ}

@[simp] theorem live_snoc (log : List (Event κ)) (e : Event κ) :
    live (log ++ [e]) = e.apply (live log) := by
  simp [live]

theorem Fresh.of_append (h : Fresh (log ++ more)) : Fresh log := by
  intro before k after hlog
  refine h before k (after ++ more) ?_
  rw [hlog, List.append_assoc]
  rfl

theorem Fresh.not_live (h : Fresh (log ++ .create k :: more)) : k ∉ live log := h log k more rfl

theorem sound_nil : Sound ([] : List (Event κ)) := by
  intro before k after hlog
  exact absurd hlog (by simp)

/-- One more event: a destruction must be of an object that exists. -/
theorem Sound.snoc (h : Sound log) {e : Event κ} (he : ∀ k, e = .destroy k → k ∈ live log) :
    Sound (log ++ [e]) := by
  intro before k after hlog
  rcases List.eq_nil_or_concat after with rfl | ⟨after, x, rfl⟩
  · obtain ⟨rfl, hx⟩ := List.append_inj' hlog rfl
    exact he k (List.singleton_inj.mp hx)
  · rw [List.concat_eq_append, ← List.cons_append, ← List.append_assoc] at hlog
    obtain ⟨rfl, -⟩ := List.append_inj' hlog rfl
    exact h before k after rfl

namespace Owns

theorem nil : Owns ([] : List (Event κ)) [] := ⟨.refl _, List.nodup_nil, sound_nil⟩

theorem of_perm (h : Owns log held) (hperm : held.Perm held') : Owns log held' :=
  ⟨h.perm.trans hperm, hperm.nodup_iff.mp h.nodup, h.sound⟩

theorem create (h : Owns log held) (hk : k ∉ live log) :
    Owns (log ++ [.create k]) (k :: held) := by
  refine ⟨?_, ?_, h.sound.snoc fun _ he => nomatch he⟩
  · rw [live_snoc]
    exact h.perm.cons k
  · exact List.nodup_cons.mpr ⟨fun hmem => hk (h.perm.mem_iff.mpr hmem), h.nodup⟩

theorem destroy (h : Owns log (k :: held)) : Owns (log ++ [.destroy k]) held := by
  refine ⟨?_, h.nodup.of_cons, h.sound.snoc ?_⟩
  · rw [live_snoc]
    have hperm := h.perm.erase k
    rwa [List.erase_cons_head] at hperm
  · rintro _ ⟨⟩
    exact h.perm.mem_iff.mpr List.mem_cons_self

/-- All objects that a caller has created are held by it. -/
theorem createAll {ks : List κ} (h : Owns log held) (hfresh : Fresh (log ++ ks.map .create)) :
    Owns (log ++ ks.map .create) (ks ++ held) := by
  induction ks generalizing log held with
  | nil =>
    rw [List.map_nil, List.append_nil]
    exact h
  | cons k ks ih =>
    rw [List.map_cons] at hfresh ⊢
    have hcreated := h.create hfresh.not_live
    rw [List.append_cons] at hfresh ⊢
    -- the first object is held while the others are created
    exact (ih hcreated hfresh).of_perm List.perm_middle

/-- Objects that somebody gives up are destroyed. -/
theorem destroyAll {ks : List κ} (h : Owns log (ks ++ held)) :
    Owns (log ++ ks.map .destroy) held := by
  induction ks generalizing log with
  | nil =>
    rw [List.map_nil, List.append_nil]
    exact h
  | cons k ks ih =>
    rw [List.map_cons, List.append_cons]
    exact ih h.destroy

end Owns

end Ledger
