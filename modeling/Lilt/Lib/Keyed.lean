import Mathlib.Data.List.Nodup

/-!
# Linked lists of entries with keys

A list of entries is searched for the first one with a key, and that entry is
changed in place or unlinked. Where no key occurs twice, this is what it says of all
entries with the key.

- `find`, `erase`, `update`: the operations, on the first entry.
- `find_some`, `find_none`: what the operations do to the list.
- `find_cons`, `find_erase_of_ne`, `find_update_of_ne`: what is found behind them.
- `forall₂_erase`, `forall₂_update`: two lists of related entries stay related.
- `Distinct`: no key occurs twice.
- `Distinct.find_iff`, `Distinct.mem_erase`, `Distinct.mem_update`,
  `Distinct.find_erase`: what they find and leave.
- `Distinct.erase`, `Distinct.update`, `Distinct.cons`: they keep keys distinct.
-/

namespace Keyed

universe u v

variable {α : Type u} {κ : Type v} [DecidableEq κ]

/-! ## The operations -/

/-- The first entry with the key `k`. -/
def find (key : α → κ) (k : κ) (l : List α) : Option α := l.find? fun a => key a = k

/-- The list without its first entry with the key `k`. -/
def erase (key : α → κ) (k : κ) (l : List α) : List α := l.eraseP fun a => key a = k

/-- The list with its first entry with the key `k` changed. -/
def update (key : α → κ) (k : κ) (f : α → α) : List α → List α
  | [] => []
  | a :: l => if key a = k then f a :: l else a :: update key k f l

/-! ## What the operations do -/

section

variable {key : α → κ} {k k' : κ} {a : α} {l : List α}

/-- The entry that is found is the one that is unlinked or changed. -/
theorem find_some (h : find key k l = some a) :
    key a = k ∧ ∃ l₁ l₂, l = l₁ ++ a :: l₂ ∧ erase key k l = l₁ ++ l₂ ∧
      ∀ f, update key k f l = l₁ ++ f a :: l₂ := by
  induction l with
  | nil => cases h
  | cons b l ih =>
    unfold find at h
    rw [List.find?_cons] at h
    unfold erase
    rw [List.eraseP_cons]
    by_cases hb : key b = k
    · rw [decide_eq_true hb] at h
      obtain rfl := Option.some.inj h
      rw [decide_eq_true hb]
      exact ⟨hb, [], l, rfl, rfl, fun f => if_pos hb⟩
    · rw [decide_eq_false hb] at h
      obtain ⟨ha, l₁, l₂, hl, herase, hupdate⟩ := ih h
      rw [decide_eq_false hb]
      refine ⟨ha, b :: l₁, l₂, ?_, ?_, fun f => ?_⟩
      · rw [hl]
        rfl
      · exact congrArg (b :: ·) herase
      · unfold update
        rw [if_neg hb, hupdate f]
        rfl

/-- Where no entry has the key, unlinking and changing do nothing. -/
theorem find_none (h : find key k l = none) :
    erase key k l = l ∧ ∀ f, update key k f l = l := by
  induction l with
  | nil => exact ⟨rfl, fun _ => rfl⟩
  | cons b l ih =>
    unfold find at h
    rw [List.find?_cons] at h
    unfold erase
    rw [List.eraseP_cons]
    by_cases hb : key b = k
    · rw [decide_eq_true hb] at h
      cases h
    · rw [decide_eq_false hb] at h
      obtain ⟨herase, hupdate⟩ := ih h
      rw [decide_eq_false hb]
      refine ⟨congrArg (b :: ·) herase, fun f => ?_⟩
      unfold update
      rw [if_neg hb, hupdate f]

/-- What is found in a list with one more entry. -/
theorem find_cons (a : α) (l : List α) :
    find key k (a :: l) = if key a = k then some a else find key k l := by
  unfold find
  rw [List.find?_cons]
  by_cases ha : key a = k
  · rw [decide_eq_true ha, if_pos ha]
  · rw [decide_eq_false ha, if_neg ha]

/-- Other keys find what they found. -/
theorem find_erase_of_ne (h : k' ≠ k) : find key k' (erase key k l) = find key k' l := by
  cases hfind : find key k l with
  | none => rw [(find_none hfind).1]
  | some a =>
    obtain ⟨ha, l₁, l₂, hl, herase, -⟩ := find_some hfind
    have hne : ¬ key a = k' := fun h' => h (h'.symm.trans ha)
    rw [herase, hl]
    unfold find
    rw [List.find?_append, List.find?_append, List.find?_cons, decide_eq_false hne]

/-- A change of the entry of one key leaves what is found for another. -/
theorem find_update_of_ne (h : k' ≠ k) {f : α → α} (hf : ∀ a, key (f a) = key a) :
    find key k' (update key k f l) = find key k' l := by
  cases hfind : find key k l with
  | none => rw [(find_none hfind).2]
  | some a =>
    obtain ⟨ha, l₁, l₂, hl, -, hupdate⟩ := find_some hfind
    have hne : ¬ key a = k' := fun h' => h (h'.symm.trans ha)
    have hfne : ¬ key (f a) = k' := by rwa [hf]
    rw [hupdate, hl]
    unfold find
    rw [List.find?_append, List.find?_append, List.find?_cons, List.find?_cons,
      decide_eq_false hne, decide_eq_false hfne]

/-- For its own key the changed entry is found. -/
theorem find_update_self {f : α → α} (hf : ∀ a, key (f a) = key a) :
    find key k (update key k f l) = (find key k l).map f := by
  induction l with
  | nil => rfl
  | cons b l ih =>
    unfold update
    rw [find_cons]
    by_cases hb : key b = k
    · rw [if_pos hb, if_pos hb, find_cons, if_pos ((hf b).trans hb)]
      rfl
    · rw [if_neg hb, if_neg hb, find_cons, if_neg hb, ih]

end

/-! ## Related lists -/

section

variable {β : Type v} {R : α → β → Prop} {key : α → κ} {key' : β → κ} {k : κ} {l : List α}
  {l' : List β}

/-- Related lists stay related when an entry is unlinked from both. -/
theorem forall₂_erase (hkey : ∀ a b, R a b → key' b = key a) (h : List.Forall₂ R l l') :
    List.Forall₂ R (erase key k l) (erase key' k l') := by
  unfold erase
  induction h with
  | nil => exact .nil
  | @cons a b l l' hab hrest ih =>
    rw [List.eraseP_cons, List.eraseP_cons, hkey a b hab]
    cases decide (key a = k) with
    | true => exact hrest
    | false => exact .cons hab ih

/-- Related lists stay related when the entry of a key is changed in both. -/
theorem forall₂_update (hkey : ∀ a b, R a b → key' b = key a) {f : α → α} {g : β → β}
    (hfg : ∀ a b, R a b → R (f a) (g b)) (h : List.Forall₂ R l l') :
    List.Forall₂ R (update key k f l) (update key' k g l') := by
  induction h with
  | nil => exact .nil
  | @cons a b l l' hab hrest ih =>
    unfold update
    rw [hkey a b hab]
    split
    · exact .cons (hfg a b hab) hrest
    · exact .cons hab ih

/-- Related lists find related entries. -/
theorem forall₂_find (hkey : ∀ a b, R a b → key' b = key a) (h : List.Forall₂ R l l') :
    Option.Rel R (find key k l) (find key' k l') := by
  induction h with
  | nil => exact .none
  | @cons a b l l' hab _ ih =>
    rw [find_cons, find_cons, hkey a b hab]
    split
    · exact .some hab
    · exact ih

end

/-! ## Distinct keys -/

/-- No key occurs twice. -/
def Distinct (key : α → κ) (l : List α) : Prop := (l.map key).Nodup

namespace Distinct

variable {key : α → κ} {k : κ} {a b : α} {l : List α} {f : α → α}

omit [DecidableEq κ] in
/-- The keys behind the first entry are distinct and are not its key. -/
theorem of_cons (h : Distinct key (a :: l)) : (∀ b ∈ l, key b ≠ key a) ∧ Distinct key l := by
  obtain ⟨hhead, htail⟩ := List.nodup_cons.mp h
  refine ⟨fun b hb heq => hhead ?_, htail⟩
  exact List.mem_map.mpr ⟨b, hb, heq⟩

omit [DecidableEq κ] in
/-- An entry with a new key can be put in front. -/
theorem cons (h : Distinct key l) (ha : ∀ b ∈ l, key b ≠ key a) : Distinct key (a :: l) := by
  refine List.nodup_cons.mpr ⟨fun hmem => ?_, h⟩
  obtain ⟨b, hb, heq⟩ := List.mem_map.mp hmem
  exact ha b hb heq

/-- The search finds exactly the entry with the key. -/
theorem find_iff (h : Distinct key l) : find key k l = some a ↔ a ∈ l ∧ key a = k := by
  unfold find
  constructor
  · intro hfind
    have hkey := List.find?_some hfind
    rw [decide_eq_true_iff] at hkey
    exact ⟨List.mem_of_find?_eq_some hfind, hkey⟩
  · rintro ⟨hmem, rfl⟩
    induction l with
    | nil => cases hmem
    | cons b l ih =>
      obtain ⟨hne, htail⟩ := h.of_cons
      rcases List.mem_cons.mp hmem with rfl | hmem
      · rw [List.find?_cons, decide_eq_true rfl]
      · rw [List.find?_cons, decide_eq_false fun heq => hne a hmem heq.symm]
        exact ih htail hmem

/-- Unlinking takes away the entry with the key and no other. -/
theorem mem_erase (h : Distinct key l) : b ∈ erase key k l ↔ b ∈ l ∧ key b ≠ k := by
  unfold Keyed.erase
  induction l with
  | nil => exact iff_of_false List.not_mem_nil fun h => List.not_mem_nil h.1
  | cons a l ih =>
    obtain ⟨hne, htail⟩ := h.of_cons
    rw [List.eraseP_cons, List.mem_cons]
    by_cases heq : key a = k
    · -- this entry goes, and no later one has its key
      subst heq
      rw [decide_eq_true rfl, cond_true]
      constructor
      · exact fun hb => ⟨.inr hb, hne b hb⟩
      · rintro ⟨rfl | hb, hkey⟩
        · exact absurd rfl hkey
        · exact hb
    · rw [decide_eq_false heq, cond_false, List.mem_cons, ih htail]
      constructor
      · rintro (rfl | ⟨hb, hkey⟩)
        · exact ⟨.inl rfl, heq⟩
        · exact ⟨.inr hb, hkey⟩
      · rintro ⟨rfl | hb, hkey⟩
        · exact .inl rfl
        · exact .inr ⟨hb, hkey⟩

/-- What is unlinked is not found again. -/
theorem find_erase (h : Distinct key l) : find key k (Keyed.erase key k l) = none := by
  refine List.find?_eq_none.mpr fun b hb => ?_
  rw [decide_eq_true_iff]
  exact (h.mem_erase.mp hb).2

theorem erase (h : Distinct key l) : Distinct key (Keyed.erase key k l) :=
  List.Nodup.sublist (List.eraseP_sublist.map key) h

/-- An entry behind a change is an entry of another key, or the one that was changed. -/
theorem mem_update (h : Distinct key l) (hb : b ∈ update key k f l) :
    (b ∈ l ∧ key b ≠ k) ∨ ∃ a ∈ l, key a = k ∧ b = f a := by
  induction l with
  | nil => cases hb
  | cons a l ih =>
    obtain ⟨hne, htail⟩ := h.of_cons
    unfold Keyed.update at hb
    split at hb
    next heq =>
      subst heq
      rcases List.mem_cons.mp hb with rfl | hb
      · exact .inr ⟨a, List.mem_cons_self .., rfl, rfl⟩
      · exact .inl ⟨List.mem_cons_of_mem _ hb, hne b hb⟩
    next heq =>
      rcases List.mem_cons.mp hb with rfl | hb
      · exact .inl ⟨List.mem_cons_self .., heq⟩
      · rcases ih htail hb with ⟨hb, hkey⟩ | ⟨c, hc, hkey, rfl⟩
        · exact .inl ⟨List.mem_cons_of_mem _ hb, hkey⟩
        · exact .inr ⟨c, List.mem_cons_of_mem _ hc, hkey, rfl⟩

theorem update (h : Distinct key l) (hf : ∀ a, key (f a) = key a) :
    Distinct key (Keyed.update key k f l) := by
  have hkeys : (Keyed.update key k f l).map key = l.map key := by
    clear h
    induction l with
    | nil => rfl
    | cons a l ih =>
      unfold Keyed.update
      split
      · rw [List.map_cons, List.map_cons, hf]
      · rw [List.map_cons, List.map_cons, ih]
  unfold Distinct
  rw [hkeys]
  exact h

end Distinct

end Keyed
