import Mathlib.Data.Finset.Card
import ModelBroker.Lib.Table

/-!
# Tables that refer to each other

Entries of one table may each name an entry of another by its index, its key. If every
entry with a property is named exactly once, it can be counted on either side.

* `Table.countP_of_key`: both counts are the same.
-/

namespace Table

variable {α β : Type*}

/-- The number of entries with a property, as a number of indices. -/
theorem countP_eq_card (P : α → Bool) (l : List α) :
    l.countP P = ((Finset.range l.length).filter fun i => l[i]?.any P = true).card := by
  induction l using List.reverseRecOn with
  | nil => rfl
  | append_singleton l a ih =>
    have hbefore : ∀ i ∈ Finset.range l.length,
        ((l ++ [a])[i]?.any P = true ↔ l[i]?.any P = true) := by
      intro i hi
      rw [List.getElem?_append_left (Finset.mem_range.1 hi)]
    rw [List.countP_append, ih, List.length_append, List.length_singleton, Finset.range_add_one,
      Finset.filter_insert, Finset.filter_congr hbefore, List.getElem?_concat_length]
    cases ha : P a with
    | false => simp [ha]
    | true =>
      rw [if_pos (by simpa using ha), Finset.card_insert_of_notMem (by simp)]
      simp [ha]

/-- What is named exactly once is counted on either side. -/
theorem countP_of_key {P : α → Bool} {l : List α} {m : List β} (key : β → Option ℕ)
    (hinj : ∀ (c c' : ℕ) (b b' : β) (i : ℕ), m[c]? = some b → m[c']? = some b' →
      key b = some i → key b' = some i → c = c')
    (hsurj : ∀ (i : ℕ) (a : α), l[i]? = some a → P a = true →
      ∃ (c : ℕ) (b : β), m[c]? = some b ∧ key b = some i) :
    l.countP P = m.countP fun b => (key b).any fun i => l[i]?.any P := by
  rw [countP_eq_card, countP_eq_card]
  -- the index that an entry names
  have named : ∀ {c : ℕ}, (m[c]?.any fun b => (key b).any fun i => l[i]?.any P) = true →
      ∃ (b : β) (i : ℕ) (a : α), m[c]? = some b ∧ key b = some i ∧ l[i]? = some a ∧ P a = true := by
    intro c hc
    obtain ⟨b, hb, hkey⟩ := (Option.any_eq_true ..).1 hc
    obtain ⟨i, hi, hl⟩ := (Option.any_eq_true ..).1 hkey
    obtain ⟨a, ha, hP⟩ := (Option.any_eq_true ..).1 hl
    exact ⟨b, i, a, hb, hi, ha, hP⟩
  have value : ∀ {c i : ℕ} {b : β}, m[c]? = some b → key b = some i → (m[c]?.bind key).getD 0 = i := by
    intro c i b hb hi
    rw [hb, Option.bind_some, hi, Option.getD_some]
  symm
  refine Finset.card_bij (fun c _ => (m[c]?.bind key).getD 0) ?_ ?_ ?_
  · intro c hc
    obtain ⟨b, i, a, hb, hi, ha, hP⟩ := named (Finset.mem_filter.1 hc).2
    rw [value hb hi]
    exact Finset.mem_filter.2 ⟨Finset.mem_range.2 (lt_length ha), by rw [ha]; exact hP⟩
  · intro c hc c' hc' heq
    obtain ⟨b, i, a, hb, hi, -⟩ := named (Finset.mem_filter.1 hc).2
    obtain ⟨b', i', a', hb', hi', -⟩ := named (Finset.mem_filter.1 hc').2
    have hsame : i = i' := (value hb hi).symm.trans (heq.trans (value hb' hi'))
    exact hinj c c' b b' i hb hb' hi (hsame ▸ hi')
  · intro i hi
    obtain ⟨a, ha, hP⟩ := (Option.any_eq_true ..).1 (Finset.mem_filter.1 hi).2
    obtain ⟨c, b, hb, hkey⟩ := hsurj i a ha hP
    refine ⟨c, Finset.mem_filter.2 ⟨Finset.mem_range.2 (lt_length hb), ?_⟩, value hb hkey⟩
    rw [hb, Option.any_some, hkey, Option.any_some, ha]
    exact hP

end Table
