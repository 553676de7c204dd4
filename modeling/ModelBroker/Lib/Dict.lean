import Mathlib.Data.List.Nodup
import Mathlib.Tactic.SplitIfs

/-!
# Insertion-ordered dictionaries

A `Dict κ ν` is a list of entries with distinct keys, in the order the keys
were first inserted. This is Python's `dict`: an assignment to a key that is
present keeps its place, a new key goes to the end, and iteration follows the
entries.

Every lemma describes an operation by what `get` returns after it, so that a
proof about a program that uses dictionaries never looks at the entries.
-/

/-- A dictionary: entries in insertion order, no key twice. -/
structure Dict (κ ν : Type*) where
  entries : List (κ × ν)
  nodup : (entries.map Prod.fst).Nodup
  deriving DecidableEq

namespace Dict

variable {κ ν μ : Type*}

/-! ## Operations -/

/-- The dictionary without entries. -/
def empty : Dict κ ν := ⟨[], List.nodup_nil⟩

instance : EmptyCollection (Dict κ ν) := ⟨empty⟩

instance : Inhabited (Dict κ ν) := ⟨∅⟩

/-- The keys in order. -/
def keys (d : Dict κ ν) : List κ := d.entries.map Prod.fst

/-- The values in order (`d.values()`). -/
def values (d : Dict κ ν) : List ν := d.entries.map Prod.snd

/-- Apply a function to every value, given its key. -/
def mapValues (d : Dict κ ν) (f : κ → ν → μ) : Dict κ μ where
  entries := d.entries.map fun e => (e.1, f e.1 e.2)
  nodup := by simpa [Function.comp_def] using d.nodup

/-- The entries that satisfy a test (a comprehension with an `if`). -/
def filter (d : Dict κ ν) (p : κ → ν → Bool) : Dict κ ν where
  entries := d.entries.filter fun e => p e.1 e.2
  nodup := d.nodup.sublist ((List.filter_sublist).map _)

/-- Number the values from `base` on, in order. -/
def number (d : Dict κ ν) (base : ℕ) : Dict κ ℕ where
  entries := d.keys.zipIdx base
  nodup := by simpa [List.zipIdx_map_fst, keys] using d.nodup

variable [DecidableEq κ]

/-- The value under a key (`d.get(k)`). -/
def get (d : Dict κ ν) (k : κ) : Option ν :=
  (d.entries.find? fun e => e.1 = k).map Prod.snd

/-- Whether the key is present (`k in d`). -/
def contains (d : Dict κ ν) (k : κ) : Bool := (d.get k).isSome

/-- Assign to a key (`d[k] = v`). -/
def insert (d : Dict κ ν) (k : κ) (v : ν) : Dict κ ν :=
  if h : k ∈ d.keys then
    { entries := d.entries.map fun e => (e.1, if e.1 = k then v else e.2)
      nodup := by simpa [Function.comp_def] using d.nodup }
  else
    { entries := d.entries ++ [(k, v)]
      nodup := by
        rw [List.map_append, List.nodup_append]
        refine ⟨d.nodup, by simp, ?_⟩
        intro a ha b hb
        have hb' : b = k := by simpa using hb
        exact fun hab => h (hb' ▸ hab ▸ ha) }

/-- Assign the entries of a list in turn (`dict(entries)`). -/
def ofList (entries : List (κ × ν)) : Dict κ ν := entries.foldl (fun d e => d.insert e.1 e.2) ∅

/-- Remove a key (`del d[k]`, for a key that is present). -/
def erase (d : Dict κ ν) (k : κ) : Dict κ ν := d.filter fun k' _ => k' ≠ k

/-- Assign every entry of `e` in turn (`d |= e`). -/
def update (d e : Dict κ ν) : Dict κ ν := e.entries.foldl (fun d x => d.insert x.1 x.2) d

/-- Add the entries of `e` whose keys are missing from `d`, in order. -/
def addMissing (d e : Dict κ ν) : Dict κ ν where
  entries := d.entries ++ (e.filter fun k _ => !d.contains k).entries
  nodup := by
    rw [List.map_append, List.nodup_append]
    refine ⟨d.nodup, (e.filter _).nodup, ?_⟩
    intro a ha b hb hab
    obtain ⟨x, hx, rfl⟩ := List.mem_map.1 ha
    obtain ⟨y, hy, rfl⟩ := List.mem_map.1 hb
    have hy' := (List.mem_filter.1 hy).2
    have hsome : (d.entries.find? fun z => z.1 = y.1).isSome := by
      rw [List.find?_isSome]
      exact ⟨x, hx, by simpa using hab⟩
    simp [contains, get, hsome] at hy'

/-! ## What `get` returns -/

theorem get_eq_some {d : Dict κ ν} {k : κ} {v : ν} : d.get k = some v ↔ (k, v) ∈ d.entries := by
  unfold get
  constructor
  · intro h
    obtain ⟨e, he, rfl⟩ := Option.map_eq_some_iff.1 h
    have hk : e.1 = k := by simpa using List.find?_some he
    subst hk
    exact List.mem_of_find?_eq_some he
  · intro h
    cases hf : d.entries.find? fun e => e.1 = k with
    | none => simpa using List.find?_eq_none.1 hf (k, v) h
    | some e =>
      have hk : e.1 = k := by simpa using List.find?_some hf
      have he := List.inj_on_of_nodup_map d.nodup (List.mem_of_find?_eq_some hf) h hk
      simp [he]

theorem get_eq_none {d : Dict κ ν} {k : κ} : d.get k = none ↔ k ∉ d.keys := by
  simp [get, keys]
  grind

theorem contains_iff {d : Dict κ ν} {k : κ} : d.contains k = true ↔ ∃ v, d.get k = some v := by
  simp [contains, Option.isSome_iff_exists]

theorem mem_values {d : Dict κ ν} {v : ν} : v ∈ d.values ↔ ∃ k, d.get k = some v := by
  simp [values, get_eq_some]

theorem mem_keys {d : Dict κ ν} {k : κ} : k ∈ d.keys ↔ ∃ v, d.get k = some v := by
  simp [keys, get_eq_some]

/-- When no value is under two keys, the values are distinct. -/
theorem values_nodup {d : Dict κ ν}
    (h : ∀ k k' v, d.get k = some v → d.get k' = some v → k = k') : d.values.Nodup := by
  refine List.Nodup.map_on ?_ (List.Nodup.of_map _ d.nodup)
  intro x hx y hy hxy
  have hkey : x.1 = y.1 := h x.1 y.1 x.2 (get_eq_some.2 hx) (get_eq_some.2 (hxy ▸ hy))
  exact Prod.ext hkey hxy

/-- The first entry decides, or the other entries do. -/
theorem get_cons (e : κ × ν) (l : List (κ × ν)) (h : ((e :: l).map Prod.fst).Nodup) (k : κ) :
    (⟨e :: l, h⟩ : Dict κ ν).get k =
      if e.1 = k then some e.2 else (⟨l, (List.nodup_cons.1 h).2⟩ : Dict κ ν).get k := by
  unfold get
  rw [List.find?_cons]
  split_ifs with hk <;> simp [hk]

@[simp] theorem get_empty (k : κ) : (∅ : Dict κ ν).get k = none := rfl

@[simp] theorem get_mapValues (d : Dict κ ν) (f : κ → ν → μ) (k : κ) :
    (d.mapValues f).get k = (d.get k).map (f k) := by
  ext w
  rw [get_eq_some, Option.map_eq_some_iff]
  constructor
  · intro h
    obtain ⟨e, he, heq⟩ := List.mem_map.1 h
    obtain ⟨rfl, rfl⟩ := Prod.mk.inj heq
    exact ⟨e.2, get_eq_some.2 he, rfl⟩
  · rintro ⟨v, hv, rfl⟩
    exact List.mem_map.2 ⟨(k, v), get_eq_some.1 hv, rfl⟩

theorem get_filter (d : Dict κ ν) (p : κ → ν → Bool) (k : κ) :
    (d.filter p).get k = (d.get k).filter (p k) := by
  ext w
  rw [get_eq_some, Option.filter_eq_some_iff, get_eq_some]
  simp [filter]

@[simp] theorem get_insert (d : Dict κ ν) (k : κ) (v : ν) (k' : κ) :
    (d.insert k v).get k' = if k' = k then some v else d.get k' := by
  ext w
  rw [get_eq_some]
  by_cases hk : k ∈ d.keys
  · obtain ⟨v₀, hv₀⟩ := mem_keys.1 hk
    simp only [insert, hk, dite_true, List.mem_map, Prod.mk.injEq]
    constructor
    · rintro ⟨e, he, rfl, rfl⟩
      split_ifs with h
      · rfl
      · exact get_eq_some.2 he
    · split_ifs with h
      · rintro ⟨⟩
        exact ⟨(k, v₀), get_eq_some.1 hv₀, by simp [h]⟩
      · intro hw
        exact ⟨(k', w), get_eq_some.1 hw, by simp [h]⟩
  · simp only [insert, hk, dite_false, List.mem_append, List.mem_singleton, Prod.mk.injEq]
    rw [← get_eq_some]
    split_ifs with h
    · subst h
      rw [get_eq_none.2 hk]
      simp [eq_comm]
    · simp [h]

@[simp] theorem get_erase (d : Dict κ ν) (k k' : κ) :
    (d.erase k).get k' = if k' = k then none else d.get k' := by
  rw [erase, get_filter]
  split_ifs with h
  · subst h; simp
  · cases d.get k' <;> simp [h]

theorem get_update (d e : Dict κ ν) (k : κ) : (d.update e).get k = (e.get k).or (d.get k) := by
  -- the induction is on the entries still to be assigned, whose keys stay distinct
  have key : ∀ (l : List (κ × ν)) (hl : (l.map Prod.fst).Nodup) (d : Dict κ ν),
      (l.foldl (fun d x => d.insert x.1 x.2) d).get k = ((⟨l, hl⟩ : Dict κ ν).get k).or (d.get k) := by
    intro l
    induction l with
    | nil => intro _ d; rfl
    | cons x l ih =>
      intro hl d
      have hl' := List.nodup_cons.1 hl
      rw [List.foldl_cons, ih hl'.2, get_insert, get_cons]
      by_cases hx : x.1 = k
      · have hnone : (⟨l, hl'.2⟩ : Dict κ ν).get k = none := get_eq_none.2 (hx ▸ hl'.1)
        rw [if_pos hx, if_pos hx.symm, hnone]
        rfl
      · rw [if_neg hx, if_neg fun h => hx h.symm]
  exact key e.entries e.nodup d

/-- Entries with distinct new keys go to the end. -/
theorem entries_foldl_insert (l : List (κ × ν)) (d : Dict κ ν)
    (h : (d.keys ++ l.map Prod.fst).Nodup) :
    (l.foldl (fun d e => d.insert e.1 e.2) d).entries = d.entries ++ l := by
  induction l generalizing d with
  | nil => simp
  | cons e l ih =>
    have hnew : e.1 ∉ d.keys := fun hmem =>
      (List.nodup_append.1 h).2.2 _ hmem _ (List.mem_cons_self ..) rfl
    have hentries : (d.insert e.1 e.2).entries = d.entries ++ [e] := by
      unfold insert
      rw [dif_neg hnew]
    have hkeys : (d.insert e.1 e.2).keys = d.keys ++ [e.1] := by
      rw [keys, hentries, List.map_append]
      rfl
    rw [List.foldl_cons, ih, hentries, List.append_assoc, List.singleton_append]
    rw [hkeys, List.append_assoc, List.singleton_append]
    exact h

/-- Distinct keys make a dictionary as they stand. -/
theorem entries_ofList {l : List (κ × ν)} (h : (l.map Prod.fst).Nodup) :
    (ofList l).entries = l :=
  entries_foldl_insert l ∅ h

theorem ofList_entries (d : Dict κ ν) : ofList d.entries = d := by
  cases d with
  | mk entries nodup =>
    have h := entries_ofList nodup
    cases hd : ofList entries with
    | mk entries' _ =>
      rw [hd] at h
      cases h
      rfl

theorem get_addMissing (d e : Dict κ ν) (k : κ) :
    (d.addMissing e).get k = (d.get k).or (e.get k) := by
  ext w
  rw [get_eq_some]
  simp only [addMissing, List.mem_append]
  rw [← get_eq_some, ← get_eq_some, get_filter]
  cases hd : d.get k with
  | none => simp [contains, hd, Option.filter_eq_some_iff]
  | some v => simp [contains, hd]

theorem get_number_eq_some {d : Dict κ ν} {base : ℕ} {k : κ} {n : ℕ} :
    (d.number base).get k = some n ↔
      base ≤ n ∧ ∃ v, d.get k = some v ∧ d.entries[n - base]? = some (k, v) := by
  rw [get_eq_some]
  simp only [number, List.mk_mem_zipIdx_iff_le_and_getElem?_sub, keys, List.getElem?_map,
    Option.map_eq_some_iff]
  constructor
  · rintro ⟨hle, e, he, rfl⟩
    exact ⟨hle, e.2, get_eq_some.2 (List.mem_of_getElem? he), he⟩
  · rintro ⟨hle, v, -, he⟩
    exact ⟨hle, _, he, rfl⟩

/-- Numbering gives every entry its own number below `base + d.entries.length`. -/
theorem number_lt {d : Dict κ ν} {base : ℕ} {k : κ} {n : ℕ} (h : (d.number base).get k = some n) :
    n < base + d.entries.length := by
  obtain ⟨hle, v, -, he⟩ := get_number_eq_some.1 h
  have := (List.getElem?_eq_some_iff.1 he).1
  omega

theorem get_number_isSome (d : Dict κ ν) (base : ℕ) (k : κ) :
    ((d.number base).get k).isSome = (d.get k).isSome := by
  rw [Bool.eq_iff_iff, Option.isSome_iff_exists, Option.isSome_iff_exists, ← mem_keys, ← mem_keys]
  simp [number, keys]

end Dict
