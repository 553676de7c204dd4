import Mathlib.Data.List.Forall2
import Mathlib.Data.Nat.Notation

/-!
# Python built-ins the broker uses

`repr` of a `str`, as the f-strings of the broker's messages use it (`!r`),
`or` between optional strings, `itertools.combinations(…, 2)`, and calls that may
raise an exception.
-/

namespace ModelBroker.Python

/-- Two hexadecimal digits of a code below 256. -/
def hex (code : ℕ) : String :=
  String.ofList [Nat.digitChar (code / 16), Nat.digitChar (code % 16)]

/-- One character inside a string literal quoted with `quote`. Every character
    from U+00A1 on is taken to be printable. -/
def escape (quote : Char) (c : Char) : String :=
  if c = quote ∨ c = '\\' then String.ofList ['\\', c]
  else if c = '\n' then "\\n"
  else if c = '\r' then "\\r"
  else if c = '\t' then "\\t"
  else if c.toNat < 32 ∨ (127 ≤ c.toNat ∧ c.toNat ≤ 160) then "\\x" ++ hex c.toNat
  else String.singleton c

/-- `repr(text)`: single quotes, unless the text has single and no double ones. -/
def repr (text : String) : String :=
  let quote := if text.toList.contains '\'' && !text.toList.contains '"' then '"' else '\''
  String.singleton quote ++ String.join (text.toList.map (escape quote)) ++ String.singleton quote

/-- `first or second`, for values that are a `str` or `None`: the empty string
    is false too. -/
def orElse (first second : Option String) : Option String :=
  match first with
  | some text => if text = "" then second else first
  | none => second

/-- `itertools.combinations(items, 2)`: every pair, in the order of the items. -/
def pairs {α : Type*} : List α → List (α × α)
  | [] => []
  | a :: rest => rest.map (fun b => (a, b)) ++ pairs rest

/-- Two different items make a pair, in one order or the other. -/
theorem mem_pairs {α : Type*} {l : List α} {a b : α} (ha : a ∈ l) (hb : b ∈ l) (hne : a ≠ b) :
    (a, b) ∈ pairs l ∨ (b, a) ∈ pairs l := by
  induction l with
  | nil => cases ha
  | cons c l ih =>
    simp only [pairs, List.mem_append, List.mem_map, Prod.mk.injEq]
    rcases List.mem_cons.1 ha with rfl | ha' <;> rcases List.mem_cons.1 hb with rfl | hb'
    · exact absurd rfl hne
    · exact .inl (.inl ⟨b, hb', rfl, rfl⟩)
    · exact .inr (.inl ⟨a, ha', rfl, rfl⟩)
    · exact (ih ha' hb').imp .inr .inr

/-- The items of a pair are items, and different ones if no item is repeated. -/
theorem of_mem_pairs {α : Type*} {l : List α} (hl : l.Nodup) {a b : α} (h : (a, b) ∈ pairs l) :
    a ∈ l ∧ b ∈ l ∧ a ≠ b := by
  induction l with
  | nil => cases h
  | cons c l ih =>
    obtain ⟨hc, hl⟩ := List.nodup_cons.1 hl
    simp only [pairs, List.mem_append, List.mem_map, Prod.mk.injEq] at h
    rcases h with ⟨b', hb', rfl, rfl⟩ | h
    · exact ⟨List.mem_cons_self, List.mem_cons_of_mem _ hb', fun heq => hc (heq ▸ hb')⟩
    · obtain ⟨ha, hb, hne⟩ := ih hl h
      exact ⟨List.mem_cons_of_mem _ ha, List.mem_cons_of_mem _ hb, hne⟩

/-- What a list has, the other has a partner of. -/
theorem forall₂_mem_right {α β : Type*} {R : α → β → Prop} {l : List α} {l' : List β}
    (h : List.Forall₂ R l l') {b : β} (hb : b ∈ l') : ∃ a ∈ l, R a b := by
  induction h with
  | nil => cases hb
  | cons hab _ ih =>
    rcases List.mem_cons.1 hb with rfl | hb
    · exact ⟨_, List.mem_cons_self, hab⟩
    · obtain ⟨a, ha, hR⟩ := ih hb
      exact ⟨a, List.mem_cons_of_mem _ ha, hR⟩

/-- A loop that looks for a value of each item has one of every item. -/
theorem option_mapM_eq_some {α β : Type} {f : α → Option β} {l : List α} {l' : List β} :
    l.mapM f = some l' ↔ List.Forall₂ (fun a b => f a = some b) l l' := by
  induction l generalizing l' with
  | nil =>
    rw [List.mapM_nil, List.forall₂_nil_left_iff]
    exact ⟨fun h => (Option.some.inj h).symm, fun h => congrArg some h.symm⟩
  | cons a l ih =>
    simp only [List.mapM_cons, Option.bind_eq_bind, Option.bind_eq_some_iff, Option.pure_def,
      Option.some.injEq, ih, List.forall₂_cons_left_iff]
    exact ⟨fun ⟨b, hb, bs, hbs, h⟩ => ⟨b, bs, hb, hbs, h.symm⟩,
      fun ⟨b, bs, hb, hbs, h⟩ => ⟨b, hb, bs, hbs, h.symm⟩⟩

/-! ## Exceptions -/

theorem except_bind_ok {ε α β : Type} {x : Except ε α} {f : α → Except ε β} {b : β} :
    (x >>= f) = .ok b ↔ ∃ a, x = .ok a ∧ f a = .ok b := by
  cases x with
  | error e => exact ⟨nofun, fun ⟨_, h, _⟩ => nomatch h⟩
  | ok a =>
    constructor
    · intro h
      exact ⟨a, rfl, h⟩
    · rintro ⟨a', ha, h⟩
      cases ha
      exact h

theorem except_mapError_ok {ε ε' α : Type} {x : Except ε α} {f : ε → ε'} {a : α} :
    x.mapError f = .ok a ↔ x = .ok a := by
  cases x with
  | error e => exact ⟨nofun, nofun⟩
  | ok b => exact ⟨fun h => congrArg _ (Except.ok.inj h), fun h => congrArg _ (Except.ok.inj h)⟩

theorem except_toOption_eq_some {ε α : Type} {x : Except ε α} {a : α} :
    x.toOption = some a ↔ x = .ok a := by
  cases x with
  | error e => exact ⟨nofun, nofun⟩
  | ok b => exact ⟨fun h => congrArg _ (Option.some.inj h), fun h => congrArg _ (Except.ok.inj h)⟩

/-- What is returned, if something is. -/
theorem exists_ok_of_isSome {ε α : Type} {x : Except ε α} (h : x.toOption.isSome = true) :
    ∃ a, x = .ok a :=
  (Option.isSome_iff_exists.1 h).imp fun _ => except_toOption_eq_some.1

/-- A loop that returns nothing ends when its body does for every item. -/
theorem except_forM_ok {ε α : Type} {f : α → Except ε Unit} {l : List α} :
    l.forM f = .ok () ↔ ∀ a ∈ l, f a = .ok () := by
  induction l with
  | nil => exact iff_of_true rfl (List.forall_mem_nil _)
  | cons a l ih =>
    show (f a >>= fun _ => l.forM f) = .ok () ↔ _
    rw [except_bind_ok, List.forall_mem_cons, ← ih]
    exact ⟨fun ⟨_, ha, hl⟩ => ⟨ha, hl⟩, fun ⟨ha, hl⟩ => ⟨(), ha, hl⟩⟩

/-- A comprehension makes each of its items from one. -/
theorem except_mapM_ok {ε α β : Type} {f : α → Except ε β} {l : List α} {l' : List β}
    (h : l.mapM f = .ok l') : List.Forall₂ (fun a b => f a = .ok b) l l' := by
  induction l generalizing l' with
  | nil =>
    obtain rfl := Except.ok.inj h
    exact .nil
  | cons a l ih =>
    rw [List.mapM_cons] at h
    obtain ⟨b, hb, h⟩ := except_bind_ok.1 h
    obtain ⟨bs, hbs, h⟩ := except_bind_ok.1 h
    obtain rfl := Except.ok.inj h
    exact .cons hb (ih hbs)

end ModelBroker.Python
