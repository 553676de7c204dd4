import ModelBroker.Python.Builtins
import ModelBroker.Python.Double

/-!
# JSON documents

A document as `json.loads` returns it: `None`, `bool`, `int`, `float`, `str`,
`list` and `dict`. The members of an object are kept as they were written;
`Json.dict?` makes the dictionary, in which the last member of a name wins.

* `Json.get_sortMembers`: `sort_keys=True` does not change what an object holds.
-/

namespace ModelBroker.Python

/-- A JSON document. -/
inductive Json where
  | null
  | bool (value : Bool)
  | int (value : ℤ)
  | float (value : Double)
  | str (value : String)
  | arr (items : List Json)
  | obj (members : List (String × Json))

namespace Json

/-! ## Tests and parts -/

/-- The dictionary, if the document is one (`isinstance(document, dict)`). -/
def dict? : Json → Option (Dict String Json)
  | obj members => some (Dict.ofList members)
  | _ => none

/-- The items, if the document is a list (`isinstance(document, list)`). -/
def list? : Json → Option (List Json)
  | arr items => some items
  | _ => none

/-- The text, if the document is a `str`. -/
def str? : Json → Option String
  | str value => some value
  | _ => none

/-- The integer, if `type(document) is int`: JSON `true` is not one. -/
def int? : Json → Option ℤ
  | int value => some value
  | _ => none

/-- The truth value, if `type(document) is bool`. -/
def bool? : Json → Option Bool
  | bool value => some value
  | _ => none

/-- `dict.get(key)` of a dictionary: `None` for a missing key. -/
def field (d : Dict String Json) (key : String) : Json := (d.get key).getD null

/-- `bool(document)`. -/
def truthy : Json → Bool
  | null => false
  | bool value => value
  | int value => value ≠ 0
  | float value => value ≠ .finite 0
  | str value => value ≠ ""
  | arr items => items ≠ []
  | obj members => members ≠ []

/-- `document == n` for an integer: `true` and `1.0` are equal to 1. -/
def equalsInt (n : ℤ) : Json → Bool
  | int value => value = n
  | bool value => (if value then 1 else 0) = n
  | float value => value = .finite n
  | _ => false

/-- `document == text`. -/
def equalsStr (text : String) : Json → Bool
  | str value => value = text
  | _ => false

/-! ## `str` -/

mutual

/-- `repr(document)`. -/
def repr : Json → String
  | null => "None"
  | bool value => if value then "True" else "False"
  | int value => toString value
  | float value => value.repr
  | str value => Python.repr value
  | arr items => "[" ++ String.intercalate ", " (reprItems items) ++ "]"
  | obj members =>
    "\x7b" ++ String.intercalate ", "
      ((Dict.ofList (reprMembers members)).entries.map fun e => Python.repr e.1 ++ ": " ++ e.2) ++ "\x7d"

/-- The items of a list, each as `repr` writes it. -/
def reprItems : List Json → List String
  | [] => []
  | item :: rest => repr item :: reprItems rest

/-- The members of an object, each value as `repr` writes it. -/
def reprMembers : List (String × Json) → List (String × String)
  | [] => []
  | (name, value) :: rest => (name, repr value) :: reprMembers rest

end

/-- `str(document)`, also between the braces of an f-string. -/
def toStr : Json → String
  | str value => value
  | document => repr document

/-! ## Encoding -/

/-- Insert a member before the first with a greater name. -/
def insertMember (name : String) (value : Json) : List (String × Json) → List (String × Json)
  | [] => [(name, value)]
  | (name', value') :: rest =>
    if name ≤ name' then (name, value) :: (name', value') :: rest
    else (name', value') :: insertMember name value rest

mutual

/-- The document with the members of its objects in the order of their names
    (`sort_keys=True`). -/
def sortKeys : Json → Json
  | arr items => arr (sortItems items)
  | obj members => obj (sortMembers members)
  | document => document

/-- The items of a list, sorted inside. -/
def sortItems : List Json → List Json
  | [] => []
  | item :: rest => sortKeys item :: sortItems rest

/-- The members of an object, sorted. -/
def sortMembers : List (String × Json) → List (String × Json)
  | [] => []
  | (name, value) :: rest => insertMember name (sortKeys value) (sortMembers rest)

end

@[simp] theorem sortKeys_bool (value : Bool) : sortKeys (bool value) = bool value := by
  rw [sortKeys] <;> exact nofun

@[simp] theorem sortKeys_int (value : ℤ) : sortKeys (int value) = int value := by
  rw [sortKeys] <;> exact nofun

@[simp] theorem sortKeys_str (value : String) : sortKeys (str value) = str value := by
  rw [sortKeys] <;> exact nofun

@[simp] theorem sortKeys_obj (members : List (String × Json)) :
    sortKeys (obj members) = obj (sortMembers members) := by
  rw [sortKeys]

theorem sortMembers_map : ∀ members : List (String × Json),
    (sortMembers members).Perm (members.map fun e => (e.1, sortKeys e.2))
  | [] => .nil
  | (name, value) :: rest => by
    have insert : ∀ (v : Json) (l : List (String × Json)),
        (insertMember name v l).Perm ((name, v) :: l) := by
      intro v l
      induction l with
      | nil => exact .refl _
      | cons e l ih =>
        unfold insertMember
        split_ifs
        · exact .refl _
        · exact (ih.cons e).trans (.swap ..)
    rw [sortMembers, List.map_cons]
    exact (insert _ _).trans ((sortMembers_map rest).cons _)

/-- Sorting the members of an object does not change which values it holds. -/
theorem get_sortMembers {members : List (String × Json)} (h : (members.map Prod.fst).Nodup)
    (key : String) : (Dict.ofList (sortMembers members)).get key =
      ((Dict.ofList members).get key).map sortKeys := by
  have hperm := sortMembers_map members
  have hnames : (members.map fun e => (e.1, sortKeys e.2)).map Prod.fst = members.map Prod.fst := by
    rw [List.map_map]
    rfl
  have hnodup : ((sortMembers members).map Prod.fst).Nodup := by
    rw [(hperm.map Prod.fst).nodup_iff, hnames]
    exact h
  ext value
  rw [Dict.get_eq_some, Dict.entries_ofList hnodup, hperm.mem_iff, List.mem_map,
    Option.map_eq_some_iff]
  constructor
  · rintro ⟨e, he, heq⟩
    cases heq
    exact ⟨e.2, Dict.get_eq_some.2 (by rwa [Dict.entries_ofList h]), rfl⟩
  · rintro ⟨value, hvalue, rfl⟩
    rw [Dict.get_eq_some, Dict.entries_ofList h] at hvalue
    exact ⟨(key, value), hvalue, rfl⟩

theorem field_sortMembers {members : List (String × Json)} (h : (members.map Prod.fst).Nodup)
    (key : String) :
    field (Dict.ofList (sortMembers members)) key = (field (Dict.ofList members) key).sortKeys := by
  unfold field
  rw [get_sortMembers h]
  cases (Dict.ofList members).get key <;> rfl

/-- What an object with distinct names holds. -/
theorem field_ofList {members : List (String × Json)} (h : (members.map Prod.fst).Nodup)
    {key : String} {value : Json} (hmem : (key, value) ∈ members) :
    field (Dict.ofList members) key = value := by
  rw [field, Dict.get_eq_some.2 (by rwa [Dict.entries_ofList h])]
  rfl

/-- What an object with distinct names holds after it was sorted. -/
theorem field_sorted {members : List (String × Json)} (h : (members.map Prod.fst).Nodup)
    {key : String} {value : Json} (hmem : (key, value) ∈ members) :
    field (Dict.ofList (sortMembers members)) key = value.sortKeys := by
  rw [field_sortMembers h, field_ofList h hmem]

end Json

/-! ## Decoding -/

/-- The exceptions of `json.loads`. The first three are `ValueError`s: a
    `JSONDecodeError`, a `UnicodeDecodeError`, and an integer with too many
    digits. -/
inductive LoadsError where
  | json
  | unicode
  | tooManyDigits
  | recursion
  deriving DecidableEq

/-- `except ValueError` catches the exception. -/
def LoadsError.isValueError : LoadsError → Bool
  | json | unicode | tooManyDigits => true
  | recursion => false

end ModelBroker.Python
