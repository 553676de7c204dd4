import Mathlib.Algebra.Order.Monoid.WithTop
import Mathlib.Algebra.Order.Ring.Rat
import Mathlib.Data.Rat.Floor
import ModelBroker.Catalogue.Variant

/-!
# The scheduler's records

What a server reports (`backend.py`, lines 17–50) and the records of
`scheduler.py` (lines 50–131). A reading of the clock is a rational number of
seconds; a setting, and a time reckoned with one, may also be `inf`. An
`asyncio.Event` is the truth value of `is_set()`. A `LoadedModel` is a Python
object that several dictionaries and coroutines refer to, so it is kept in a
heap and its identity is a `Ref`.
-/

namespace ModelBroker

/-! ## What a server reports -/

/-- `ModelState` (`backend.py`, lines 17–27). -/
structure ModelState where
  value : String
  failed : Bool := false
  exitCode : Option ℤ := none
  deriving DecidableEq

/-- `RouterProps` (`backend.py`, lines 30–36). -/
structure RouterProps where
  maxInstances : ℤ
  modelsAutoload : Bool
  build : Option String
  deriving DecidableEq

/-- `ModelActivity` (`backend.py`, lines 39–50). -/
structure ModelActivity where
  processing : Bool
  deferred : ℤ
  decodeCalls : ℤ
  deriving DecidableEq

namespace ModelActivity

/-- The test `activity.processing or activity.deferred`. -/
def working (activity : ModelActivity) : Bool := activity.processing || decide (activity.deferred ≠ 0)

end ModelActivity

/-! ## Records of the scheduler -/

/-- A time or a number of seconds that may be `inf`, which `seconds_setting`
    (`application.py`, lines 63–75) lets through; it refuses `nan`. -/
abbrev Seconds := WithTop ℚ

/-- The identity of a `LoadedModel` object. -/
abbrev Ref := ℕ

/-- `LoadedModel` (lines 85–103). -/
structure LoadedModel where
  variant : Variant
  lastActivity : ℚ
  active : ℕ := 0
  queued : ℕ := 0
  decodeCalls : Option ℤ := none
  ready : Bool := true
  error : Option String := none
  leaving : Bool := false
  deriving DecidableEq, Inhabited

/-- `RouterView` (lines 106–116), with references to the records. -/
structure RouterView where
  loaded : Dict String Ref
  problems : List String
  build : Option String

/-- `Blocked` (lines 119–124). -/
structure Blocked where
  reason : String
  untilTime : Option Seconds := none

/-- `Ticket` (lines 127–131): tickets are compared by identity, so each has the
    number of the `Ticket(…)` call that made it. -/
structure Ticket where
  serial : ℕ
  variant : Variant

/-- How a request ended: released after an admission, one of the
    `SchedulerError`s (lines 50–75), cancelled, the `ValueError` that
    `list.index` raises for a ticket that is not waiting, or the `OverflowError`
    that `math.ceil` raises for `inf`. `started` is the end of `start()`. -/
inductive Outcome
  | started
  | released
  | unknownModel (id : String)
  | routerUnfit (problems : List String)
  | resourceBusy (reason : String) (retryAfter : ℤ)
  | loadFailed (error : String)
  | cancelled
  | valueError
  | overflowError

/-- `BUSY_RETRY_AFTER_SECONDS` (line 47). -/
def busyRetryAfterSeconds : ℚ := 5

/-- The arguments of `Scheduler` (lines 269–289): the servers with the name each
    gives itself, the catalogue and the settings, of which the application sets the
    first two, to any number that is not negative or to `inf`. The last field is the
    check of lines 280–282. -/
structure Config where
  adapters : Dict String String
  catalogue : Catalogue
  protectSeconds : Seconds
  maxWaitSeconds : Seconds
  pollSeconds : ℚ := 1
  configured : ∀ id variant, catalogue.get id = some variant → adapters.contains variant.backend = true

/-- The arguments for these servers and variants. -/
def Config.ofVariants (adapters : Dict String String) (variants : List Variant)
    (hids : (variants.map Variant.id).Nodup)
    (hserved : ∀ variant ∈ variants, adapters.contains variant.backend = true)
    (protectSeconds maxWaitSeconds : ℚ) : Config where
  adapters := adapters
  catalogue := .ofVariants variants hids
  protectSeconds := protectSeconds
  maxWaitSeconds := maxWaitSeconds
  configured _ _ :=
    Catalogue.of_get_ofVariants (fun variant => adapters.contains variant.backend = true) hserved

/-- A single llama.cpp router. -/
def oneRouter : Dict String String := ⟨[("llama", "llama.cpp")], by decide⟩

end ModelBroker
