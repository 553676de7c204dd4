import ModelBroker.Python.Json
import ModelBroker.Scheduler.Records

/-!
# What the servers' answers are read as

The parsers of `llama.py` (lines 26–96) and `strata.py` (lines 21–35): from a
JSON document, or a page of metrics, to what the scheduler uses.

* `parseModelStates_backend`, `parseRouterProps_backend`,
  `parseStrataActivity_backend`: whatever the document, they raise nothing but a
  `BackendError`.
* `parsePrometheus_eq_ok`: a page is read exactly when each of its samples has a
  number, and a later sample overwrites an earlier one.
* `parseModelActivity_backend_iff`: what `parse_model_activity` asks of a page to
  raise nothing but a `BackendError`.
-/

namespace ModelBroker

open Python

/-! ## Exceptions -/

/-- The exceptions of the broker's parsers. -/
inductive Raised where
  | backendError (message : String)
  | llamaError (message : String)
  | serviceControlError (message : String)
  | valueError
  | overflowError
  | attributeError
  | recursionError
  deriving DecidableEq

namespace Raised

/-- `LlamaError` and `ServiceControlError` are `BackendError`s. -/
def isBackendError : Raised → Bool
  | backendError _ | llamaError _ | serviceControlError _ => true
  | _ => false

/-- The exception of a failed conversion to an integer. -/
def ofConversion : Double.ConversionError → Raised
  | .valueError => valueError
  | .overflowError => overflowError

end Raised

/-- A call that returns, or raises a `BackendError`. -/
def BackendOnly {α : Type} (result : Except Raised α) : Prop :=
  ∀ e, result = .error e → e.isBackendError = true

/-! ## `GET /models` and `GET /props` -/

/-- An exit code: `None`, or an `int` that is no `bool`. -/
def exitCode? : Json → Option (Option ℤ)
  | .null => some none
  | document => document.int?.map some

/-- The body of the loop of `parse_model_states` (lines 32–47). -/
def parseModelEntry (states : Dict String ModelState) (item : Json) :
    Except Raised (Dict String ModelState) :=
  let entry := item.dict?.getD ∅
  let status := (Json.field entry "status").dict?.getD ∅
  match (Json.field entry "id").str?, (Json.field status "value").str? with
  | some id, some value =>
    if states.contains id then
      .error (.llamaError ("router GET /models response repeats model " ++ Python.repr id))
    else
      match ((status.get "failed").getD (.bool false)).bool?,
        exitCode? (Json.field status "exit_code") with
      | some failed, some exitCode => .ok (states.insert id ⟨value, failed, exitCode⟩)
      | _, _ =>
        .error (.llamaError
          ("router GET /models response has an invalid failure status for " ++ Python.repr id))
  | _, _ => .error (.llamaError "router GET /models response has an invalid model entry")

/-- `parse_model_states` (lines 26–48). -/
def parseModelStates (document : Json) : Except Raised (Dict String ModelState) :=
  match (document.dict?.map (Json.field · "data")).bind Json.list? with
  | some data => data.foldlM parseModelEntry ∅
  | none => .error (.llamaError "router GET /models response has no data list")

/-- `parse_router_props` (lines 51–64). -/
def parseRouterProps (document : Json) (role : String) : Except Raised RouterProps :=
  let props := document.dict?.getD ∅
  if !(Json.field props "role").equalsStr role then
    .error (.llamaError ("GET /props did not come from a " ++ role ++ " (its role is not " ++
      Python.repr role ++ ")"))
  else
    match (Json.field props "max_instances").int?, (Json.field props "models_autoload").bool? with
    | some maxInstances, some autoload =>
      .ok ⟨maxInstances, autoload, (Json.field props "build_info").str?⟩
    | _, _ =>
      .error (.llamaError "router GET /props response has invalid max_instances or autoload")

/-! ## Activity -/

/-- `parse_strata_activity` (lines 21–35). -/
def parseStrataActivity (document : Json) : Except Raised ModelActivity :=
  let activity := ((document.dict?.map (Json.field · "activity")).bind Json.dict?).getD ∅
  match (Json.field activity "in_flight").int?, (Json.field activity "requests").int? with
  | some inFlight, some requests => .ok ⟨0 < inFlight, 0, requests⟩
  | _, _ =>
    .error (.backendError "Strata GET /v1/status response has no activity in_flight and requests")

/-- The name and the value of a sample (lines 71–74), for a line that is one. -/
def sample? (line : String) : Option (String × String) :=
  let parts := rpartition ' ' (strip line)
  let name := removeprefix parts.1 "llamacpp:"
  if parts.1 ≠ "" ∧ startswith line "#" = false then some (name, parts.2)
  else none

/-- The body of the loop of `parse_prometheus` (lines 71–76). -/
def parseSample (samples : Dict String Double) (line : String) :
    Except Raised (Dict String Double) :=
  match sample? line with
  | none => .ok samples
  | some (name, value) =>
    match float value with
    | some x => .ok (samples.insert name x)
    | none => .error (.llamaError ("router metrics line is not a sample: " ++ Python.repr line))

/-- `parse_prometheus` (lines 67–77). -/
def parsePrometheus (text : String) : Except Raised (Dict String Double) :=
  (splitlines text).foldlM parseSample ∅

/-- The `is_processing` flags of the slots, if the document is a list of slots
    (lines 82–87). -/
def slotFlags (slots : Json) : Except Raised (List Bool) :=
  let notSlots := .error (.llamaError "router GET /slots response is not a list of slots")
  match slots.list? with
  | none => notSlots
  | some entries =>
    match entries.mapM Json.dict? with
    | none => notSlots
    | some dicts =>
      if dicts = [] then notSlots
      else
        match dicts.mapM fun slot => (Json.field slot "is_processing").bool? with
        | some flags => .ok flags
        | none =>
          .error (.llamaError "router GET /slots response has an invalid is_processing value")

/-- The metrics that `parse_model_activity` needs, sorted. -/
def neededMetrics : List String := ["n_decode_total", "requests_deferred", "requests_processing"]

/-- The activity that flags and samples amount to (lines 89–96). -/
def combineActivity (flags : List Bool) (samples : Dict String Double) :
    Except Raised ModelActivity :=
  let missing := neededMetrics.filter fun name => !samples.contains name
  match samples.get "requests_processing", samples.get "requests_deferred",
    samples.get "n_decode_total" with
  | some processing, some deferred, some decodeCalls => do
    let deferred ← deferred.int.mapError Raised.ofConversion
    let decodeCalls ← decodeCalls.int.mapError Raised.ofConversion
    .ok ⟨flags.any id || processing.isPositive, deferred, decodeCalls⟩
  | _, _, _ =>
    .error (.llamaError ("router metrics lack " ++ String.intercalate ", " missing ++
      "; is --metrics set?"))

/-- `parse_model_activity` (lines 80–96). -/
def parseModelActivity (slots : Json) (metrics : String) : Except Raised ModelActivity := do
  let flags ← slotFlags slots
  let samples ← parsePrometheus metrics
  combineActivity flags samples

/-! ## What they raise -/

theorem BackendOnly.ok {α : Type} (a : α) : BackendOnly (.ok a) := nofun

theorem backendOnly_error {α : Type} {e : Raised} :
    BackendOnly (.error e : Except Raised α) ↔ e.isBackendError = true := by
  constructor
  · intro h
    exact h e rfl
  · intro h e' he
    cases he
    exact h

/-- A call followed by another one raises only what one of them does. -/
theorem BackendOnly.bind {α β : Type} {x : Except Raised α} {f : α → Except Raised β}
    (hx : BackendOnly x) (hf : ∀ a, x = .ok a → BackendOnly (f a)) : BackendOnly (x >>= f) := by
  cases x with
  | error e => exact backendOnly_error.2 (hx e rfl)
  | ok a => exact hf a rfl

/-- A loop raises only what its body does. -/
theorem BackendOnly.foldlM {α β : Type} {f : β → α → Except Raised β}
    (hf : ∀ b a, BackendOnly (f b a)) (l : List α) (b : β) : BackendOnly (l.foldlM f b) := by
  induction l generalizing b with
  | nil => exact .ok b
  | cons a l ih =>
    rw [List.foldlM_cons]
    exact (hf b a).bind fun b' _ => ih b'

theorem parseModelEntry_backend (states : Dict String ModelState) (item : Json) :
    BackendOnly (parseModelEntry states item) := by
  unfold parseModelEntry
  dsimp only
  split
  · split
    · exact backendOnly_error.2 rfl
    · split
      · exact .ok _
      · exact backendOnly_error.2 rfl
  · exact backendOnly_error.2 rfl

/-- `parse_model_states` raises nothing but a `BackendError`. -/
theorem parseModelStates_backend (document : Json) : BackendOnly (parseModelStates document) := by
  unfold parseModelStates
  split
  · exact BackendOnly.foldlM parseModelEntry_backend _ _
  · exact backendOnly_error.2 rfl

/-- `parse_router_props` raises nothing but a `BackendError`. -/
theorem parseRouterProps_backend (document : Json) (role : String) :
    BackendOnly (parseRouterProps document role) := by
  unfold parseRouterProps
  dsimp only
  split
  · exact backendOnly_error.2 rfl
  · split
    · exact .ok _
    · exact backendOnly_error.2 rfl

/-- `parse_strata_activity` raises nothing but a `BackendError`. -/
theorem parseStrataActivity_backend (document : Json) :
    BackendOnly (parseStrataActivity document) := by
  unfold parseStrataActivity
  dsimp only
  split
  · exact .ok _
  · exact backendOnly_error.2 rfl

theorem parseSample_backend (samples : Dict String Double) (line : String) :
    BackendOnly (parseSample samples line) := by
  unfold parseSample
  split
  · exact .ok _
  · split
    · exact .ok _
    · exact backendOnly_error.2 rfl

theorem parsePrometheus_backend (text : String) : BackendOnly (parsePrometheus text) :=
  BackendOnly.foldlM parseSample_backend _ _

theorem slotFlags_backend (slots : Json) : BackendOnly (slotFlags slots) := by
  unfold slotFlags
  dsimp only
  split
  · exact backendOnly_error.2 rfl
  · split
    · exact backendOnly_error.2 rfl
    · split
      · exact backendOnly_error.2 rfl
      · split
        · exact .ok _
        · exact backendOnly_error.2 rfl

/-! ## A page of metrics -/

/-- The samples of a page: name and text of the value, in order. -/
def samplesOf (text : String) : List (String × String) := (splitlines text).filterMap sample?

/-- The text of the last value that a list of samples has for a metric. -/
def lastValue (name : String) (samples : List (String × String)) : Option String :=
  (samples.reverse.find? fun sample => sample.1 = name).map Prod.snd

@[simp] theorem lastValue_nil (name : String) : lastValue name [] = none := rfl

theorem lastValue_cons (name : String) (sample : String × String) (rest : List (String × String)) :
    lastValue name (sample :: rest) =
      (lastValue name rest).or (if sample.1 = name then some sample.2 else none) := by
  unfold lastValue
  rw [List.reverse_cons, List.find?_append]
  cases rest.reverse.find? fun sample => sample.1 = name with
  | some _ => rfl
  | none => by_cases h : sample.1 = name <;> simp [h]

theorem mem_of_lastValue {name value : String} {samples : List (String × String)}
    (h : lastValue name samples = some value) : (name, value) ∈ samples := by
  obtain ⟨sample, hs, rfl⟩ := Option.map_eq_some_iff.1 h
  have hname : sample.1 = name := by simpa using List.find?_some hs
  rw [← hname]
  exact List.mem_reverse.1 (List.mem_of_find?_eq_some hs)

/-- The value of a sample is a number. -/
def Numeric (sample : String × String) : Prop := (float sample.2).isSome = true

/-- A line that is no sample changes nothing, and one without a number is an
    error. -/
theorem parseSample_ok {samples result : Dict String Double} {line : String} :
    parseSample samples line = .ok result ↔
      (sample? line = none ∧ samples = result) ∨ ∃ sample x, sample? line = some sample ∧
        float sample.2 = some x ∧ samples.insert sample.1 x = result := by
  unfold parseSample
  cases sample? line with
  | none => simp
  | some sample =>
    dsimp only
    cases hx : float sample.2 with
    | none => simp [hx]
    | some x => simp [hx]

/-- The loop of `parse_prometheus` ends exactly if every sample has a number. -/
theorem foldlM_parseSample {lines : List String} (samples : Dict String Double) :
    (∃ result, lines.foldlM parseSample samples = .ok result) ↔
      ∀ sample ∈ lines.filterMap sample?, Numeric sample := by
  induction lines generalizing samples with
  | nil => exact ⟨fun _ _ h => absurd h List.not_mem_nil, fun _ => ⟨samples, rfl⟩⟩
  | cons line lines ih =>
    rw [List.foldlM_cons]
    cases hs : sample? line with
    | none =>
      have hline : parseSample samples line = .ok samples := parseSample_ok.2 (.inl ⟨hs, rfl⟩)
      rw [List.filterMap_cons_none hs, ← ih samples, hline]
      rfl
    | some sample =>
      rw [List.filterMap_cons_some hs, List.forall_mem_cons]
      constructor
      · rintro ⟨result, h⟩
        obtain ⟨next, hnext, h⟩ := except_bind_ok.1 h
        rcases parseSample_ok.1 hnext with ⟨hnone, -⟩ | ⟨sample', x, hs', hx, -⟩
        · rw [hs] at hnone
          cases hnone
        · cases hs.symm.trans hs'
          exact ⟨Option.isSome_iff_exists.2 ⟨x, hx⟩, (ih next).1 ⟨result, h⟩⟩
      · rintro ⟨hn, hrest⟩
        obtain ⟨x, hx⟩ := Option.isSome_iff_exists.1 hn
        obtain ⟨result, h⟩ := (ih (samples.insert sample.1 x)).2 hrest
        have hline := parseSample_ok.2 (.inr ⟨sample, x, hs, hx, @rfl _ (samples.insert sample.1 x)⟩)
        exact ⟨result, except_bind_ok.2 ⟨_, hline, h⟩⟩

/-- The last sample of a metric decides. -/
theorem get_foldlM_parseSample {lines : List String} {samples result : Dict String Double}
    (h : lines.foldlM parseSample samples = .ok result) (name : String) :
    result.get name =
      ((lastValue name (lines.filterMap sample?)).bind float).or (samples.get name) := by
  induction lines generalizing samples with
  | nil => cases h; rfl
  | cons line lines ih =>
    have hnumeric := (foldlM_parseSample samples).1 ⟨result, h⟩
    rw [List.foldlM_cons] at h
    obtain ⟨next, hnext, h⟩ := except_bind_ok.1 h
    rw [ih h]
    rcases parseSample_ok.1 hnext with ⟨hs, rfl⟩ | ⟨sample, x, hs, hx, rfl⟩
    · rw [List.filterMap_cons_none hs]
    · rw [List.filterMap_cons_some hs] at hnumeric ⊢
      rw [lastValue_cons, Dict.get_insert]
      cases hl : lastValue name (lines.filterMap sample?) with
      | none =>
        by_cases hn : sample.1 = name
        · simp [hn, hx]
        · simp [hn, Ne.symm hn]
      | some value =>
        have hmem := List.mem_cons_of_mem sample (mem_of_lastValue hl)
        obtain ⟨y, hy⟩ := Option.isSome_iff_exists.1 (hnumeric _ hmem)
        dsimp only at hy
        simp [hy]

/-- `parse_prometheus` returns exactly if each sample of the page has a number,
    and then the number of the last sample of each metric. -/
theorem parsePrometheus_eq_ok (text : String) :
    ((∃ samples, parsePrometheus text = .ok samples) ↔ ∀ sample ∈ samplesOf text, Numeric sample) ∧
    ∀ samples, parsePrometheus text = .ok samples →
      ∀ name, samples.get name = (lastValue name (samplesOf text)).bind float := by
  refine ⟨foldlM_parseSample ∅, fun samples h name => ?_⟩
  rw [get_foldlM_parseSample h, Dict.get_empty, Option.or_none]
  rfl

/-! ## Counts that are no numbers -/

/-- The text of a value, if there is one, does not stand for an infinity or NaN. -/
def FiniteText (value : Option String) : Prop :=
  ∀ text x, value = some text → float text = some x → x.isFinite = true

/-- If the slots and the page are otherwise readable (the document is a list of
    slots, every sample has a number, no metric is missing), then the last values
    of the two counts are finite. -/
def CountsFinite (slots : Json) (metrics : String) : Prop :=
  (∃ flags, slotFlags slots = .ok flags) → (∀ sample ∈ samplesOf metrics, Numeric sample) →
    (∀ name ∈ neededMetrics, (lastValue name (samplesOf metrics)).isSome = true) →
    FiniteText (lastValue "requests_deferred" (samplesOf metrics)) ∧
      FiniteText (lastValue "n_decode_total" (samplesOf metrics))

/-- A conversion returns, or raises what is no `BackendError`. -/
theorem conversion_cases (x : Double) :
    (x.isFinite = true ∧ ∃ z, x.int.mapError Raised.ofConversion = .ok z) ∨
      (x.isFinite = false ∧ ∃ e, x.int.mapError Raised.ofConversion = .error e ∧
        e.isBackendError = false) := by
  have hfinite := Double.int_isOk x
  cases hint : x.int with
  | ok z => exact .inl ⟨hfinite.1 ⟨z, hint⟩, z, rfl⟩
  | error e =>
    have hnot : x.isFinite = false := by
      by_contra hne
      obtain ⟨z, hz⟩ := hfinite.2 (by simpa using hne)
      rw [hint] at hz
      cases hz
    exact .inr ⟨hnot, .ofConversion e, rfl, by cases e <;> rfl⟩

/-- Two conversions, one after the other. -/
theorem conversions_backend_iff {α : Type} (x y : Double) (f : ℤ → ℤ → α) :
    BackendOnly (do
      let a ← x.int.mapError Raised.ofConversion
      let b ← y.int.mapError Raised.ofConversion
      .ok (f a b)) ↔ x.isFinite = true ∧ y.isFinite = true := by
  rcases conversion_cases x with ⟨hx, a, ha⟩ | ⟨hx, e, he, hno⟩
  · rcases conversion_cases y with ⟨hy, b, hb⟩ | ⟨hy, e, he, hno⟩
    · rw [ha, hb]
      exact ⟨fun _ => ⟨hx, hy⟩, fun _ => .ok _⟩
    · rw [ha, he, hx, hy]
      have herror : BackendOnly (.error e : Except Raised α) ↔ False := by
        rw [backendOnly_error, hno]
        simp
      exact herror.trans (by simp)
  · rw [he, hx]
    have herror : BackendOnly (.error e : Except Raised α) ↔ False := by
      rw [backendOnly_error, hno]
      simp
    exact herror.trans (by simp)

theorem combineActivity_backend_iff (flags : List Bool) (samples : Dict String Double) :
    BackendOnly (combineActivity flags samples) ↔
      ∀ processing deferred decodeCalls, samples.get "requests_processing" = some processing →
        samples.get "requests_deferred" = some deferred →
        samples.get "n_decode_total" = some decodeCalls →
        deferred.isFinite = true ∧ decodeCalls.isFinite = true := by
  unfold combineActivity
  dsimp only
  split
  · next processing deferred decodeCalls hp hd hn =>
    rw [conversions_backend_iff]
    constructor
    · intro h p d n _ hd' hn'
      cases hd.symm.trans hd'
      cases hn.symm.trans hn'
      exact h
    · intro h
      exact h processing deferred decodeCalls hp hd hn
  · next hmissing =>
    exact ⟨fun _ p d n hp hd hn => absurd hn (hmissing p d n hp hd), fun _ => backendOnly_error.2 rfl⟩

/-- `parse_model_activity` raises nothing but a `BackendError` exactly if the
    counts are finite. -/
theorem parseModelActivity_backend_iff (slots : Json) (metrics : String) :
    BackendOnly (parseModelActivity slots metrics) ↔ CountsFinite slots metrics := by
  unfold parseModelActivity CountsFinite
  cases hflags : slotFlags slots with
  | error e =>
    have he := slotFlags_backend slots e hflags
    exact ⟨(fun _ ⟨_, h⟩ => nomatch h), fun _ => backendOnly_error.2 he⟩
  | ok flags =>
    obtain ⟨hparsed, hget⟩ := parsePrometheus_eq_ok metrics
    cases hsamples : parsePrometheus metrics with
    | error e =>
      have he := parsePrometheus_backend metrics e hsamples
      have hnot : ¬ ∀ sample ∈ samplesOf metrics, Numeric sample := fun hall => by
        obtain ⟨samples, h⟩ := hparsed.2 hall
        cases hsamples.symm.trans h
      exact ⟨fun _ _ hall => absurd hall hnot, fun _ => backendOnly_error.2 he⟩
    | ok samples =>
      have hnumeric := hparsed.1 ⟨samples, hsamples⟩
      have hget := hget samples hsamples
      show BackendOnly (combineActivity flags samples) ↔ _
      have present : ∀ name, (lastValue name (samplesOf metrics)).isSome = true ↔
          ∃ x, samples.get name = some x := by
        intro name
        rw [hget name]
        cases hlast : lastValue name (samplesOf metrics) with
        | none => simp
        | some text => simpa using Option.isSome_iff_exists.1 (hnumeric _ (mem_of_lastValue hlast))
      rw [combineActivity_backend_iff]
      constructor
      · intro h _ _ hall
        obtain ⟨processing, hp⟩ := (present "requests_processing").1 (hall _ (by decide))
        obtain ⟨deferred, hd⟩ := (present "requests_deferred").1 (hall _ (by decide))
        obtain ⟨decodeCalls, hn⟩ := (present "n_decode_total").1 (hall _ (by decide))
        obtain ⟨hfd, hfn⟩ := h processing deferred decodeCalls hp hd hn
        rw [hget] at hd hn
        refine ⟨fun text x htext hx => ?_, fun text x htext hx => ?_⟩
        · rw [htext, Option.bind_some, hx] at hd
          rwa [Option.some.inj hd]
        · rw [htext, Option.bind_some, hx] at hn
          rwa [Option.some.inj hn]
      · intro h processing deferred decodeCalls hp hd hn
        have hall : ∀ name ∈ neededMetrics,
            (lastValue name (samplesOf metrics)).isSome = true := by
          intro name hname
          rw [present name]
          simp only [neededMetrics, List.mem_cons, List.not_mem_nil, or_false] at hname
          rcases hname with rfl | rfl | rfl
          · exact ⟨_, hn⟩
          · exact ⟨_, hd⟩
          · exact ⟨_, hp⟩
        obtain ⟨hfd, hfn⟩ := h ⟨flags, rfl⟩ hnumeric hall
        rw [hget, Option.bind_eq_some_iff] at hd hn
        obtain ⟨text, htext, hx⟩ := hd
        obtain ⟨text', htext', hx'⟩ := hn
        exact ⟨hfd text deferred htext hx, hfn text' decodeCalls htext' hx'⟩

end ModelBroker
