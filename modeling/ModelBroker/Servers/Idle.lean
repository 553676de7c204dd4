import ModelBroker.Servers.Answers

/-!
# Pages that are read as idle

`parse_model_activity` (`llama.py`, lines 80–96) keeps one value of each metric,
the last one, compares it with zero or cuts off its fraction, and so forgets what
the page said otherwise. The scheduler unloads a model that is read as idle.

Results, for every slots document and every page:
* `readAsIdle_iff`: which documents and pages are read as idle, by the last values
  of the three metrics.
* `idle_page_iff`: all slots and all samples of a page that is read as idle say so,
  exactly if its last values are plain (no NaN among the running requests, no
  positive fraction of a waiting one) and no sample that a later one overwrites
  says otherwise.
* `nan_read_as_idle`: a page with `NaN` running requests is read as idle.
-/

namespace ModelBroker

open Python

/-! ## Samples that show no work -/

/-- The value is a number and not positive. -/
def ShowsNoWork (value : String) : Prop :=
  ∃ x, float value = some x ∧ x ≠ .nan ∧ x.isPositive = false

/-- The metrics that count requests. -/
def requestMetrics : List String := ["requests_processing", "requests_deferred"]

/-- A line of a page that has a value of a metric, with or without the prefix. -/
def SampleLine (line metric value : String) : Prop :=
  startswith line "#" = false ∧
    (strip line = metric ++ " " ++ value ∨ strip line = "llamacpp:" ++ metric ++ " " ++ value) ∧
    ∀ c ∈ value.toList, c ≠ ' '

/-- No line of the page shows a request. -/
def PageIdle (metrics : String) : Prop :=
  ∀ line ∈ splitlines metrics, ∀ metric ∈ requestMetrics, ∀ value,
    SampleLine line metric value → ShowsNoWork value

/-- The document is a list of one or more objects, none of which is processing. -/
def SlotsIdle (slots : Json) : Prop :=
  ∃ items, slots = .arr items ∧ items ≠ [] ∧ ∀ item ∈ items,
    ∃ slot, item.dict? = some slot ∧ slot.get "is_processing" = some (.bool false)

theorem startswith_requestMetric {metric : String} (h : metric ∈ requestMetrics) :
    metric ≠ "" ∧ startswith metric "llamacpp:" = false := by
  revert metric
  decide

/-- `parse_prometheus` finds the samples of the metrics in these lines. -/
theorem sample?_eq_some_iff {line metric value : String} (h : metric ∈ requestMetrics) :
    sample? line = some (metric, value) ↔ SampleLine line metric value := by
  obtain ⟨hne, hplain⟩ := startswith_requestMetric h
  have hsplit : ∀ name, name ≠ "" → (rpartition ' ' (strip line) = (name, value) ↔
      strip line = name ++ " " ++ value ∧ ∀ c ∈ value.toList, c ≠ ' ') :=
    fun name hname => rpartition_eq_iff hname
  unfold sample? SampleLine
  dsimp only
  constructor
  · intro hsample
    split_ifs at hsample with hcomment
    obtain ⟨hname, hvalue⟩ := Prod.mk.inj (Option.some.inj hsample)
    rcases (removeprefix_eq_iff hplain).1 hname with hname | hname
    · obtain ⟨hline, hspace⟩ := (hsplit _ hne).1 (Prod.ext hname hvalue)
      exact ⟨hcomment.2, .inl hline, hspace⟩
    · obtain ⟨hline, hspace⟩ := (hsplit _ (by simp)).1 (Prod.ext hname hvalue)
      exact ⟨hcomment.2, .inr hline, hspace⟩
  · rintro ⟨hcomment, hline | hline, hspace⟩
    · rw [(hsplit metric hne).2 ⟨hline, hspace⟩, if_pos ⟨hne, hcomment⟩]
      exact congrArg _ (Prod.ext ((removeprefix_eq_iff hplain).2 (.inl rfl)) rfl)
    · rw [(hsplit _ (by simp)).2 ⟨hline, hspace⟩, if_pos ⟨by simp, hcomment⟩]
      exact congrArg _ (Prod.ext ((removeprefix_eq_iff hplain).2 (.inr rfl)) rfl)

/-- The page is idle if its samples are. -/
theorem pageIdle_iff {metrics : String} :
    PageIdle metrics ↔ ∀ sample ∈ samplesOf metrics, sample.1 ∈ requestMetrics →
      ShowsNoWork sample.2 := by
  constructor
  · rintro h ⟨metric, value⟩ hsample hmetric
    obtain ⟨line, hline, hread⟩ := List.mem_filterMap.1 hsample
    exact h line hline metric hmetric value ((sample?_eq_some_iff hmetric).1 hread)
  · intro h line hline metric hmetric value hsample
    have hread := (sample?_eq_some_iff hmetric).2 hsample
    exact h (metric, value) (List.mem_filterMap.2 ⟨line, hline, hread⟩) hmetric

/-! ## Samples that are overwritten -/

/-- A later sample has the same metric. -/
def Overwritten (samples : List (String × String)) (sample : String × String) : Prop :=
  ∃ before after, samples = before ++ sample :: after ∧ ∃ later ∈ after, later.1 = sample.1

theorem lastValue_eq_none {name : String} {samples : List (String × String)} :
    lastValue name samples = none ↔ ∀ sample ∈ samples, sample.1 ≠ name := by
  simp [lastValue]

/-- Every sample is the last one of its metric or is overwritten. -/
theorem last_or_overwritten {samples : List (String × String)} {sample : String × String}
    (h : sample ∈ samples) :
    lastValue sample.1 samples = some sample.2 ∨ Overwritten samples sample := by
  induction samples with
  | nil => cases h
  | cons first rest ih =>
    rcases List.mem_cons.1 h with rfl | h
    · by_cases hlater : ∃ later ∈ rest, later.1 = sample.1
      · exact .inr ⟨[], rest, rfl, hlater⟩
      · push Not at hlater
        rw [lastValue_cons, lastValue_eq_none.2 hlater, if_pos rfl]
        exact .inl rfl
    · rcases ih h with hlast | ⟨before, after, rfl, hlater⟩
      · rw [lastValue_cons, hlast]
        exact .inl rfl
      · exact .inr ⟨first :: before, after, rfl, hlater⟩

/-! ## What is read as idle -/

/-- The last value of a metric. -/
def lastNumber (name metrics : String) : Option Double :=
  (lastValue name (samplesOf metrics)).bind float

/-- The slots and the last values of the page say that the model is idle, as far as
    they are looked at. -/
structure LooksIdle (slots : Json) (metrics : String) : Prop where
  slots : SlotsIdle slots
  numeric : ∀ sample ∈ samplesOf metrics, Numeric sample
  processing : ∃ x, lastNumber "requests_processing" metrics = some x ∧ x.isPositive = false
  deferred : ∃ value, lastNumber "requests_deferred" metrics = some (.finite value) ∧ |value| < 1
  decodeCalls : ∃ x, lastNumber "n_decode_total" metrics = some x ∧ x.isFinite = true

/-- `parse_model_activity` returns an activity without requests. -/
def ReadAsIdle (slots : Json) (metrics : String) : Prop :=
  ∃ activity, parseModelActivity slots metrics = .ok activity ∧
    activity.processing = false ∧ activity.deferred = 0

/-- The flags of a document that is a list of slots. -/
theorem slotFlags_eq_ok {slots : Json} {flags : List Bool} :
    slotFlags slots = .ok flags ↔ ∃ items dicts, slots = .arr items ∧ dicts ≠ [] ∧
      List.Forall₂ (fun item slot => item.dict? = some slot) items dicts ∧
      List.Forall₂ (fun slot flag => (Json.field slot "is_processing").bool? = some flag)
        dicts flags := by
  simp only [← option_mapM_eq_some]
  unfold slotFlags
  dsimp only
  cases slots with
  | arr items =>
    dsimp only [Json.list?]
    cases hdicts : items.mapM Json.dict? with
    | none => simp [hdicts]
    | some dicts =>
      dsimp only
      by_cases hne : dicts = []
      · simp [hne, hdicts]
      · rw [if_neg hne]
        cases hflags : dicts.mapM fun slot => (Json.field slot "is_processing").bool? with
        | none => simp [hdicts, hflags]
        | some found => simp [hdicts, hflags, hne]
  | null | bool | int | float | str | obj => simp [Json.list?]

theorem bool?_eq_some {document : Json} {value : Bool} :
    document.bool? = some value ↔ document = .bool value := by
  cases document <;> simp [Json.bool?]

/-- A flag that is false is there. -/
theorem field_eq_false {slot : Dict String Json} {key : String} :
    (Json.field slot key).bool? = some false ↔ slot.get key = some (.bool false) := by
  rw [bool?_eq_some, Json.field]
  cases slot.get key <;> simp

/-- No slot is processing. -/
theorem slotFlags_idle_iff {slots : Json} :
    (∃ flags, slotFlags slots = .ok flags ∧ flags.any id = false) ↔ SlotsIdle slots := by
  simp only [slotFlags_eq_ok]
  constructor
  · rintro ⟨flags, ⟨items, dicts, rfl, hne, hdicts, hflags⟩, hidle⟩
    refine ⟨items, rfl, ?_, fun item hitem => ?_⟩
    · rintro rfl
      exact hne (List.forall₂_nil_left_iff.1 hdicts)
    · obtain ⟨slot, hslot, hdict⟩ := forall₂_mem_right hdicts.flip hitem
      obtain ⟨flag, hflag, hfield⟩ := forall₂_mem_right hflags.flip hslot
      have hfalse : flag = false := by
        have := List.any_eq_false.1 hidle flag hflag
        simpa using this
      rw [hfalse] at hfield
      exact ⟨slot, hdict, field_eq_false.1 hfield⟩
  · rintro ⟨items, rfl, hne, hitems⟩
    refine ⟨items.map fun _ => false, ⟨items, items.map fun item => item.dict?.getD ∅, rfl, ?_, ?_, ?_⟩,
      by simp⟩
    · simpa using hne
    · rw [List.forall₂_map_right_iff, List.forall₂_same]
      intro item hitem
      obtain ⟨slot, hdict, -⟩ := hitems item hitem
      rw [hdict]
      rfl
    · rw [List.forall₂_map_right_iff, List.forall₂_map_left_iff, List.forall₂_same]
      intro item hitem
      obtain ⟨slot, hdict, hflag⟩ := hitems item hitem
      rw [hdict]
      exact field_eq_false.2 hflag

/-- The flags and samples that make an activity without requests. -/
theorem combineActivity_idle_iff {flags : List Bool} {samples : Dict String Double} :
    (∃ activity, combineActivity flags samples = .ok activity ∧ activity.processing = false ∧
      activity.deferred = 0) ↔
    flags.any id = false ∧
      (∃ x, samples.get "requests_processing" = some x ∧ x.isPositive = false) ∧
      (∃ value, samples.get "requests_deferred" = some (.finite value) ∧ |value| < 1) ∧
      ∃ x, samples.get "n_decode_total" = some x ∧ x.isFinite = true := by
  unfold combineActivity
  dsimp only
  cases hprocessing : samples.get "requests_processing" with
  | none => simp
  | some processing =>
    cases hdeferred : samples.get "requests_deferred" with
    | none => simp
    | some deferred =>
      cases hcalls : samples.get "n_decode_total" with
      | none => simp
      | some calls =>
        simp only [Option.some.injEq, exists_eq_left']
        constructor
        · rintro ⟨activity, hactivity, hidle, hzero⟩
          obtain ⟨d, hd, hactivity⟩ := except_bind_ok.1 hactivity
          obtain ⟨n, hn, hactivity⟩ := except_bind_ok.1 hactivity
          obtain rfl := Except.ok.inj hactivity
          obtain ⟨hflags, hpositive⟩ := Bool.or_eq_false_iff.1 hidle
          dsimp only at hzero
          rw [hzero] at hd
          exact ⟨hflags, hpositive, (Double.int_eq_zero deferred).1 (except_mapError_ok.1 hd),
            (Double.int_isOk calls).1 ⟨n, except_mapError_ok.1 hn⟩⟩
        · rintro ⟨hflags, hpositive, hdeferred, hfinite⟩
          obtain ⟨n, hn⟩ := (Double.int_isOk calls).2 hfinite
          refine ⟨⟨flags.any id || processing.isPositive, 0, n⟩, ?_, by simp [hflags, hpositive], rfl⟩
          rw [(Double.int_eq_zero deferred).2 hdeferred, hn]
          rfl

/-- Which documents and pages are read as idle. -/
theorem readAsIdle_iff {slots : Json} {metrics : String} :
    ReadAsIdle slots metrics ↔ LooksIdle slots metrics := by
  obtain ⟨hparsed, hget⟩ := parsePrometheus_eq_ok metrics
  constructor
  · rintro ⟨activity, hactivity, hidle⟩
    obtain ⟨flags, hflags, hactivity⟩ := except_bind_ok.1 hactivity
    obtain ⟨samples, hsamples, hactivity⟩ := except_bind_ok.1 hactivity
    obtain ⟨hfalse, hcounts⟩ := combineActivity_idle_iff.1 ⟨activity, hactivity, hidle⟩
    simp only [hget samples hsamples] at hcounts
    obtain ⟨hprocessing, hdeferred, hcalls⟩ := hcounts
    exact ⟨slotFlags_idle_iff.1 ⟨flags, hflags, hfalse⟩, hparsed.1 ⟨samples, hsamples⟩, hprocessing,
      hdeferred, hcalls⟩
  · intro h
    obtain ⟨flags, hflags, hfalse⟩ := slotFlags_idle_iff.2 h.slots
    obtain ⟨samples, hsamples⟩ := hparsed.2 h.numeric
    have hcounts : (∃ x, samples.get "requests_processing" = some x ∧ x.isPositive = false) ∧
        (∃ value, samples.get "requests_deferred" = some (.finite value) ∧ |value| < 1) ∧
        ∃ x, samples.get "n_decode_total" = some x ∧ x.isFinite = true := by
      simp only [hget samples hsamples]
      exact ⟨h.processing, h.deferred, h.decodeCalls⟩
    obtain ⟨activity, hactivity, hidle⟩ := combineActivity_idle_iff.2 ⟨hfalse, hcounts⟩
    exact ⟨activity, except_bind_ok.2 ⟨flags, hflags, except_bind_ok.2 ⟨samples, hsamples, hactivity⟩⟩,
      hidle⟩

/-! ## What an idle page says -/

/-- The last number of running requests is not NaN, that of waiting ones is not a
    fraction, and no value of either that a later one overwrites shows a request. -/
structure Plain (metrics : String) : Prop where
  processing : lastNumber "requests_processing" metrics ≠ some .nan
  deferred : ∀ value, lastNumber "requests_deferred" metrics = some (.finite value) →
    ¬ (0 < value ∧ value < 1)
  overwritten : ∀ sample, Overwritten (samplesOf metrics) sample → sample.1 ∈ requestMetrics →
    ShowsNoWork sample.2

/-- The value of the last sample of a metric shows no request if its number does not. -/
theorem lastNumber_eq {name value metrics : String}
    (h : lastValue name (samplesOf metrics) = some value) :
    lastNumber name metrics = float value := by
  rw [lastNumber, h, Option.bind_some]

theorem lastNumber_showsNoWork {name metrics : String} {x : Double} (h : PageIdle metrics)
    (hname : name ∈ requestMetrics) (hx : lastNumber name metrics = some x) :
    x ≠ .nan ∧ x.isPositive = false := by
  obtain ⟨value, hlast, hfloat⟩ := Option.bind_eq_some_iff.1 hx
  obtain ⟨y, hy, hshows⟩ := pageIdle_iff.1 h _ (mem_of_lastValue hlast) hname
  cases hfloat.symm.trans hy
  exact hshows

/-- For every slots document and every page: that a model is read as idle means that
    each slot and each sample of its requests says so, exactly if the page is plain
    whenever it looks idle. -/
theorem idle_page_iff (slots : Json) (metrics : String) :
    (∀ activity, parseModelActivity slots metrics = .ok activity → activity.processing = false →
      activity.deferred = 0 → SlotsIdle slots ∧ PageIdle metrics) ↔
    (LooksIdle slots metrics → Plain metrics) := by
  have hread : (∀ activity, parseModelActivity slots metrics = .ok activity →
      activity.processing = false → activity.deferred = 0 → SlotsIdle slots ∧ PageIdle metrics) ↔
      (LooksIdle slots metrics → SlotsIdle slots ∧ PageIdle metrics) := by
    rw [← readAsIdle_iff]
    exact ⟨fun h ⟨activity, hactivity, hidle, hzero⟩ => h activity hactivity hidle hzero,
      fun h activity hactivity hidle hzero => h ⟨activity, hactivity, hidle, hzero⟩⟩
  rw [hread]
  refine forall_congr' fun hlooks => ?_
  rw [and_iff_right hlooks.slots]
  constructor
  · intro hpage
    refine ⟨fun hnan => ?_, fun value hvalue hfraction => ?_, fun sample hsample hmetric => ?_⟩
    · exact (lastNumber_showsNoWork hpage (by decide) hnan).1 rfl
    · have hpositive := (lastNumber_showsNoWork hpage (by decide) hvalue).2
      simp [Double.isPositive, hfraction.1] at hpositive
    · obtain ⟨before, after, hsamples, -⟩ := hsample
      exact pageIdle_iff.1 hpage sample (by simp [hsamples]) hmetric
  · intro hplain
    rw [pageIdle_iff]
    intro sample hsample hmetric
    rcases last_or_overwritten hsample with hlast | hover
    · have hnumber := lastNumber_eq hlast
      obtain ⟨name, value⟩ := sample
      rcases List.mem_pair.1 hmetric with rfl | rfl
      · obtain ⟨x, hx, hpositive⟩ := hlooks.processing
        refine ⟨x, hnumber.symm.trans hx, fun hnan => ?_, hpositive⟩
        exact hplain.processing (hnan ▸ hx)
      · obtain ⟨q, hq, hsmall⟩ := hlooks.deferred
        refine ⟨_, hnumber.symm.trans hq, nofun, ?_⟩
        have hnone := hplain.deferred q hq
        have hle : ¬ 0 < q := fun hpos => hnone ⟨hpos, (abs_lt.1 hsmall).2⟩
        simpa [Double.isPositive] using hle
    · exact hplain.overwritten sample hover hmetric

/-- A slot that is idle. -/
def idleSlots : Json := .arr [.obj [("is_processing", .bool false)]]

/-- A page whose number of running requests is NaN. -/
def nanPage : String :=
  "llamacpp:requests_processing nan\nllamacpp:requests_deferred 0\nllamacpp:n_decode_total 7\n"

/-- The page is read as idle, although one of its values is no number. -/
theorem nan_read_as_idle :
    ¬ ∀ slots metrics activity, parseModelActivity slots metrics = .ok activity →
      activity.processing = false → activity.deferred = 0 → SlotsIdle slots ∧ PageIdle metrics := by
  intro h
  have hread : (parseModelActivity idleSlots nanPage).toOption = some ⟨false, 0, 7⟩ := by
    decide +kernel
  have hactivity := except_toOption_eq_some.1 hread
  have hnan : lastNumber "requests_processing" nanPage = some .nan := by decide +kernel
  have hpage := (h idleSlots nanPage _ hactivity rfl rfl).2
  exact (lastNumber_showsNoWork hpage (by decide) hnan).1 rfl

end ModelBroker
