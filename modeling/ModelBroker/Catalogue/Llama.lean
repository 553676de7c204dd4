import ModelBroker.Catalogue.Devices
import ModelBroker.Python.Double

/-!
# The preset of the llama.cpp router

`parse_catalogue` and what it calls (`catalogue.py`, lines 24–25, 97–180 and
226–237). What `configparser` returns is given: for each section its options.
An error is the text of the `CatalogueError`.

* `variant_accepted`: what an accepted section claims.
* `Accepted.claimsConflict_iff`: which accepted sections conflict.
* `conflicts_by_policy`: for every accepted preset, two variants conflict exactly
  when they share a device of their suffixes or both need RAM for weights.
-/

namespace ModelBroker.Preset

open Python

/-- `DRAFT_DEVICE_KEYS` (line 24). -/
def draftDeviceKeys : List String := ["spec-draft-device", "device-draft"]

/-- `GPU_ONLY_KEYS` (line 25), sorted. -/
def gpuOnlyKeys : List String := ["main-gpu", "n-cpu-moe", "split-mode", "tensor-split"]

/-- `int_setting` (lines 97–104). -/
def intSetting (variantId : String) (settings : Options) (key : String) (default : ℤ) :
    Except String ℤ :=
  match settings.get key with
  | none => .ok default
  | some text =>
    match int text with
    | some value => .ok value
    | none => .error (invalid variantId ("has invalid " ++ key ++ " value " ++ Python.repr text))

/-- The body of the loop of `check_threads` (lines 110–112). -/
def checkThread (variantId : String) (settings : Options) (key : String) : Except String Unit := do
  let threads ← intSetting variantId settings key (-1)
  if threads = 0 ∨ threads < -1 then
    .error (invalid variantId ("has " ++ key ++ " = " ++ toString threads ++
      "; use a positive count or -1"))
  else .ok ()

/-- `check_threads` (lines 107–112). -/
def checkThreads (variantId : String) (settings : Options) : Except String Unit :=
  ["threads", "threads-batch"].forM (checkThread variantId settings)

/-- `resource_class` (lines 115–139). -/
def resourceClass (variantId : String) (settings : Options) (devices : List String) :
    Except String String :=
  let layers := settings.get "n-gpu-layers"
  let layersText := (layers.map Python.repr).getD "None"
  if devices = [] then
    if layers ≠ some "0" then
      .error (invalid variantId ("is a CPU variant and must set n-gpu-layers = 0, not " ++ layersText))
    else
      let gpuOnly := gpuOnlyKeys.filter settings.contains
      if gpuOnly ≠ [] then
        .error (invalid variantId ("is a CPU variant but sets GPU-only " ++
          String.intercalate ", " gpuOnly))
      else .ok "cpu_weights"
  else if layers ≠ some "all" then
    .error (invalid variantId ("is a GPU variant and must set n-gpu-layers = all, not " ++ layersText))
  else do
    let cpuMoe ← intSetting variantId settings "n-cpu-moe" 0
    if cpuMoe < 0 then .error (invalid variantId "has negative n-cpu-moe")
    else .ok (if cpuMoe ≠ 0 then "moe_offload" else "gpu_resident")

/-- `resource_claims` (lines 142–154). -/
def resourceClaims (kind : String) (devices : List String) : List ResourceClaim :=
  ⟨"CPU", false⟩ :: ⟨"RAM:weights", kind ≠ "gpu_resident"⟩ ::
    devices.map fun device => ⟨"GPU" ++ String.ofList (device.toList.drop 4), true⟩

/-- The body of the loop over the draft model's devices (lines 169–171). -/
def checkDraft (variantId : String) (settings : Options) (devices : List String) (key : String) :
    Except String Unit :=
  if settings.contains key then do
    let draft ← settingDevices variantId key (settings.get key)
    if draft = devices then .ok ()
    else
      .error (invalid variantId ("places its draft model outside its devices with " ++ key))
  else .ok ()

/-- `variant` (lines 157–180). -/
def variant (variantId : String) (settings : Options) : Except String Variant :=
  let modelPath := (settings.get "model").getD ""
  if modelPath = "" then .error (invalid variantId "has no model setting")
  else do
    let devices ← confirmedDevices variantId settings
    draftDeviceKeys.forM (checkDraft variantId settings devices)
    checkThreads variantId settings
    let kind ← resourceClass variantId settings devices
    .ok {
      id := variantId
      modelPath
      settings
      claims := resourceClaims kind devices
      resourceClass := kind }

/-- The settings that `[*]` gives every section (line 229). -/
def defaults (sections : Dict String Options) : Options := (sections.get "*").getD ∅

/-- `parse_catalogue` (lines 226–237). -/
def parseCatalogue (sections : Dict String Options) : Except String (Dict String Variant) := do
  let variants ← (sections.entries.filter (·.1 ≠ "*")).mapM fun s => do
    let v ← variant s.1 ((defaults sections).update s.2)
    .ok (s.1, v)
  if variants = [] then .error "preset has no model sections"
  else .ok (.ofList variants)

/-! ## What an accepted section claims -/

/-- Whether a model keeps weights in RAM: it has no device, or offloads experts. -/
def holdsWeights (settings : Options) (devices : List ℕ) : Bool :=
  devices = [] || ((settings.get "n-cpu-moe").bind int).any (0 < ·)

/-- What an accepted section promises: the devices are those of its suffix, its
    settings name them too, and they and the RAM are what it claims exclusively. -/
structure Accepted (v : Variant) (devices : List ℕ) : Prop where
  suffix : ∀ other, Suffix v.id other ↔ other = devices
  device : ∃ value, v.settings.get "device" = some value ∧ Lists value devices
  draft : ∀ key ∈ draftDeviceKeys, ∀ value, v.settings.get key = some value → Lists value devices
  exclusive : (v.claims.filter (·.exclusive)).map (·.resource) =
    (if holdsWeights v.settings devices then ["RAM:weights"] else []) ++ devices.map gpuName
  distinct : (v.claims.map (·.resource)).Nodup
  nonempty : v.exclusive.Nonempty

/-- A draft model is on the devices of the section. -/
theorem checkDraft_ok {variantId key : String} {settings : Options} {devices : List ℕ}
    (h : checkDraft variantId settings (devices.map cudaName) key = .ok ()) {value : String}
    (hvalue : settings.get key = some value) : Lists value devices := by
  unfold checkDraft at h
  rw [if_pos (Dict.contains_iff.2 ⟨value, hvalue⟩), hvalue] at h
  obtain ⟨draft, hdraft, h⟩ := except_bind_ok.1 h
  split_ifs at h with heq
  obtain ⟨_, htext, devices', hlists, -, rfl⟩ := settingDevices_eq_ok.1 hdraft
  obtain rfl := Option.some.inj htext
  rwa [(List.map_injective_iff.2 cudaName_injective) heq] at hlists

/-- An integer setting is the number of its text, or the default. -/
theorem intSetting_ok {variantId key : String} {settings : Options} {default value : ℤ}
    (h : intSetting variantId settings key default = .ok value) :
    ((settings.get key).bind int).getD default = value := by
  unfold intSetting at h
  cases htext : settings.get key with
  | none =>
    rw [htext] at h
    exact Except.ok.inj h
  | some text =>
    rw [htext] at h
    dsimp only at h
    cases hvalue : int text with
    | none =>
      rw [hvalue] at h
      cases h
    | some number =>
      rw [hvalue] at h
      rw [Option.bind_some, hvalue]
      exact Except.ok.inj h

/-- The class of a section tells whether it keeps weights in RAM. -/
theorem resourceClass_ok {variantId kind : String} {settings : Options} {devices : List ℕ}
    (h : resourceClass variantId settings (devices.map cudaName) = .ok kind) :
    decide (kind ≠ "gpu_resident") = holdsWeights settings devices := by
  unfold resourceClass at h
  dsimp only at h
  by_cases hnone : devices = []
  · subst hnone
    rw [List.map_nil, if_pos rfl] at h
    split_ifs at h
    obtain rfl := Except.ok.inj h
    rfl
  · rw [if_neg fun heq => hnone (List.map_eq_nil_iff.1 heq)] at h
    split_ifs at h
    obtain ⟨cpuMoe, hint, h⟩ := except_bind_ok.1 h
    have hholds : holdsWeights settings devices = decide (0 < cpuMoe) := by
      unfold holdsWeights
      rw [← intSetting_ok hint]
      cases (settings.get "n-cpu-moe").bind int <;> simp [hnone]
    rw [hholds]
    split_ifs at h with hnegative hzero
    · obtain rfl := Except.ok.inj h
      have hpos : 0 < cpuMoe := by omega
      simp [hpos]
    · obtain rfl := Except.ok.inj h
      have hnot : ¬ 0 < cpuMoe := by omega
      simp [hnot]

/-- The resource of a device is named after its number. -/
theorem gpuName_eq (n : ℕ) : "GPU" ++ String.ofList ((cudaName n).toList.drop 4) = gpuName n := by
  simp [cudaName, gpuName]

/-- The exclusive claims of a section. -/
theorem resourceClaims_exclusive (kind : String) (devices : List ℕ) :
    ((resourceClaims kind (devices.map cudaName)).filter (·.exclusive)).map (·.resource) =
      (if decide (kind ≠ "gpu_resident") then ["RAM:weights"] else []) ++ devices.map gpuName := by
  have hdevices : ((devices.map cudaName).map fun device =>
      (⟨"GPU" ++ String.ofList (device.toList.drop 4), true⟩ : ResourceClaim)).filter (·.exclusive) =
      devices.map fun n => ⟨gpuName n, true⟩ := by
    rw [List.map_map, List.filter_eq_self.2]
    · exact List.map_congr_left fun n _ => by rw [Function.comp_apply, gpuName_eq]
    · intro claim hclaim
      obtain ⟨n, -, rfl⟩ := List.mem_map.1 hclaim
      rfl
  unfold resourceClaims
  rw [List.filter_cons_of_neg (by decide), List.filter_cons, hdevices]
  split_ifs with hkind
  · simp [Function.comp_def]
  · simp [Function.comp_def]

/-- The resources of a section are different: its devices are, and none is called
    `CPU` or `RAM:weights`. -/
theorem resourceClaims_distinct (kind : String) {devices : List ℕ} (h : devices.Nodup) :
    ((resourceClaims kind (devices.map cudaName)).map (·.resource)).Nodup := by
  have hnames : (resourceClaims kind (devices.map cudaName)).map (·.resource) =
      "CPU" :: "RAM:weights" :: devices.map gpuName := by
    simp only [resourceClaims, List.map_cons, List.map_map]
    congr 2
    exact List.map_congr_left fun n _ => gpuName_eq n
  have hother : ∀ name, name.toList.head? ≠ some 'G' → name ∉ devices.map gpuName := by
    intro name hname hmem
    obtain ⟨n, -, rfl⟩ := List.mem_map.1 hmem
    exact hname (by simp [gpuName])
  rw [hnames, List.nodup_cons, List.nodup_cons, List.mem_cons, not_or]
  exact ⟨⟨by decide, hother "CPU" (by decide)⟩, hother "RAM:weights" (by decide),
    h.map gpuName_injective⟩

/-- What an accepted section claims. -/
theorem variant_accepted {variantId : String} {settings : Options} {v : Variant}
    (h : variant variantId settings = .ok v) :
    v.id = variantId ∧ v.settings = settings ∧ ∃ devices, Accepted v devices := by
  unfold variant at h
  dsimp only at h
  split_ifs at h
  obtain ⟨names, hconfirmed, h⟩ := except_bind_ok.1 h
  obtain ⟨⟨⟩, hdraft, h⟩ := except_bind_ok.1 h
  obtain ⟨⟨⟩, -, h⟩ := except_bind_ok.1 h
  obtain ⟨kind, hkind, h⟩ := except_bind_ok.1 h
  obtain rfl := Except.ok.inj h
  obtain ⟨devices, rfl, hnodup, hsuffix, hdevice⟩ := confirmedDevices_ok hconfirmed
  have hweights := resourceClass_ok hkind
  have hclaims := resourceClaims_exclusive kind devices
  refine ⟨rfl, rfl, devices, ?_, hdevice, ?_, ?_, resourceClaims_distinct kind hnodup, ?_⟩
  · intro other
    exact ⟨fun hother => hother.unique hsuffix, fun heq => heq ▸ hsuffix⟩
  · intro key hkey value hvalue
    exact checkDraft_ok (except_forM_ok.1 hdraft key hkey) hvalue
  · rw [hclaims, hweights]
  · rw [Variant.exclusive, hclaims, hweights, List.toFinset_nonempty_iff]
    by_cases hnone : devices = []
    · rw [hnone]
      exact List.cons_ne_nil _ _
    · simp [hnone]

/-- The resources that an accepted section holds. -/
theorem Accepted.mem_exclusive {v : Variant} {devices : List ℕ} (h : Accepted v devices)
    {resource : String} :
    resource ∈ v.exclusive ↔
      (holdsWeights v.settings devices = true ∧ resource = "RAM:weights") ∨
        ∃ n ∈ devices, gpuName n = resource := by
  rw [Variant.exclusive, h.exclusive, List.mem_toFinset, List.mem_append, List.mem_map]
  cases holdsWeights v.settings devices <;> simp

/-- Two accepted sections conflict when they share a device or both keep weights in
    RAM. -/
theorem Accepted.claimsConflict_iff {v v' : Variant} {devices devices' : List ℕ}
    (h : Accepted v devices) (h' : Accepted v' devices') :
    claimsConflict v v' = true ↔ (∃ n, n ∈ devices ∧ n ∈ devices') ∨
      (holdsWeights v.settings devices = true ∧ holdsWeights v'.settings devices' = true) := by
  have hweights : ∀ n, gpuName n ≠ "RAM:weights" := by
    intro n heq
    have hhead : (gpuName n).toList.head? = ("RAM:weights" : String).toList.head? := by rw [heq]
    simp [gpuName] at hhead
  rw [ModelBroker.claimsConflict_iff]
  constructor
  · rintro ⟨resource, hfirst, hsecond⟩
    rcases h.mem_exclusive.1 hfirst with ⟨hholds, rfl⟩ | ⟨n, hn, rfl⟩
    · rcases h'.mem_exclusive.1 hsecond with ⟨hholds', -⟩ | ⟨n, -, heq⟩
      · exact .inr ⟨hholds, hholds'⟩
      · exact absurd heq (hweights n)
    · rcases h'.mem_exclusive.1 hsecond with ⟨-, heq⟩ | ⟨m, hm, heq⟩
      · exact absurd heq (hweights n)
      · exact .inl ⟨n, hn, gpuName_injective heq ▸ hm⟩
  · rintro (⟨n, hn, hn'⟩ | ⟨hholds, hholds'⟩)
    · exact ⟨gpuName n, h.mem_exclusive.2 (.inr ⟨n, hn, rfl⟩), h'.mem_exclusive.2 (.inr ⟨n, hn', rfl⟩)⟩
    · exact ⟨"RAM:weights", h.mem_exclusive.2 (.inl ⟨hholds, rfl⟩),
        h'.mem_exclusive.2 (.inl ⟨hholds', rfl⟩)⟩

/-! ## Accepted presets -/

/-- The entries of an accepted preset, one for each section but `[*]`. -/
theorem parseCatalogue_entries {sections : Dict String Options} {catalogue : Dict String Variant}
    (h : parseCatalogue sections = .ok catalogue) :
    List.Forall₂ (fun s v => s.1 = v.1 ∧
        variant s.1 ((defaults sections).update s.2) = .ok v.2)
      (sections.entries.filter (·.1 ≠ "*")) catalogue.entries := by
  obtain ⟨variants, hvariants, h⟩ := except_bind_ok.1 h
  split_ifs at h
  obtain rfl := Except.ok.inj h
  have hall : List.Forall₂ (fun s v => s.1 = v.1 ∧
      variant s.1 ((defaults sections).update s.2) = .ok v.2)
      (sections.entries.filter (·.1 ≠ "*")) variants := by
    refine (except_mapM_ok hvariants).imp fun s entry hentry => ?_
    obtain ⟨v, hv, hok⟩ := except_bind_ok.1 hentry
    obtain rfl := Except.ok.inj hok
    exact ⟨rfl, hv⟩
  have hnames : variants.map Prod.fst =
      (sections.entries.filter (·.1 ≠ "*")).map Prod.fst := by
    rw [← List.forall₂_eq_eq_eq, List.forall₂_map_left_iff, List.forall₂_map_right_iff]
    exact hall.flip.imp fun _ _ hv => hv.1.symm
  rw [Dict.entries_ofList (hnames ▸ sections.nodup.sublist (List.filter_sublist.map _))]
  exact hall

/-- Every variant of an accepted preset is an accepted section, with the defaults
    of `[*]`. -/
theorem variant_of_accepted {sections : Dict String Options} {catalogue : Dict String Variant}
    (h : parseCatalogue sections = .ok catalogue) {id : String} {v : Variant}
    (hv : catalogue.get id = some v) :
    ∃ options, sections.get id = some options ∧
      variant id ((defaults sections).update options) = .ok v := by
  obtain ⟨s, hs, rfl, hvariant⟩ :=
    forall₂_mem_right (parseCatalogue_entries h) (Dict.get_eq_some.1 hv)
  exact ⟨s.2, Dict.get_eq_some.2 (List.mem_filter.1 hs).1, hvariant⟩

/-- What an accepted preset makes of a section: its options over those of `[*]`, and
    the devices and the RAM that it claims. -/
structure FromSection (sections : Dict String Options) (id : String) (v : Variant)
    (devices : List ℕ) : Prop extends Accepted v devices where
  named : v.id = id
  merged : ∃ options, sections.get id = some options ∧
    ∀ key, v.settings.get key = (options.get key).or ((defaults sections).get key)

theorem fromSection_of_parseCatalogue {sections : Dict String Options}
    {catalogue : Dict String Variant} (h : parseCatalogue sections = .ok catalogue) {id : String}
    {v : Variant} (hv : catalogue.get id = some v) :
    ∃ devices, FromSection sections id v devices := by
  obtain ⟨options, hoptions, hvariant⟩ := variant_of_accepted h hv
  obtain ⟨hid, hsettings, devices, haccepted⟩ := variant_accepted hvariant
  have hmerged : ∀ key, v.settings.get key = (options.get key).or ((defaults sections).get key) := by
    intro key
    rw [hsettings, Dict.get_update]
  exact ⟨devices, haccepted, hid, options, hoptions, hmerged⟩

/-- For every accepted preset and every two of its variants: each claims the devices
    of its suffix, which its settings confirm, and RAM for weights if it has no
    device or offloads experts; and they conflict exactly when they share a device or
    both claim that RAM. -/
theorem conflicts_by_policy {sections : Dict String Options} {catalogue : Dict String Variant}
    (h : parseCatalogue sections = .ok catalogue) {id id' : String} {v v' : Variant}
    (hv : catalogue.get id = some v) (hv' : catalogue.get id' = some v') :
    ∃ devices devices', FromSection sections id v devices ∧ FromSection sections id' v' devices' ∧
      claimsConflict v v' = claimsConflict v' v ∧
      (claimsConflict v v' = true ↔ (∃ n, n ∈ devices ∧ n ∈ devices') ∨
        (holdsWeights v.settings devices = true ∧ holdsWeights v'.settings devices' = true)) := by
  obtain ⟨devices, hsection⟩ := fromSection_of_parseCatalogue h hv
  obtain ⟨devices', hsection'⟩ := fromSection_of_parseCatalogue h hv'
  exact ⟨devices, devices', hsection, hsection', claimsConflict_comm v v',
    hsection.toAccepted.claimsConflict_iff hsection'.toAccepted⟩

/-- Two models on one GPU, one of them with its experts in RAM, and one on the CPU. -/
def smallPreset : Dict String Options :=
  .ofList [
    ("*", .ofList [("n-gpu-layers", "all")]),
    ("coder--cuda0-cuda1", .ofList [("model", "/models/coder.gguf"), ("device", "CUDA0, CUDA1")]),
    ("moe--cuda1", .ofList [("model", "/models/moe.gguf"), ("device", "CUDA1"), ("n-cpu-moe", "46")]),
    ("small--cpu", .ofList [("model", "/models/small.gguf"), ("device", "none"),
      ("n-gpu-layers", "0")])]

theorem conflicts_by_policy_smallPreset :
    ∃ catalogue v v', parseCatalogue smallPreset = .ok catalogue ∧
      catalogue.get "coder--cuda0-cuda1" = some v ∧ catalogue.get "moe--cuda1" = some v' ∧
      ∃ devices devices', FromSection smallPreset "coder--cuda0-cuda1" v devices ∧
        FromSection smallPreset "moe--cuda1" v' devices' ∧
        claimsConflict v v' = claimsConflict v' v ∧
        (claimsConflict v v' = true ↔ (∃ n, n ∈ devices ∧ n ∈ devices') ∨
          (holdsWeights v.settings devices = true ∧ holdsWeights v'.settings devices' = true)) := by
  have hboth : (match parseCatalogue smallPreset with
      | .ok catalogue => catalogue.contains "coder--cuda0-cuda1" && catalogue.contains "moe--cuda1"
      | .error _ => false) = true := by
    decide +kernel
  cases hparsed : parseCatalogue smallPreset with
  | error _ =>
    rw [hparsed] at hboth
    cases hboth
  | ok catalogue =>
    rw [hparsed, Bool.and_eq_true, Dict.contains_iff, Dict.contains_iff] at hboth
    obtain ⟨⟨v, hv⟩, v', hv'⟩ := hboth
    exact ⟨catalogue, v, v', rfl, hv, hv', conflicts_by_policy hparsed hv hv'⟩

end ModelBroker.Preset
